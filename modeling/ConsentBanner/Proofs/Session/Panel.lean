import ConsentBanner.Proofs.Session.Decision
import ConsentBanner.Proofs.Session.Passage
import ConsentBanner.Proofs.Session.Start

/-!
The panel of preferences, and the banners that go away from under an open one.
-/

namespace ConsentBanner.Session

/-- Where a banner is, and whether its preferences are open. -/
def panel (s : Session) : Phase × Bool := (s.phase, s.preferencesOpen)

/-- The panel, with where the banner has been and when it was last shown. -/
def sight (s : Session) : (Phase × Bool) × List Phase × Option Number := (panel s, s.history, s.shownAt)

theorem Keeps.panel {α : Type} {m : SessionM α} (h : Keeps sight m) : Keeps panel m := by
  intro k s hs
  exact (congrArg Prod.fst (h.eq s)).trans hs

section Keeps

theorem keeps_sight_resize (width : Json) : Keeps sight (resize width) := fun _ =>
  .bind (.modify fun _ h => h) fun _ => .bind OffDisplay.device fun _ =>
    .bind (.modify fun _ h => h) fun _ => .bind .get fun _ => .pure _

theorem keeps_sight_identify : Keeps sight identify := fun _ =>
  .bind .get fun _ => .bind (.lift _) fun _ => .bind (.modify fun _ h => h) fun _ => .pure _

theorem keeps_sight_persist (c : Consent) : Keeps sight (persist c) := fun _ =>
  .bind .get fun _ => .bind (.lift _) fun _ => .modify fun _ h => h

theorem keeps_sight_reportOf (action : ActionKind) (c : Consent) : Keeps sight (reportOf action c) := fun k =>
  .bind .get fun _ => .bind (.lift _) fun _ => .bind (keeps_sight_identify k) fun _ =>
    .bind OffDisplay.reportMetadata fun _ => .bind (.checked _) fun _ => .pure _

theorem keeps_sight_storeTcString (t : Option Json) : Keeps sight (storeTcString t) := by
  intro k
  refine .bind .get fun s => ?_
  split
  · exact .bind (.modify fun _ h => h) fun _ => keeps_sight_persist _ k
  · exact .pure _

theorem keeps_sight_sendAll (rs : List Report) : Keeps sight (sendAll rs) := by
  intro k
  induction rs with
  | nil => exact .pure _
  | cons r rest ih =>
    exact .bind .get fun _ => .bind (.modify fun _ h => h) fun _ =>
      .bind (keeps_sight_storeTcString _ k) fun _ => ih

theorem keeps_sight_flush : Keeps sight flush := fun k =>
  .bind .get fun _ => .bind (keeps_sight_sendAll _ k) fun _ => .pure _

theorem keeps_sight_advance (seconds : Json) : Keeps sight (advance seconds) := fun _ =>
  .bind .get fun _ => .bind (.lift _) fun _ => .modify fun _ h => h

theorem keeps_sight_react (r : Signal.Reaction) : Keeps sight (react r) := by
  intro k
  refine .bind (.modify fun _ h => h) fun _ => ?_
  split
  · exact .throw _
  · exact .pure _

theorem keeps_sight_callApi (command version : Json) (listener : Option Signal.Listener) (parameter : Json) :
    Keeps sight (callApi command version listener parameter) := fun k =>
  .bind .get fun _ => keeps_sight_react _ k

theorem keeps_sight_receive (message : Json) : Keeps sight (receive message) := fun k =>
  .bind .get fun _ => .bind (keeps_sight_react _ k) fun _ => .pure _

/-- Events that pass the banner by. -/
def Event.passesBy : Event → Bool
  | .start => false
  | .act _ _ => false
  | .icon => false
  | .tick => false
  | .reset => false
  | _ => true

theorem keeps_sight_perform {e : Event} (h : e.passesBy = true) : Keeps sight (perform e) := by
  intro k
  cases e with
  | resize width => exact (keeps_sight_resize width k).discard
  | flush => exact (keeps_sight_flush k).discard
  | advance seconds => exact keeps_sight_advance seconds k
  | setCookie cookie => exact .modify fun _ h => h
  | call command version listener parameter => exact keeps_sight_callApi command version listener parameter k
  | receive message => exact (keeps_sight_receive message k).discard
  | _ => cases h

end Keeps

@[simp] theorem preferencesOpen_inPhase (phase : Phase) (s : Session) :
    (inPhase phase s).preferencesOpen = s.preferencesOpen := by
  cases phase with
  | _ => rfl

/-- An event that takes a visible banner away from under its open preferences: the banner hides by itself, or a decision
fails on its way. -/
inductive LeavesPanel : Event → Session → Prop where
  | hides {s : Session} (hvisible : s.phase = .bannerVisible) (hopen : s.preferencesOpen = true)
      (h : hidesItself s.config.autoHide s.shownAt s.browser.now = .ok true) : LeavesPanel .tick s
  | fails {s : Session} {name : String} {categories : Json} {action : ActionKind} (hopen : s.preferencesOpen = true)
      (hname : decisionNamed name s = some action) (h : goesWell (.act name categories) s = false) :
      LeavesPanel (.act name categories) s

section Closed

/-- The panel is not open. -/
def Closed (s : Session) : Prop := s.preferencesOpen = false

theorem preserves_closed {α : Type} {m : SessionM α} (h : Keeps panel m) : Preserves Closed m := by
  intro s hs
  have hpanel := congrArg Prod.snd (h.eq s)
  exact hpanel.trans hs

theorem preserves_closed_enter (phase : Phase) : Preserves Closed (enter phase) := fun s hs =>
  (preferencesOpen_inPhase phase s).trans hs

theorem closed_showBanner (s : Session) : Closed (leaves showBanner s) := by
  have placed (width : Json) : Preserves Closed (do Functor.discard (resize width); enter .bannerVisible) :=
    .bind (.discard (preserves_closed (keeps_sight_resize width).panel)) fun _ => preserves_closed_enter _
  exact placed s.environment.viewportWidth { s with shownAt := some s.browser.now, preferencesOpen := false } rfl

theorem preserves_closed_showBanner : Preserves Closed showBanner := fun s _ => closed_showBanner s

theorem preserves_closed_start : Preserves Closed start := by
  refine .bind .get fun s => .ite (.throw_bind _ _) (.bind (preserves_closed_enter _) fun _ => ?_)
  refine .bind (.lift _) fun c => .bind (.modify fun _ h => h) fun _ => .bind OffDisplay.shouldShow fun due => ?_
  refine .bind (.discard (preserves_closed keeps_sight_identify.panel)) fun _ => .ite ?_ ?_
  · exact .bind preserves_closed_showBanner fun _ => OffDisplay.phase
  · exact .bind (preserves_closed_enter _) fun _ => OffDisplay.phase

theorem preserves_closed_tick : Preserves Closed tick := by
  refine .bind .get fun s => ?_
  split
  · exact .bind (.lift _) fun _ => .ite (.bind (preserves_closed_enter _) fun _ => OffDisplay.phase) OffDisplay.phase
  · refine .ite (.bind (.lift _) fun decided => .ite (.bind OffDisplay.shouldShow fun due => ?_) OffDisplay.phase)
      OffDisplay.phase
    exact .ite (.bind preserves_closed_showBanner fun _ => OffDisplay.phase) OffDisplay.phase
  · exact OffDisplay.phase

/-- The session that has forgotten its decision and is about to ask again. -/
def asking (s : Session) : Session :=
  inPhase .evaluateConsent { s with browser := s.store.clear s.browser, consent := none }

theorem leaves_reset (s : Session) : leaves reset s = leaves showBanner (asking s) :=
  leaves_bind_keeps id (m := showBanner) (fun _ _ => OffDisplay.phase) (asking s)

theorem closed_reset (s : Session) : Closed (leaves reset s) := by
  rw [leaves_reset]
  exact closed_showBanner (asking s)

/-- A decision closes the panel at its end; where it fails it has left the banner, and the panel as it was. -/
theorem panel_applyDecision (action : ActionKind) (categories : Json) (s : Session) :
    match result (applyDecision action categories) s with
    | (.ok _, t) => Closed t
    | (.error _, t) => t.phase ≠ .bannerVisible ∧ t.preferencesOpen = s.preferencesOpen := by
  rw [result_applyDecision]
  cases decisionOf action categories s with
  | error f => exact ⟨by simp, preferencesOpen_inPhase _ _⟩
  | ok c =>
    dsimp only
    cases s.store.save c s.browser with
    | error f => exact ⟨by simp [adopted], by simp [adopted]⟩
    | ok b =>
      dsimp only
      rcases hreport : result (reportOf action c) (written c b s) with ⟨e | r, t⟩
      · obtain ⟨hphase, hopen⟩ := Prod.mk.inj ((keeps_sight_reportOf action c).panel.of_result hreport)
        refine ⟨?_, ?_⟩
        · rw [hphase]
          simp [written]
        · rw [hopen]
          simp [written, adopted]
      · exact preferencesOpen_inPhase _ _

end Closed

/-- The preferences are open in a visible banner at most. -/
def Attached (s : Session) : Prop := s.preferencesOpen = true → s.phase = .bannerVisible

section Attached

variable {s t : Session}

theorem Closed.attached (h : Closed s) : Attached s := by
  intro hopen
  rw [Closed, hopen] at h
  cases h

theorem Attached.congr (hs : Attached s) (h : panel t = panel s) : Attached t := by
  intro hopen
  obtain ⟨hphase, hpanel⟩ := Prod.mk.inj h
  exact hphase.trans (hs (hpanel ▸ hopen))

theorem preserves_attached {α : Type} {m : SessionM α} (h : Keeps panel m) : Preserves Attached m :=
  fun s hs => hs.congr (h.eq s)

theorem phase_of_showBanner {u : Unit} (h : result showBanner s = (.ok u, t)) : t.phase = .bannerVisible := by
  obtain ⟨_, rfl, hface⟩ := Leads.showBanner.through s u t h
  exact congrArg Face.phase hface

theorem attached_showPreferences : Preserves Attached showPreferences := by
  intro s hs
  rw [showPreferences, leaves_bind, result_get]
  dsimp only
  split
  · exact hs
  · rename_i hphase
    split
    · rw [leaves_bind]
      rcases hshown : result showBanner s with ⟨e | u, t⟩
      · have hclosed := closed_showBanner s
        rw [leaves, hshown] at hclosed
        exact hclosed.attached
      · have hvisible := phase_of_showBanner hshown
        intro _
        exact hvisible
    · rename_i hhidden
      have hvisible : s.phase = .bannerVisible := by
        simp only [Bool.and_eq_true, bne_iff_ne, ne_eq, not_and, not_not, beq_iff_eq] at hphase hhidden
        by_contra hp
        exact hhidden (hphase hp)
      intro _
      exact hvisible

theorem attached_clickIcon : Preserves Attached clickIcon :=
  .bind .get fun _ => .ite (.throw_bind _ _) attached_showPreferences

theorem after_start_of_started (h : s.phase ≠ .init) : after .start s = s :=
  (passes .start s).unchanged _ _ (Prod.ext (start_refused h) rfl)

theorem result_perform_decision {name : String} {categories : Json} {action : ActionKind}
    (hname : decisionNamed name s = some action) :
    result (perform (.act name categories)) s = result (applyDecision action categories) s := by
  unfold decisionNamed at hname
  split at hname
  · rename_i hvisible
    obtain ⟨haction, hdecision⟩ := Option.filter_eq_some_iff.1 hname
    change result (discard (handle name categories)) s = _
    rw [result_discard, result_handle haction hdecision hvisible]
    rcases result (applyDecision action categories) s with ⟨e | u, t⟩
    · rfl
    · rfl
  · cases hname

theorem goesWell_decision {name : String} {categories : Json} {action : ActionKind}
    (hname : decisionNamed name s = some action) :
    goesWell (.act name categories) s = (result (applyDecision action categories) s).1.toOption.isSome := by
  rw [goesWell, result_perform_decision hname]
  have haccepted := (Leads.applyDecision action categories).accepted s
  rcases hr : result (applyDecision action categories) s with ⟨e | u, t⟩
  · cases e with
    | refused r => exact absurd (congrArg Prod.fst hr) (haccepted r)
    | _ => rfl
  · rfl

theorem attached_decision {name : String} {categories : Json} {action : ActionKind}
    (hname : decisionNamed name s = some action) :
    Attached (after (.act name categories) s) ∨ LeavesPanel (.act name categories) s := by
  have hpanel := panel_applyDecision action categories s
  have hwell : goesWell (.act name categories) s = (result (applyDecision action categories) s).1.toOption.isSome :=
    goesWell_decision hname
  rw [after, leaves, result_perform_decision hname]
  rcases hr : result (applyDecision action categories) s with ⟨e | u, t⟩
  · rw [hr] at hpanel hwell
    cases hopen : s.preferencesOpen with
    | true => exact .inr (.fails hopen hname hwell)
    | false => exact .inl (Closed.attached (hpanel.2.trans hopen))
  · rw [hr] at hpanel
    exact .inl (Closed.attached hpanel)

theorem attached_act (action : Option ActionKind) (categories : Json) (h : action.filter isDecision = none)
    (hs : Attached s) : Attached (leaves (act action categories) s) := by
  unfold act
  split
  · rw [leaves_bind, result_get]
    dsimp only
    cases hopen : s.preferencesOpen with
    | true => exact Closed.attached rfl
    | false => exact Closed.attached ((preferencesOpen_inPhase _ _).trans hopen)
  · rename_i action _
    have hdecision : isDecision action = false := by simpa using h
    rw [if_neg (by simp [hdecision])]
    exact hs
  · exact hs

theorem attached_handle {name : String} {categories : Json} (hname : decisionNamed name s = none)
    (hs : Attached s) : Attached (leaves (handle name categories) s) := by
  rw [handle, leaves_bind, result_get]
  dsimp only
  split
  · exact attached_showPreferences s hs
  · split
    · exact hs
    · rename_i hphase
      have hvisible : s.phase = .bannerVisible := by simpa using hphase
      rw [decisionNamed, if_pos hvisible] at hname
      have hacted := attached_act _ categories hname hs
      exact hacted.congr (leaves_bind_keeps panel (fun _ _ => OffDisplay.phase) s)

theorem attached_tick (hs : Attached s) : Attached (leaves tick s) ∨ LeavesPanel .tick s := by
  cases hopen : s.preferencesOpen with
  | false => exact .inl (preserves_closed_tick s hopen).attached
  | true =>
    have hvisible := hs hopen
    rw [tick, leaves_bind, result_get]
    dsimp only
    rw [hvisible]
    dsimp only
    rw [leaves_bind, result_lift]
    cases hhides : hidesItself s.config.autoHide s.shownAt s.browser.now with
    | error f => exact .inl hs
    | ok hides =>
      cases hides with
      | false => exact .inl hs
      | true => exact .inr (.hides hvisible hopen hhides)

/-- Only an event that leaves the panel behind detaches it from its banner. -/
theorem attached_after (e : Event) (hs : Attached s) : Attached (after e s) ∨ LeavesPanel e s := by
  cases e with
  | start =>
    refine .inl ?_
    by_cases hinit : s.phase = .init
    · have hclosed : Closed s := by
        rw [Closed, ← Bool.not_eq_true]
        intro hopen
        have hvisible := hs hopen
        rw [hinit] at hvisible
        cases hvisible
      rw [after, perform, leaves_discard]
      exact (preserves_closed_start s hclosed).attached
    · rw [after_start_of_started hinit]
      exact hs
  | act name categories =>
    cases hname : decisionNamed name s with
    | some action => exact attached_decision hname
    | none =>
      refine .inl ?_
      rw [after, perform, leaves_discard]
      exact attached_handle hname hs
  | icon => exact .inl (attached_clickIcon.discard s hs)
  | tick =>
    rw [after, perform, leaves_discard]
    exact attached_tick hs
  | reset =>
    rw [after, perform, leaves_discard]
    exact .inl (closed_reset s).attached
  | _ => exact .inl (preserves_attached (keeps_sight_perform rfl).panel s hs)

theorem LeavesPanel.visible {e : Event} (h : LeavesPanel e s) : s.phase = .bannerVisible := by
  cases h with
  | hides hvisible => exact hvisible
  | fails _ hname =>
    unfold decisionNamed at hname
    split at hname
    · assumption
    · cases hname

theorem LeavesPanel.detached {e : Event} (h : LeavesPanel e s) :
    (after e s).preferencesOpen = true ∧ (after e s).phase ≠ .bannerVisible := by
  cases h with
  | hides hvisible hopen hhides =>
    have hafter : after .tick s = inPhase .hidden s := by
      rw [after, perform, leaves_discard, tick, leaves_bind, result_get]
      dsimp only
      rw [hvisible]
      dsimp only
      rw [leaves_bind, result_lift, hhides]
      rfl
    rw [hafter, phase_inPhase, preferencesOpen_inPhase]
    exact ⟨hopen, by decide⟩
  | fails hopen hname hfails =>
    rename_i name categories action
    have hpanel := panel_applyDecision action categories s
    rw [goesWell_decision hname] at hfails
    rw [after, leaves, result_perform_decision hname]
    rcases hr : result (applyDecision action categories) s with ⟨e | u, t⟩
    · rw [hr] at hpanel
      exact ⟨hpanel.2.trans hopen, hpanel.1⟩
    · rw [hr] at hfails
      cases hfails

end Attached

section Open

variable {s t : Session}

theorem open_showPreferences {p : Phase} (h : result showPreferences s = (.ok p, t)) : t.preferencesOpen = true := by
  rw [showPreferences, result_bind, result_get] at h
  dsimp only at h
  have opened {u : Session}
      (h : result (do modify fun s => { s with preferencesOpen := true }; return (← get).phase) u = (.ok p, t)) :
      t.preferencesOpen = true := by
    cases h
    rfl
  split at h
  · cases h
  · split at h
    · obtain ⟨_, u, -, h⟩ := result_bind_eq_ok.1 h
      exact opened h
    · exact opened h

theorem visible_reset {p : Phase} (h : result reset s = (.ok p, t)) : t.phase = .bannerVisible := by
  obtain ⟨_, _, -, h⟩ := result_bind_eq_ok.1 h
  obtain ⟨_, _, -, h⟩ := result_bind_eq_ok.1 h
  obtain ⟨_, u, hshown, h⟩ := result_bind_eq_ok.1 h
  cases h
  exact phase_of_showBanner hshown

theorem result_lift_eq_ok {α : Type} {x : Except Fault α} {a : α} (h : result (SessionM.lift x) s = (.ok a, t)) :
    t = s := by
  rw [result_lift] at h
  exact (congrArg Prod.snd h).symm

/-- Time closes no panel: it brings the banner back at most. -/
theorem open_tick {p : Phase} (h : result tick s = (.ok p, t)) (hopen : s.preferencesOpen = true) :
    t.preferencesOpen = true ∨ t.phase = .bannerVisible := by
  have rests {u : Session} (hu : panel u = panel s) (h : result (do return (← get).phase) u = (.ok p, t)) :
      t.preferencesOpen = true ∨ t.phase = .bannerVisible := by
    cases h
    exact .inl ((congrArg Prod.snd hu).trans hopen)
  rw [tick, result_bind, result_get] at h
  dsimp only at h
  split at h
  · obtain ⟨hides, u, hu, hends⟩ := result_bind_eq_ok.1 h
    obtain rfl := result_lift_eq_ok hu
    split at hends
    · cases hends
      exact .inl ((preferencesOpen_inPhase _ _).trans hopen)
    · exact rests rfl hends
  · split at h
    · obtain ⟨decided, u, hu, hasked⟩ := result_bind_eq_ok.1 h
      obtain rfl := result_lift_eq_ok hu
      split at hasked
      · obtain ⟨due, v, hv, hends⟩ := result_bind_eq_ok.1 hasked
        split at hends
        · obtain ⟨_, w, hshown, hends⟩ := result_bind_eq_ok.1 hends
          cases hends
          exact .inr (phase_of_showBanner hshown)
        · have hkeeps : Keeps panel shouldShow := fun _ => OffDisplay.shouldShow
          exact rests (hkeeps.of_result hv) hends
      · exact rests rfl hasked
    · exact rests rfl h
  · exact rests rfl h

/-- An event that goes well is refused or comes to its end. -/
theorem after_of_goesWell {e : Event} (h : goesWell e s = true) :
    after e s = s ∨ result (perform e) s = (.ok (), after e s) := by
  rw [goesWell] at h
  rcases hr : result (perform e) s with ⟨stop | u, t⟩
  · rw [hr] at h
    cases stop with
    | refused r =>
      left
      rw [after, leaves, hr]
      exact (passes e s).unchanged r t hr
    | _ => cases h
  · right
    rw [after, leaves, hr]

theorem result_of_discard {α : Type} {m : SessionM α} (h : result (discard m) s = (.ok (), t)) :
    ∃ a, result m s = (.ok a, t) := by
  rw [result_discard] at h
  rcases hr : result m s with ⟨stop | a, u⟩
  · rw [hr] at h
    cases h
  · rw [hr] at h
    cases h
    exact ⟨a, rfl⟩

/-- A panel that was left behind stays open until the banner is visible again. -/
theorem open_after {e : Event} (hinit : s.phase ≠ .init) (hphase : s.phase ≠ .bannerVisible)
    (hopen : s.preferencesOpen = true) (hwell : goesWell e s = true) :
    (after e s).preferencesOpen = true ∨ (after e s).phase = .bannerVisible := by
  have aside (he : e.passesBy = true) : (after e s).preferencesOpen = true :=
    (congrArg Prod.snd ((keeps_sight_perform he).panel.eq s)).trans hopen
  obtain hafter | hafter := after_of_goesWell hwell
  · rw [hafter]
    exact .inl hopen
  · cases e with
    | start =>
      rw [after_start_of_started hinit]
      exact .inl hopen
    | act name categories =>
      obtain ⟨p, hr⟩ := result_of_discard hafter
      rw [handle, result_bind, result_get] at hr
      dsimp only at hr
      split at hr
      · exact .inl (open_showPreferences hr)
      · rw [if_pos (by simpa using hphase)] at hr
        cases hr
    | icon =>
      obtain ⟨p, hr⟩ := result_of_discard hafter
      rw [clickIcon, result_bind, result_get] at hr
      dsimp only at hr
      split at hr
      · cases hr
      · exact .inl (open_showPreferences hr)
    | tick =>
      obtain ⟨p, hr⟩ := result_of_discard hafter
      exact open_tick hr hopen
    | reset =>
      obtain ⟨p, hr⟩ := result_of_discard hafter
      exact .inr (visible_reset hr)
    | _ => exact .inl (aside rfl)

end Open

/-- Within a run, the panel was left behind, and the banner was not visible since. -/
structure LeftOpen (before : List Event) (e : Event) (rest : List Event) (s : Session) : Prop where
  left : LeavesPanel e (run before s)
  since : ∀ later, later <+: rest → (run later (after e (run before s))).phase ≠ .bannerVisible

/-- The preferences of a hidden banner are open only if the run started so, or has left them behind. -/
theorem leftOpen_of_run (events : List Event) {s : Session} (hopen : (run events s).preferencesOpen = true)
    (hphase : (run events s).phase ≠ .bannerVisible) :
    (s.preferencesOpen = true ∧ ∀ later, later <+: events → (run later s).phase ≠ .bannerVisible) ∨
      ∃ before e rest, events = before ++ e :: rest ∧ LeftOpen before e rest s := by
  induction events generalizing s with
  | nil =>
    refine .inl ⟨hopen, fun later hlater => ?_⟩
    obtain rfl := List.prefix_nil.1 hlater
    exact hphase
  | cons e rest ih =>
    obtain ⟨hafter, hsince⟩ | ⟨before, e', rest', rfl, hleft⟩ := ih hopen hphase
    · have hdetached : ¬ Attached (after e s) := fun h => hsince [] List.nil_prefix (h hafter)
      by_cases hs : Attached s
      · obtain h | h := attached_after e hs
        · exact absurd h hdetached
        · exact .inr ⟨[], e, rest, rfl, h, hsince⟩
      · rw [Attached, Classical.not_imp] at hs
        refine .inl ⟨hs.1, fun later hlater => ?_⟩
        obtain rfl | ⟨tail, rfl, htail⟩ := List.prefix_cons_iff.1 hlater
        · exact hs.2
        · exact hsince tail htail
    · exact .inr ⟨e :: before, e', rest', rfl, hleft.left, hleft.since⟩

theorem open_run (rest : List Event) {s : Session} (hstarted : Started s) (hopen : s.preferencesOpen = true)
    (hsince : ∀ later, later <+: rest → (run later s).phase ≠ .bannerVisible) (hwell : runsWell rest s = true) :
    (run rest s).preferencesOpen = true := by
  induction rest generalizing s with
  | nil => exact hopen
  | cons e rest ih =>
    rw [runsWell, Bool.and_eq_true] at hwell
    have hphase := hsince [] List.nil_prefix
    have hnext := hsince [e] (List.prefix_append [e] rest)
    have hafter := (open_after hstarted hphase hopen hwell.1).resolve_right hnext
    refine ih (started_after e hstarted) hafter (fun later hlater => ?_) hwell.2
    exact hsince (e :: later) (List.cons_prefix_cons.2 ⟨rfl, hlater⟩)

theorem LeftOpen.open_run {before : List Event} {e : Event} {rest : List Event} {s : Session}
    (h : LeftOpen before e rest s) (hwell : runsWell rest (after e (run before s)) = true) :
    (run (before ++ e :: rest) s).preferencesOpen = true ∧
      (run (before ++ e :: rest) s).phase ≠ .bannerVisible := by
  have hstarted : Started (run before s) := by
    rw [Started, h.left.visible]
    decide
  rw [run_append]
  refine ⟨?_, h.since rest (List.prefix_refl rest)⟩
  exact Session.open_run rest (started_after e hstarted) h.left.detached.1 h.since hwell

/-- The preferences are open in a visible banner, unless the banner hid by itself or a decision failed while they were
open: either leaves the panel behind, and it stays open until the banner is visible again. -/
theorem run_leftOpen {config : ClientConfig} {environment : Environment} {components : List Component}
    {browser : Browser} {server : Server} {s : Session}
    (hcreate : create config environment components browser server = .ok s) (events : List Event) :
    ((run events s).preferencesOpen = true ∧ (run events s).phase ≠ .bannerVisible →
      ∃ before e rest, events = before ++ e :: rest ∧ LeftOpen before e rest s) ∧
    ∀ before e rest, events = before ++ e :: rest → LeftOpen before e rest s →
      runsWell rest (after e (run before s)) = true →
        (run events s).preferencesOpen = true ∧ (run events s).phase ≠ .bannerVisible := by
  constructor
  · rintro ⟨hopen, hphase⟩
    obtain ⟨hstart, -⟩ | hleft := leftOpen_of_run events hopen hphase
    · rw [(begins_of_create hcreate).preferencesOpen] at hstart
      cases hstart
    · exact hleft
  · rintro before e rest rfl hleft hwell
    exact hleft.open_run hwell

/-- A page whose banner hides by itself after five seconds. -/
def hidingSession : Session :=
  { plainSession with config := { plainSession.config with autoHide := ⟨true, .int 5⟩ } }

theorem create_hidingSession : create hidingSession.config {} [] {} hidingSession.server = .ok hidingSession := rfl

/-- A banner hides by itself while its preferences are open, and they stay open. -/
theorem run_leftOpen_autoHide :
    let asked : List Event := [.start, .act "show_preferences" .null, .advance (.int 5)]
    (run (asked ++ [.tick]) hidingSession).preferencesOpen = true ∧
      (run (asked ++ [.tick]) hidingSession).phase = .hidden := by
  intro asked
  obtain ⟨-, hleft⟩ := run_leftOpen create_hidingSession (asked ++ [.tick])
  have hphase : (run (asked ++ [.tick]) hidingSession).phase = .hidden := by decide +kernel
  refine ⟨(hleft asked .tick [] rfl ⟨.hides ?_ ?_ ?_, ?_⟩ rfl).1, hphase⟩
  · decide +kernel
  · decide +kernel
  · decide +kernel
  · intro later hlater
    obtain rfl := List.prefix_nil.1 hlater
    decide +kernel

end ConsentBanner.Session
