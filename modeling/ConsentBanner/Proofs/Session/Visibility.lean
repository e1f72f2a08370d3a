import ConsentBanner.Proofs.Session.Panel
import ConsentBanner.Proofs.Session.Return

/-!
What brings a hidden banner back and what takes a visible one away, in every run, whatever fails in it.
-/

namespace ConsentBanner

namespace Double

theorem ofRatio_ne_nan (negative : Bool) (num den : Nat) : ofRatio negative num den ≠ nan := by
  rw [ofRatio]
  dsimp only
  split
  · intro h
    cases h
  · split
    all_goals
      split
      all_goals
        intro h
        cases h

theorem mul_thousand_ne_nan {x : Double} (h : x ≠ nan) : x.mul (ofInt 1000) ≠ nan := by
  rw [ofInt_thousand]
  cases x with
  | nan => exact absurd rfl h
  | infinite negative => exact nofun
  | finite negative m q => exact ofRatio_ne_nan _ _ _

theorem exists_compareInt? {x : Double} (h : x ≠ nan) (n : Int) : ∃ o, x.compareInt? n = some o := by
  cases x with
  | nan => exact absurd rfl h
  | infinite negative => exact ⟨_, rfl⟩
  | finite negative m q => exact ⟨_, rfl⟩

end Double

/-- Whatever counts time can be compared with. -/
theorem Number.exists_compare?_thousandfold {x : Number} (h : x.exceeds 0 = true) (n : Int) :
    ∃ o, (Number.int n).compare? x.thousandfold = some o := by
  cases x with
  | int m => exact ⟨_, rfl⟩
  | float x =>
    have hx : x ≠ .nan := by
      rintro rfl
      cases h
    obtain ⟨o, ho⟩ := Double.exists_compareInt? (Double.mul_thousand_ne_nan hx) n
    exact ⟨o.swap, by rw [thousandfold, compare?, ho, Option.map_some]⟩

namespace Session

/-- A policy that counts time, and by which enough of it has passed between two times. -/
structure Reached (policy : TimedPolicy) (since now : Int) : Prop where
  enabled : policy.enabled = true
  counts : policy.seconds.exceeds 0 = true
  passed : (Number.int (now - since)).compare? policy.seconds.thousandfold = some .gt ∨
    (Number.int (now - since)).compare? policy.seconds.thousandfold = some .eq

/-- The clock of a page shows whole milliseconds, now as when the banner was last shown. -/
structure Clocked (s : Session) : Prop where
  clock : ∃ ms, s.browser.now = .int ms
  shown : ∀ time ∈ s.shownAt, ∃ ms, time = .int ms

theorem lasting_clocked : Lasting Clocked where
  inPhase phase _ h := by
    cases phase with
    | _ => exact ⟨h.clock, h.shown⟩
  resized _ _ h := ⟨h.clock, h.shown⟩
  shown h := by
    refine ⟨h.clock, ?_⟩
    rintro time ⟨⟩
    exact h.clock
  opened _ h := ⟨h.clock, h.shown⟩
  told _ _ h := ⟨h.clock, h.shown⟩
  changed _ _ _ _ _ hnow h := ⟨by rw [hnow]; exact h.clock, h.shown⟩
  advanced hadvance h := by
    obtain ⟨ms, hms⟩ := h.clock
    obtain ⟨d, -, hadvance⟩ := bind_eq_ok.1 hadvance
    obtain ⟨now, hnow, hadvance⟩ := bind_eq_ok.1 hadvance
    cases hadvance
    rw [hms] at hnow
    cases hnow
    exact ⟨⟨_, rfl⟩, h.shown⟩

section Steps

variable {s t : Session}

/-- The banner is visible once it is shown; where that fails it stays where it was. -/
theorem phase_showBanner (s : Session) :
    match result showBanner s with
    | (.ok _, t) => t.phase = .bannerVisible
    | (.error _, t) => t.phase = s.phase := by
  have hplaced := (keeps_sight_resize s.environment.viewportWidth).panel.eq
    { s with shownAt := some s.browser.now, preferencesOpen := false }
  rw [showBanner, result_bind, result_modify]
  dsimp only
  rw [result_bind, result_get]
  dsimp only
  rw [result_bind, result_discard]
  rw [leaves] at hplaced
  rcases hr : result (resize s.environment.viewportWidth)
    { s with shownAt := some s.browser.now, preferencesOpen := false } with ⟨e | placed, t⟩
  · rw [hr] at hplaced
    exact congrArg Prod.fst hplaced
  · exact phase_inPhase _ _

theorem phase_of_reset (s : Session) :
    (leaves reset s).phase = .bannerVisible ∨ (leaves reset s).phase = .evaluateConsent := by
  have hshown := phase_showBanner (asking s)
  rw [leaves_reset, leaves]
  rcases hr : result showBanner (asking s) with ⟨e | u, t⟩
  · rw [hr] at hshown
    exact .inr hshown
  · rw [hr] at hshown
    exact .inl hshown

theorem leaves_showPreferences_of_visible (h : s.phase = .bannerVisible) :
    leaves showPreferences s = { s with preferencesOpen := true } := by
  rw [showPreferences, leaves_bind, result_get]
  dsimp only
  rw [if_neg (by simp [h]), if_neg (by simp [h])]
  rfl

theorem leaves_clickIcon_of_visible (h : s.phase = .bannerVisible) :
    leaves clickIcon s = s ∨ leaves clickIcon s = { s with preferencesOpen := true } := by
  rw [clickIcon, leaves_bind, result_get]
  dsimp only
  split
  · exact .inl rfl
  · exact .inr (leaves_showPreferences_of_visible h)

theorem leaves_tick_of_visible (h : s.phase = .bannerVisible) :
    leaves tick s = s ∨
      (hidesItself s.config.autoHide s.shownAt s.browser.now = .ok true ∧ leaves tick s = inPhase .hidden s) := by
  rw [tick, leaves_bind, result_get]
  dsimp only
  rw [h]
  dsimp only
  rw [leaves_bind, result_lift]
  cases hidesItself s.config.autoHide s.shownAt s.browser.now with
  | error f => exact .inl rfl
  | ok hides =>
    cases hides with
    | false => exact .inl rfl
    | true => exact .inr ⟨rfl, rfl⟩

/-- A decision that fails on its way stays there. -/
theorem passing_of_applyDecision {action : ActionKind} {categories : Json} {e : Stop}
    (h : result (applyDecision action categories) s = (.error e, t)) : t.phase.IsPassing := by
  rw [result_applyDecision] at h
  split at h
  · cases h
    exact .inl rfl
  · split at h
    · cases h
      exact .inr (.inl rfl)
    · split at h
      · rename_i hreport
        cases h
        have hphase := congrArg Prod.fst ((keeps_sight_reportOf _ _).panel.of_result hreport)
        exact .inr (.inr hphase)
      · cases h

theorem Reached.of_hidesItself {policy : TimedPolicy} {since now : Int}
    (h : hidesItself policy (some (.int since)) (.int now) = .ok true) : Reached policy since now := by
  rw [hidesItself] at h
  dsimp only at h
  cases hcounts : policy.enabled && policy.seconds.exceeds 0 with
  | false =>
    rw [hcounts] at h
    cases h
  | true =>
    rw [hcounts] at h
    have hpassed : (Number.int (now + -since)).compare? policy.seconds.thousandfold == some .gt ||
        (Number.int (now + -since)).compare? policy.seconds.thousandfold == some .eq := Except.ok.inj h
    rw [Bool.and_eq_true] at hcounts
    rw [← Int.sub_eq_add_neg, Bool.or_eq_true, beq_iff_eq, beq_iff_eq] at hpassed
    exact ⟨hcounts.1, hcounts.2, hpassed⟩

/-- By a policy that counts time a decision is due again once enough of it has passed. -/
theorem reached_of_not_isRecent {policy : TimedPolicy} {epoch now : Int} (henabled : policy.enabled = true)
    (hcounts : policy.seconds.exceeds 0 = true) (h : ¬ IsRecent policy epoch now) : Reached policy epoch now := by
  refine ⟨henabled, hcounts, ?_⟩
  rw [IsRecent, not_or, not_and] at h
  obtain ⟨o, ho⟩ := Number.exists_compare?_thousandfold hcounts (now - epoch)
  have hlate := h.2 hcounts
  rw [ho] at hlate ⊢
  cases o with
  | lt => exact absurd rfl hlate
  | eq => exact .inr rfl
  | gt => exact .inl rfl

/-- What brings a hidden banner back: the visitor asks for it, everything is forgotten, or time has passed since the
decision that is stored, by a count of milliseconds that is off by at most one. -/
inductive Reopens : Event → Session → Prop where
  | asked {s : Session} (categories : Json) : Reopens (.act "show_preferences" categories) s
  | icon {s : Session} : Reopens .icon s
  | reset {s : Session} : Reopens .reset s
  | due {s : Session} {c : Consent} {decided : Moment} {epoch now : Int}
      (hload : s.store.load s.browser = .ok (some c)) (hdecided : c.lastUpdated = some decided)
      (hnear : (epoch - decided.epochMicros.tdiv 1000).natAbs ≤ 1) (hnow : s.browser.now = .int now)
      (h : Reached s.config.reshow epoch now) : Reopens .tick s

/-- What takes a visible banner away that was last shown at a given time: a decision that was carried out, the visitor
closes the banner itself, or time has passed since it was shown. -/
inductive Hides (shown : Option Number) : Event → Session → Prop where
  | decided {s : Session} {name : String} {categories : Json} {action : ActionKind} {c : Consent} {r : Report}
      (hname : decisionNamed name s = some action)
      (h : CarriedOut action categories s (after (.act name categories) s) c r) : Hides shown (.act name categories) s
  | closed {s : Session} (categories : Json) (h : Closed s) : Hides shown (.act "close" categories) s
  | elapsed {s : Session} {since now : Int} (hshown : shown = some (.int since)) (hnow : s.browser.now = .int now)
      (h : Reached s.config.autoHide since now) : Hides shown .tick s

theorem reopens_tick (hclock : Clocked s) (hhidden : s.phase = .hidden)
    (hvisible : (leaves tick s).phase = .bannerVisible) : Reopens .tick s := by
  have rests {t : Session} (ht : t.phase = s.phase) (h : t.phase = .bannerVisible) : Reopens .tick s := by
    rw [ht, hhidden] at h
    cases h
  obtain ⟨now, hnow⟩ := hclock.clock
  rw [tick, leaves_bind, result_get] at hvisible
  dsimp only at hvisible
  rw [hhidden] at hvisible
  dsimp only at hvisible
  split at hvisible
  · rename_i hpolicy
    rw [Bool.and_eq_true] at hpolicy
    rw [leaves_bind, result_lift, ConsentStore.hasConsent] at hvisible
    cases hload : s.store.load s.browser with
    | error f =>
      rw [hload] at hvisible
      exact rests rfl hvisible
    | ok stored =>
      rw [hload] at hvisible
      change (leaves (if (stored.bind (·.lastUpdated)).isSome = true then _ else _) s).phase = _ at hvisible
      cases hdecided : stored.bind (·.lastUpdated) with
      | none =>
        rw [hdecided, if_neg (by simp)] at hvisible
        exact rests rfl hvisible
      | some decided =>
        obtain ⟨c, rfl, hc⟩ := Option.bind_eq_some_iff.1 hdecided
        rw [hdecided, if_pos (Option.isSome_some : (some decided).isSome = true), leaves_bind, result_shouldShow hload,
          dueAgain, hdecided, hnow] at hvisible
        dsimp only at hvisible
        cases hepoch : decided.epochMillis with
        | error f =>
          have hfails : isDue s.config.reshow decided (.int now) = .error f := by
            rw [isDue, hpolicy.1, hpolicy.2, hepoch]
            rfl
          rw [hfails] at hvisible
          exact rests rfl hvisible
        | ok epoch =>
          obtain ⟨due, hdue, hrecent⟩ := isDue_spec s.config.reshow now hepoch
          rw [hdue] at hvisible
          dsimp only [mapError_ok] at hvisible
          have hnear := Moment.near_of_epochMillis (ConsentStore.isZoned_lastUpdated_of_load hload decided hc) hepoch
          refine .due hload hc hnear hnow (reached_of_not_isRecent hpolicy.1 hpolicy.2 fun h => ?_)
          rw [hrecent.2 h] at hvisible
          have hstill := hhidden.symm.trans hvisible
          cases hstill
  · exact rests rfl hvisible

theorem phase_of_passesBy {e : Event} (h : e.passesBy = true) : (after e s).phase = s.phase :=
  congrArg Prod.fst ((keeps_sight_perform h).panel.eq s)

theorem leaves_handle_of_hidden {name : String} {categories : Json} (hname : name ≠ "show_preferences")
    (hhidden : s.phase = .hidden) : leaves (handle name categories) s = s := by
  rw [handle, leaves_bind, result_get]
  dsimp only
  split
  · rename_i hshow
    exact absurd (Named.name_of_ofName? hshow).symm hname
  · rw [if_pos (by simp [hhidden])]
    rfl

/-- Only so does a hidden banner come back. -/
theorem reopens_of_after (e : Event) (hclock : Clocked s) (hhidden : s.phase = .hidden)
    (hvisible : (after e s).phase = .bannerVisible) : Reopens e s := by
  cases e with
  | start =>
    rw [after_start_of_started (by simp [hhidden]), hhidden] at hvisible
    cases hvisible
  | act name categories =>
    by_cases hname : name = "show_preferences"
    · rw [hname]
      exact .asked categories
    · rw [after, perform, leaves_discard, leaves_handle_of_hidden hname hhidden, hhidden] at hvisible
      cases hvisible
  | icon => exact .icon
  | tick =>
    rw [after, perform, leaves_discard] at hvisible
    exact reopens_tick hclock hhidden hvisible
  | reset => exact .reset
  | _ =>
    rw [phase_of_passesBy rfl, hhidden] at hvisible
    cases hvisible

/-- When the banner is visible, the page knows since when. -/
def Shown (shown : Option Number) (s : Session) : Prop := s.phase = .bannerVisible → s.shownAt = shown

theorem hides_tick {shown : Option Number} (hclock : Clocked s) (hshown : Shown shown s)
    (hvisible : s.phase = .bannerVisible) (hhidden : (leaves tick s).phase = .hidden) : Hides shown .tick s := by
  obtain h | ⟨hhides, -⟩ := leaves_tick_of_visible hvisible
  · rw [h, hvisible] at hhidden
    cases hhidden
  · obtain ⟨now, hnow⟩ := hclock.clock
    cases hsince : s.shownAt with
    | none =>
      rw [hsince] at hhides
      cases hhides
    | some time =>
      obtain ⟨since, rfl⟩ := hclock.shown time hsince
      rw [hsince, hnow] at hhides
      exact .elapsed ((hshown hvisible).symm.trans hsince) hnow (.of_hidesItself hhides)

/-- An action that is no decision hides the banner only by closing it. -/
theorem hides_handle {shown : Option Number} {name : String} {categories : Json} (hvisible : s.phase = .bannerVisible)
    (hname : decisionNamed name s = none) (hhidden : (leaves (handle name categories) s).phase = .hidden) :
    Hides shown (.act name categories) s := by
  have stays {t : Session} (ht : t.phase = s.phase) (h : t.phase = .hidden) : Hides shown (.act name categories) s := by
    rw [ht, hvisible] at h
    cases h
  rw [decisionNamed, if_pos hvisible] at hname
  rw [handle, leaves_bind, result_get] at hhidden
  dsimp only at hhidden
  split at hhidden
  · rw [leaves_showPreferences_of_visible hvisible] at hhidden
    exact stays rfl hhidden
  · rw [if_neg (by simp [hvisible]), leaves_bind_keeps (·.phase) fun _ _ => OffDisplay.phase] at hhidden
    unfold act at hhidden
    split at hhidden
    · rename_i hclose
      obtain rfl := Named.name_of_ofName? hclose
      rw [leaves_bind, result_get] at hhidden
      dsimp only at hhidden
      cases hopen : s.preferencesOpen with
      | true =>
        rw [hopen] at hhidden
        exact stays rfl hhidden
      | false => exact .closed categories hopen
    · rename_i action _ haction
      rw [haction, Option.filter_some] at hname
      have hdecision : isDecision action = false := by simpa using hname
      rw [if_neg (by simp [hdecision])] at hhidden
      exact stays rfl hhidden
    · exact stays rfl hhidden

theorem hides_act {shown : Option Number} {name : String} {categories : Json} (hvisible : s.phase = .bannerVisible)
    (hhidden : (after (.act name categories) s).phase = .hidden) : Hides shown (.act name categories) s := by
  cases hname : decisionNamed name s with
  | some action =>
    have hresult : result (perform (.act name categories)) s = result (applyDecision action categories) s :=
      result_perform_decision hname
    rcases hr : result (applyDecision action categories) s with ⟨e | u, t⟩
    · have hpassing := passing_of_applyDecision hr
      have hafter : after (.act name categories) s = t := by rw [after, leaves, hresult, hr]
      rw [← hafter, hhidden] at hpassing
      obtain h | h | h := hpassing
      · cases h
      · cases h
      · cases h
    · obtain ⟨c, r, hcarried⟩ := carriedOut_of_result hr
      have hafter : after (.act name categories) s = t := by rw [after, leaves, hresult, hr]
      exact .decided hname (hafter ▸ hcarried)
  | none =>
    rw [after, perform, leaves_discard] at hhidden
    exact hides_handle hvisible hname hhidden

/-- Only so does a visible banner go away into hiding. -/
theorem hides_of_after {shown : Option Number} (e : Event) (hclock : Clocked s) (hshown : Shown shown s)
    (hvisible : s.phase = .bannerVisible) (hhidden : (after e s).phase = .hidden) : Hides shown e s := by
  have stays (h : (after e s).phase = .bannerVisible) : Hides shown e s := by
    rw [h] at hhidden
    cases hhidden
  cases e with
  | start => exact stays (by rw [after_start_of_started (by simp [hvisible]), hvisible])
  | act name categories => exact hides_act hvisible hhidden
  | icon =>
    refine stays ?_
    rw [after, perform, leaves_discard]
    obtain h | h := leaves_clickIcon_of_visible hvisible
    · rw [h, hvisible]
    · rw [h]
      exact hvisible
  | tick =>
    rw [after, perform, leaves_discard] at hhidden
    exact hides_tick hclock hshown hvisible hhidden
  | reset =>
    rw [after, perform, leaves_discard] at hhidden
    obtain h | h := phase_of_reset s
    · rw [h] at hhidden
      cases hhidden
    · rw [h] at hhidden
      cases hhidden
  | _ => exact stays ((phase_of_passesBy rfl).trans hvisible)

end Steps

section Fails

variable {α β : Type} {s t : Session}

/-- The banner is not visible. -/
def Unseen (s : Session) : Prop := s.phase ≠ .bannerVisible

theorem preserves_unseen {m : SessionM α} (h : Keeps sight m) : Preserves Unseen m := by
  intro s hs
  have hphase := congrArg Prod.fst (h.panel.eq s)
  exact fun hvisible => hs (hphase.symm.trans hvisible)

theorem preserves_unseen_enter {phase : Phase} (h : phase ≠ .bannerVisible) : Preserves Unseen (enter phase) := by
  intro s _
  rw [Unseen, leaves, result_enter, phase_inPhase]
  exact h

/-- A step that always comes to its end. -/
def Succeeds (m : SessionM α) : Prop := ∀ s, ∃ a t, result m s = (.ok a, t)

theorem succeeds_phase : Succeeds (do return (← get).phase) := fun s => ⟨s.phase, s, rfl⟩

/-- A step that makes no banner visible when it fails. -/
def FailsUnseen (m : SessionM α) : Prop :=
  ∀ s e t, Unseen s → result m s = (.error e, t) → Unseen t

namespace FailsUnseen

theorem of_preserves {m : SessionM α} (h : Preserves Unseen m) : FailsUnseen m := by
  intro s e t hs hr
  have hleft := h s hs
  rwa [leaves, hr] at hleft

theorem bind {m : SessionM α} {k : α → SessionM β} (hm : Preserves Unseen m) (hk : ∀ a, FailsUnseen (k a)) :
    FailsUnseen (m >>= k) := by
  intro s e t hs hr
  have hleft := hm s hs
  rw [leaves] at hleft
  rw [result_bind] at hr
  rcases hu : result m s with ⟨e' | a, u⟩
  · rw [hu] at hr hleft
    cases hr
    exact hleft
  · rw [hu] at hr hleft
    exact hk a u e t hleft hr

theorem last {m : SessionM α} {k : α → SessionM β} (hm : FailsUnseen m) (hk : ∀ a, Succeeds (k a)) :
    FailsUnseen (m >>= k) := by
  intro s e t hs hr
  rw [result_bind] at hr
  rcases hu : result m s with ⟨e' | a, u⟩
  · rw [hu] at hr
    cases hr
    exact hm s _ _ hs hu
  · rw [hu] at hr
    obtain ⟨b, v, hv⟩ := hk a u
    dsimp only at hr
    rw [hv] at hr
    cases hr

theorem get_bind {k : Session → SessionM α} (h : ∀ s, Unseen s → FailsUnseen (k s)) : FailsUnseen (get >>= k) := by
  intro s e t hs hr
  rw [result_bind, result_get] at hr
  exact h s hs s e t hs hr

theorem ite {p : Prop} [Decidable p] {m n : SessionM α} (hm : FailsUnseen m) (hn : FailsUnseen n) :
    FailsUnseen (if p then m else n) := by
  split
  · exact hm
  · exact hn

theorem refuse (r : Refusal) (k : β → SessionM α) : FailsUnseen (throw (.refused r) >>= k) :=
  of_preserves (.throw_bind _ _)

theorem phase : FailsUnseen (do return (← get).phase) := of_preserves OffDisplay.phase

theorem discard {m : SessionM α} (hm : FailsUnseen m) : FailsUnseen (discard m) := hm.last fun _ s => ⟨(), s, rfl⟩

theorem showBanner : FailsUnseen showBanner := by
  intro s e t hs hr
  have hphase := phase_showBanner s
  rw [hr] at hphase
  exact fun hvisible => hs (hphase.symm.trans hvisible)

theorem start : FailsUnseen start := by
  refine .bind .get fun s => .ite (refuse _ _) (.bind (preserves_unseen_enter (by decide)) fun _ => ?_)
  refine .bind (.lift _) fun c => .bind (.modify fun _ h => h) fun _ => .bind OffDisplay.shouldShow fun due => ?_
  refine .bind (preserves_unseen keeps_sight_identify).discard fun _ =>
    .ite (showBanner.last fun _ => succeeds_phase) ?_
  exact .bind (preserves_unseen_enter (by decide)) fun _ => phase

theorem showPreferences : FailsUnseen showPreferences := by
  have opens : Succeeds (do modify fun s => { s with preferencesOpen := true }; return (← MonadState.get).phase) :=
    fun s => ⟨s.phase, _, rfl⟩
  refine .bind .get fun s => .ite (refuse _ _) (.ite (showBanner.last fun _ => opens) ?_)
  exact .bind (.modify fun _ h => h) fun _ => phase

theorem handle (name : String) (categories : Json) : FailsUnseen (handle name categories) := by
  refine .get_bind fun s hs => ?_
  split
  · exact showPreferences
  · rw [if_pos (by simpa [Unseen] using hs)]
    exact refuse _ _

theorem tick : FailsUnseen tick := by
  refine .get_bind fun s hs => ?_
  split
  · rename_i hvisible
    exact absurd hvisible hs
  · refine .ite (.bind (.lift _) fun decided => .ite (.bind OffDisplay.shouldShow fun due => ?_) phase) phase
    exact .ite (showBanner.last fun _ => succeeds_phase) phase
  · exact phase

theorem perform (e : Event) : FailsUnseen (perform e) := by
  cases e with
  | start => exact start.discard
  | act name categories => exact (handle name categories).discard
  | icon => exact FailsUnseen.discard (.bind .get fun _ => .ite (refuse _ _) showPreferences)
  | tick => exact tick.discard
  | reset =>
    refine FailsUnseen.discard (.bind (.modify fun _ h => h) fun _ => ?_)
    exact .bind (preserves_unseen_enter (by decide)) fun _ => showBanner.last fun _ => succeeds_phase
  | _ => exact of_preserves (preserves_unseen (keeps_sight_perform rfl))

end FailsUnseen

/-- From a visible banner nothing fails but a decision, the clock of the policy that hides it, or a reset. -/
theorem result_handle_of_visible {name : String} (categories : Json) (hvisible : s.phase = .bannerVisible)
    (hname : decisionNamed name s = none) : ∃ p t, result (handle name categories) s = (.ok p, t) := by
  rw [decisionNamed, if_pos hvisible] at hname
  rw [handle, result_bind, result_get]
  dsimp only
  split
  · rw [showPreferences, result_bind, result_get]
    dsimp only
    rw [if_neg (by simp [hvisible]), if_neg (by simp [hvisible])]
    exact ⟨_, _, rfl⟩
  · rw [if_neg (by simp [hvisible])]
    unfold act
    split
    · rw [result_bind, result_bind, result_get]
      dsimp only
      cases s.preferencesOpen with
      | _ => exact ⟨_, _, rfl⟩
    · rename_i action _ haction
      rw [haction, Option.filter_some] at hname
      have hdecision : isDecision action = false := by simpa using hname
      rw [if_neg (by simp [hdecision])]
      exact ⟨_, _, rfl⟩
    · exact ⟨_, _, rfl⟩

theorem unseen_of_reset {e : Stop} (h : result reset s = (.error e, t)) : Unseen t := by
  have shows : FailsUnseen (do showBanner; return (← get).phase) := FailsUnseen.showBanner.last fun _ => succeeds_phase
  rw [reset, result_bind, result_modify] at h
  dsimp only at h
  rw [result_bind, result_enter] at h
  exact shows _ e t (by simp [Unseen]) h

/-- What fails under a visible banner takes it away or leaves it as it was shown. -/
theorem kept_of_fails {e : Event} {stop : Stop} (hvisible : s.phase = .bannerVisible)
    (hr : result (perform e) s = (.error stop, t)) :
    Unseen t ∨ (t.history = s.history ∧ t.shownAt = s.shownAt) := by
  have hafter : after e s = t := congrArg Prod.snd hr
  have aside (he : e.passesBy = true) : t.history = s.history ∧ t.shownAt = s.shownAt := by
    have hsight := congrArg Prod.snd ((keeps_sight_perform he).of_result hr)
    exact ⟨congrArg Prod.fst hsight, congrArg Prod.snd hsight⟩
  cases e with
  | start =>
    rw [after_start_of_started (by simp [hvisible])] at hafter
    rw [← hafter]
    exact .inr ⟨rfl, rfl⟩
  | act name categories =>
    cases hname : decisionNamed name s with
    | some action =>
      rw [result_perform_decision hname] at hr
      have hpassing := passing_of_applyDecision hr
      left
      intro h
      rw [h] at hpassing
      obtain h | h | h := hpassing
      · cases h
      · cases h
      · cases h
    | none =>
      obtain ⟨p, u, hok⟩ := result_handle_of_visible categories hvisible hname
      rw [perform, result_discard, hok] at hr
      cases hr
  | icon =>
    rw [after, perform, leaves_discard] at hafter
    rw [← hafter]
    obtain h | h := leaves_clickIcon_of_visible hvisible
    · rw [h]
      exact .inr ⟨rfl, rfl⟩
    · rw [h]
      exact .inr ⟨rfl, rfl⟩
  | tick =>
    rw [after, perform, leaves_discard] at hafter
    rw [← hafter]
    obtain h | ⟨-, h⟩ := leaves_tick_of_visible hvisible
    · rw [h]
      exact .inr ⟨rfl, rfl⟩
    · rw [h]
      exact .inl (by simp [Unseen])
  | reset =>
    rw [perform, result_discard] at hr
    rcases hreset : result reset s with ⟨e | p, u⟩
    · rw [hreset] at hr
      cases hr
      exact .inl (unseen_of_reset hreset)
    · rw [hreset] at hr
      cases hr
  | _ => exact .inr (aside rfl)

/-- The page goes on to know since when its banner is visible, whatever fails. -/
theorem Shown.after {shown : Option Number} (h : Shown shown s) (e : Event) :
    Shown ((shownBy e s).or shown) (Session.after e s) := by
  intro hvisible
  rcases hr : result (perform e) s with ⟨stop | u, t⟩
  · have hafter : Session.after e s = t := congrArg Prod.snd hr
    rw [hafter] at hvisible ⊢
    have hseen : s.phase = .bannerVisible := by
      by_contra hs
      exact FailsUnseen.perform e s stop t hs hr hvisible
    obtain hunseen | ⟨hhistory, hsince⟩ := kept_of_fails hseen hr
    · exact absurd hvisible hunseen
    · rw [shownBy, hafter, hhistory, List.drop_length, if_neg (by simp), Option.none_or, hsince]
      exact h hseen
  · have hafter : Session.after e s = t := congrArg Prod.snd hr
    obtain ⟨ps, hps, hface⟩ := (passes e s).passage u t hr
    have hhistory : t.history = s.history ++ ps :=
      (congrArg Face.history hface).trans (Face.history_enterAll _ _)
    have hphase : t.phase = ((face s).enterAll ps).phase := congrArg Face.phase hface
    have hsince : t.shownAt = ((face s).enterAll ps).shownAt := congrArg Face.shownAt hface
    rw [hafter] at hvisible ⊢
    rw [shownBy, hafter, hhistory, List.drop_left, hsince]
    obtain rfl | ⟨qs, rfl⟩ | ⟨qs, rfl⟩ := hps.ends
    · exact h (hphase.symm.trans hvisible)
    · rw [Face.enterAll_append, if_pos (by simp)]
      exact congrArg some (Face.now_enterAll _ _)
    · rw [Face.enterAll_append] at hphase
      have haway := hvisible.symm.trans hphase
      cases haway

theorem Shown.run {shown : Option Number} (h : Shown shown s) (events : List Event) :
    Shown ((lastShown events s).or shown) (Session.run events s) := by
  induction events generalizing s shown with
  | nil => exact h
  | cons e rest ih =>
    rw [lastShown, Option.or_assoc]
    exact ih (h.after e)

end Fails

theorem clocked_of_create {config : ClientConfig} {environment : Environment} {components : List Component}
    {browser : Browser} {server : Server} {s : Session}
    (hcreate : create config environment components browser server = .ok s)
    (hclock : ∃ ms, browser.now = .int ms) : Clocked s := by
  obtain ⟨reason, -, h⟩ := bind_eq_ok.1 hcreate
  cases h
  exact ⟨hclock, nofun⟩

/-- In every run, a hidden banner comes back only when the visitor asks for it, after a reset, or when enough time has
passed since the decision that is stored; and a visible one goes into hiding only by a decision that was carried out,
when it is closed itself, or when enough time has passed since it was last shown. -/
theorem run_visibility {config : ClientConfig} {environment : Environment} {components : List Component}
    {browser : Browser} {server : Server} {s : Session}
    (hcreate : create config environment components browser server = .ok s)
    (hclock : ∃ ms, browser.now = .int ms) (events : List Event) (e : Event) :
    ((run events s).phase = .hidden → (run (events ++ [e]) s).phase = .bannerVisible → Reopens e (run events s)) ∧
    ((run events s).phase = .bannerVisible → (run (events ++ [e]) s).phase = .hidden →
      Hides (lastShown events s) e (run events s)) := by
  have hbegins := begins_of_create hcreate
  have hshown : Shown (lastShown events s) (run events s) := by
    have hstart : Shown none s := by
      intro hvisible
      rw [hbegins.phase] at hvisible
      cases hvisible
    have hrun := hstart.run events
    rwa [Option.or_none] at hrun
  have hclocked : Clocked (run events s) := lasting_clocked.run events (clocked_of_create hcreate hclock)
  rw [run_append]
  exact ⟨reopens_of_after e hclocked, hides_of_after e hclocked hshown⟩

/-- A page that finds a decision of January 2038, asks again after a minute, and then for five seconds. -/
def rememberedSession : Session :=
  { plainSession with
    config := { plainSession.config with reshow := ⟨true, .int 60⟩, autoHide := ⟨true, .int 5⟩ }
    browser := {
      jar := { cookies := [(plainSession.store.cookieName, "\x7b\"lastUpdated\":\"2038-01-19T03:14:08.002Z\"\x7d")] }
      now := .int 2147483648002 } }

theorem create_rememberedSession :
    create rememberedSession.config {} [] rememberedSession.browser rememberedSession.server =
      .ok rememberedSession := rfl

/-- It asks again a millisecond before the minute is over, and counts the five seconds from then. -/
theorem run_visibility_minute :
    let waiting : List Event := [.start, .advance (.float (Double.ofDecimal false 59999 (-3)))]
    let asked : List Event := waiting ++ [.tick, .advance (.int 5)]
    (run waiting rememberedSession).browser.now = .int 2147483708001 ∧ Reopens .tick (run waiting rememberedSession) ∧
      Hides (some (.int 2147483708001)) .tick (run asked rememberedSession) := by
  intro waiting asked
  -- One evaluation of the whole run, so that its steps are computed once.
  obtain ⟨hnow, hhidden, hback, hvisible, haway, hshown⟩ :
      (run waiting rememberedSession).browser.now = .int 2147483708001 ∧
        (run waiting rememberedSession).phase = .hidden ∧
        (run (waiting ++ [.tick]) rememberedSession).phase = .bannerVisible ∧
        (run asked rememberedSession).phase = .bannerVisible ∧
        (run (asked ++ [.tick]) rememberedSession).phase = .hidden ∧
        lastShown asked rememberedSession = some (.int 2147483708001) := by decide +kernel
  refine ⟨hnow, (run_visibility create_rememberedSession ⟨_, rfl⟩ waiting .tick).1 hhidden hback, ?_⟩
  rw [← hshown]
  exact (run_visibility create_rememberedSession ⟨_, rfl⟩ asked .tick).2 hvisible haway

end Session

end ConsentBanner
