import ConsentBanner.Proofs.Outcome
import ConsentBanner.Proofs.Session.Effect

/-!
What each step does to the consent, to the reports and to the browser.
-/

namespace ConsentBanner

theorem ConsentStore.now_save {store : ConsentStore} {c : Consent} {b saved : Browser}
    (h : store.save c b = .ok saved) : saved.now = b.now := by
  obtain ⟨cookie, -, h⟩ := bind_eq_ok.1 h
  cases h
  rfl

theorem Visitor.now_identify {b b' : Browser} {id : String} (h : identify b = .ok (id, b')) : b'.now = b.now := by
  obtain ⟨cookie, -, h⟩ := bind_eq_ok.1 h
  cases h
  rfl

namespace Session

/-- The browser as it was, or with the visitor's identifier written once more. -/
def Identified (b b' : Browser) : Prop := b' = b ∨ ∃ id, Visitor.identify b = .ok (id, b')

/-- The consent that a decision comes to. -/
def decisionOf (action : ActionKind) (categories : Json) (s : Session) : Except Fault Consent := do
  let now ← Moment.ofMillis s.browser.now
  let decided ← consentOf action categories now
  match s.consent.bind (·.created) with
  | some created => return { decided with created := some created }
  | none => return decided

theorem decisionOf_congr {s t : Session} (h : core s = core t) (action : ActionKind) (categories : Json) :
    decisionOf action categories s = decisionOf action categories t := by
  simp only [core, Core.mk.injEq] at h
  simp only [decisionOf, h]

theorem result_enter (phase : Phase) (s : Session) : result (enter phase) s = (.ok (), inPhase phase s) := rfl

theorem result_lift {α : Type} (x : Except Fault α) (s : Session) :
    result (SessionM.lift x) s = (x.mapError .fault, s) := by
  cases x with
  | ok a => rfl
  | error f => rfl

theorem result_decide (action : ActionKind) (categories : Json) (s : Session) :
    result (decide action categories) s = ((decisionOf action categories s).mapError .fault, s) := by
  rw [decide, result_bind, result_get]
  simp only [result_bind, result_lift, decisionOf]
  cases Moment.ofMillis s.browser.now with
  | error f => rfl
  | ok now =>
    simp only [mapError_ok, bind, Except.bind]
    cases consentOf action categories now with
    | error f => rfl
    | ok decided =>
      cases s.consent.bind (·.created) with
      | some created => rfl
      | none => rfl

theorem result_persist (c : Consent) (s : Session) :
    result (persist c) s =
      match s.store.save c s.browser with
      | .ok b => (.ok (), { s with browser := b })
      | .error f => (.error (.fault f), s) := by
  rw [persist, result_bind, result_get]
  simp only [result_bind, result_lift]
  cases s.store.save c s.browser with
  | ok b => rfl
  | error f => rfl

theorem result_identify (s : Session) :
    result identify s =
      match Visitor.identify s.browser with
      | .ok (id, b) => (.ok id, { s with browser := b })
      | .error f => (.error (.fault f), s) := by
  rw [identify, result_bind, result_get]
  simp only [result_bind, result_lift]
  rcases Visitor.identify s.browser with f | ⟨id, b⟩
  · rfl
  · rfl

theorem leaves_advance (seconds : Json) (s : Session) :
    leaves (advance seconds) s =
      match s.browser.advance seconds with
      | .ok b => { s with browser := b }
      | .error _ => s := by
  rw [advance, leaves_bind, result_get]
  dsimp only
  rw [leaves_bind, result_lift]
  cases s.browser.advance seconds with
  | ok b => rfl
  | error f => rfl

/-- A step that writes the identifier at most. -/
def Identifies {α : Type} (m : SessionM α) : Prop :=
  ∀ s, ∃ b, core (leaves m s) = { core s with browser := b } ∧ Identified s.browser b

namespace Identifies

variable {α β : Type}

theorem bind_keeps {m : SessionM α} {k : α → SessionM β} (hm : Identifies m) (hk : ∀ a, Keeps core (k a)) :
    Identifies (m >>= k) := by
  intro s
  obtain ⟨b, hb, hid⟩ := hm s
  rw [leaves] at hb
  refine ⟨b, ?_, hid⟩
  rw [leaves_bind]
  rcases hr : result m s with ⟨e | a, t⟩
  · rw [hr] at hb
    exact hb
  · rw [hr] at hb
    exact ((hk a).eq t).trans hb

theorem discard {m : SessionM α} (hm : Identifies m) : Identifies (discard m) := by
  intro s
  rw [leaves_discard]
  exact hm s

theorem keeps_bind {m : SessionM α} {k : α → SessionM β} (hm : Keeps core m) (hk : ∀ a, Identifies (k a)) :
    Identifies (m >>= k) := by
  intro s
  have h := hm.eq s
  rw [leaves] at h
  rw [leaves_bind]
  rcases hr : result m s with ⟨e | a, t⟩
  · rw [hr] at h
    exact ⟨s.browser, h, .inl rfl⟩
  · rw [hr] at h
    obtain ⟨b, hb, hid⟩ := hk a t
    have ht : t.browser = s.browser := congrArg Core.browser h
    rw [ht] at hid
    exact ⟨b, by rw [hb, h], hid⟩

end Identifies

theorem identifies_identify : Identifies identify := by
  intro s
  rw [leaves, result_identify]
  cases h : Visitor.identify s.browser with
  | error f => exact ⟨s.browser, rfl, .inl rfl⟩
  | ok found => exact ⟨found.2, rfl, .inr ⟨found.1, h⟩⟩

theorem result_adopt (c : Consent) (s : Session) :
    ∃ t, result (adopt c) s = (.ok (), t) ∧ core t = { core s with consent := some c } := by
  rw [adopt, result_bind, result_modify]
  simp only [result_bind, result_get]
  split
  · exact ⟨_, rfl, rfl⟩
  · exact ⟨_, rfl, rfl⟩

theorem identifies_reportOf (action : ActionKind) (c : Consent) : Identifies (reportOf action c) := by
  refine .keeps_bind (fun _ => .get) fun s => .keeps_bind (fun _ => .lift _) fun time => ?_
  refine .bind_keeps identifies_identify fun id k => ?_
  exact .bind OffDisplay.reportMetadata fun m => .bind (.checked _) fun i => .pure _

theorem reportOf_eq_ok {action : ActionKind} {c : Consent} {s t : Session} {r : Report}
    (h : result (reportOf action c) s = (.ok r, t)) : ∃ id i m, r = Report.ofConsent id c i m := by
  obtain ⟨_, _, _, h⟩ := result_bind_eq_ok.1 h
  obtain ⟨_, _, _, h⟩ := result_bind_eq_ok.1 h
  obtain ⟨id, _, _, h⟩ := result_bind_eq_ok.1 h
  obtain ⟨m, _, _, h⟩ := result_bind_eq_ok.1 h
  obtain ⟨i, _, _, h⟩ := result_bind_eq_ok.1 h
  cases h
  exact ⟨id, i, some m, rfl⟩

theorem core_applyDecision_error {action : ActionKind} {categories : Json} {s : Session} {f : Fault}
    (h : decisionOf action categories s = .error f) :
    core (leaves (applyDecision action categories) s) = core s := by
  rw [← decisionOf_congr (core_inPhase .applyConsent s)] at h
  rw [applyDecision, leaves_bind, result_enter]
  dsimp only
  rw [leaves_bind, result_decide, h]
  exact core_inPhase .applyConsent s

/-- The browser after a consent was to be written there: as it was when that failed. -/
def Written (c : Consent) (s : Session) (b : Browser) : Prop :=
  match s.store.save c s.browser with
  | .ok saved => Identified saved b
  | .error _ => b = s.browser

/-- A report that is about a consent, however that came about. -/
def IsAbout (c : Consent) (r : Report) : Prop := ∃ id i m, r = Report.ofConsent id c i m

theorem core_sendOff (action : ActionKind) (c : Consent) (s : Session) :
    ∃ (own : Option Report) (b : Browser),
      core (leaves (do enter .reportToServer; enqueue (← reportOf action c); enter .hidden) s) =
        { core s with pending := s.pending ++ own.toList, browser := b } ∧
      (∀ r ∈ own, IsAbout c r) ∧ Identified s.browser b := by
  obtain ⟨b, hb, hid⟩ := identifies_reportOf action c (inPhase .reportToServer s)
  rw [leaves] at hb
  rw [core_inPhase] at hb
  rw [leaves_bind, result_enter]
  dsimp only
  rw [leaves_bind]
  rcases hr : result (reportOf action c) (inPhase .reportToServer s) with ⟨e | r, t⟩
  · rw [hr] at hb
    refine ⟨none, b, ?_, ?_, hid⟩
    · simpa [core] using hb
    · intro r h
      cases h
  · rw [hr] at hb
    refine ⟨some r, b, ?_, ?_, hid⟩
    · have ht : t.pending = s.pending := congrArg Core.pending hb
      calc core (leaves (do enqueue r; enter .hidden) t)
          = { core t with pending := t.pending ++ [r] } := core_inPhase .hidden _
        _ = { core s with pending := s.pending ++ [r], browser := b } := by rw [hb, ht]
    · intro r' h
      cases h
      exact reportOf_eq_ok hr

/-- A decision becomes the consent, is written, and is reported unless something stops that. -/
theorem core_applyDecision {action : ActionKind} {categories : Json} {s : Session} {c : Consent}
    (h : decisionOf action categories s = .ok c) :
    ∃ (own : Option Report) (b : Browser), core (leaves (applyDecision action categories) s) =
        { core s with consent := some c, pending := s.pending ++ own.toList, browser := b } ∧
      (∀ r ∈ own, IsAbout c r) ∧ Written c s b := by
  rw [← decisionOf_congr (core_inPhase .applyConsent s)] at h
  obtain ⟨t, hadopt, ht⟩ := result_adopt c (inPhase .applyConsent s)
  have ht' : core (inPhase .persistCookie t) = { core s with consent := some c } := by
    rw [core_inPhase, ht, core_inPhase]
  rw [applyDecision, leaves_bind, result_enter]
  dsimp only
  rw [leaves_bind, result_decide, h]
  dsimp only [mapError_ok]
  rw [leaves_bind, hadopt]
  dsimp only
  rw [leaves_bind, result_enter]
  dsimp only
  have hstore : (inPhase .persistCookie t).store = s.store := by
    have hconfig : (inPhase .persistCookie t).config = s.config := congrArg Core.config ht'
    rw [store, hconfig, store]
  have hbrowser : (inPhase .persistCookie t).browser = s.browser := congrArg Core.browser ht'
  rw [leaves_bind, result_persist, hstore, hbrowser]
  unfold Written
  cases hsave : s.store.save c s.browser with
  | error f =>
    refine ⟨none, s.browser, ?_, ?_, rfl⟩
    · simpa [core] using ht'
    · intro r h
      cases h
  | ok saved =>
    obtain ⟨own, b, hb, hown, hid⟩ :=
      core_sendOff action c { inPhase .persistCookie t with browser := saved }
    have hcore : core { inPhase .persistCookie t with browser := saved } =
        { core s with consent := some c, browser := saved } :=
      congrArg (fun k : Core => { k with browser := saved }) ht'
    have hpending : (inPhase .persistCookie t).pending = s.pending := congrArg Core.pending ht'
    rw [hcore, hpending] at hb
    exact ⟨own, b, hb, hown, hid⟩

/-- The decision that an action of this name is, which only a visible banner takes. -/
def decisionNamed (name : String) (s : Session) : Option ActionKind :=
  if s.phase = .bannerVisible then (Named.ofName? name : Option ActionKind).filter isDecision else none

theorem leaves_bind_keeps {α β γ : Type} (part : Session → γ) {m : SessionM α} {k : α → SessionM β}
    (hk : ∀ a, Keeps part (k a)) (s : Session) : part (leaves (m >>= k) s) = part (leaves m s) := by
  rw [leaves_bind, leaves]
  rcases result m s with ⟨e | a, t⟩
  · rfl
  · exact (hk a).eq t

theorem core_act (action : Option ActionKind) (categories : Json) (s : Session) :
    core (leaves (act action categories) s) =
      match action.filter isDecision with
      | some action => core (leaves (applyDecision action categories) s)
      | none => core s := by
  cases action with
  | none => rfl
  | some action =>
    cases action with
    | close =>
      have closed : Keeps core (act (some .close) categories) := fun k =>
        .bind .get fun _ => .ite (.modify fun _ h => h) ((offDisplay_core k).enter (by decide))
      exact closed.eq s
    | _ => rfl

theorem core_handle (name : String) (categories : Json) (s : Session) :
    core (leaves (handle name categories) s) =
      match decisionNamed name s with
      | some action => core (leaves (applyDecision action categories) s)
      | none => core s := by
  rw [handle, leaves_bind, result_get]
  dsimp only
  unfold decisionNamed
  split
  · rename_i hn
    have hnone : (some ActionKind.showPreferences).filter isDecision = none := rfl
    rw [hn, (keeps_core OffDisplay.showPreferences).eq s, hnone, ite_self]
  · by_cases hp : s.phase = .bannerVisible
    · rw [if_neg (by simp [hp]), if_pos hp, leaves_bind_keeps core fun _ _ => OffDisplay.phase, core_act]
    · rw [if_pos (by simpa using hp), if_neg hp]
      rfl

theorem core_start_of_started {s : Session} (h : s.phase ≠ .init) : core (leaves start s) = core s := by
  rw [start, leaves_bind, result_get]
  dsimp only
  rw [if_pos (by simpa using h)]
  rfl

theorem core_start_error {s : Session} {f : Fault} (h : s.phase = .init)
    (hload : s.store.load s.browser = .error f) : core (leaves start s) = core s := by
  rw [start, leaves_bind, result_get]
  dsimp only
  rw [if_neg (by simp [h]), leaves_bind, result_enter]
  dsimp only
  rw [leaves_bind, result_lift, hload]
  exact core_inPhase .evaluateConsent s

theorem core_start {s : Session} {c : Option Consent} (h : s.phase = .init)
    (hload : s.store.load s.browser = .ok c) :
    ∃ b, core (leaves start s) = { core s with consent := c, browser := b } ∧ Identified s.browser b := by
  rw [start, leaves_bind, result_get]
  dsimp only
  rw [if_neg (by simp [h]), leaves_bind, result_enter]
  dsimp only
  rw [leaves_bind, result_lift, hload]
  dsimp only [mapError_ok]
  rw [leaves_bind, result_modify]
  dsimp only
  have rest : Identifies (do
      let due ← shouldShow
      Functor.discard identify
      if due then showBanner else enter .hidden
      return (← get).phase) := by
    refine .keeps_bind (fun _ => OffDisplay.shouldShow) fun due => ?_
    refine .bind_keeps (.discard identifies_identify) fun _ k => ?_
    have h := offDisplay_core k
    refine .ite (.bind h.showBanner fun _ => OffDisplay.phase) ?_
    exact .bind (h.enter (by decide)) fun _ => OffDisplay.phase
  obtain ⟨b, hb, hid⟩ := rest { inPhase .evaluateConsent s with consent := c }
  refine ⟨b, ?_, hid⟩
  exact hb

theorem core_reset (s : Session) :
    core (leaves reset s) = { core s with consent := none, browser := s.store.clear s.browser } := by
  have rest : Keeps core (do enter .evaluateConsent; showBanner; return (← get).phase) := fun k =>
    have h := offDisplay_core k
    .bind (h.enter (by decide)) fun _ => .bind h.showBanner fun _ => OffDisplay.phase
  exact rest.eq { s with browser := s.store.clear s.browser, consent := none }

/-- A consent with the text that an answer gave for it, if it gave any. -/
def stamped (tcString : Option Json) (c : Consent) : Consent := { c with tcString := tcString.getD c.tcString }

theorem result_storeTcString_some {s : Session} {c : Consent} (h : s.consent = some c) (t : Json) :
    result (storeTcString (some t)) s =
      result (persist (stamped (some t) c)) { s with consent := some (stamped (some t) c) } := by
  rw [storeTcString, result_bind, result_get]
  dsimp only
  rw [h]
  rfl

theorem result_storeTcString_none {s : Session} {t : Option Json} (h : t = none ∨ s.consent = none) :
    result (storeTcString t) s = (.ok (), s) := by
  rw [storeTcString, result_bind, result_get]
  dsimp only
  obtain h | h := h
  · rw [h]
    rfl
  · rw [h]
    cases t with
    | none => rfl
    | some t => rfl

theorem core_persist (c : Consent) (s : Session) :
    ∃ b, core (leaves (persist c) s) = { core s with browser := b } := by
  rw [leaves, result_persist]
  cases s.store.save c s.browser with
  | ok b => exact ⟨b, rfl⟩
  | error f => exact ⟨s.browser, rfl⟩

theorem core_storeTcString (t : Option Json) (s : Session) :
    ∃ b, core (leaves (storeTcString t) s) =
      { core s with consent := s.consent.map (stamped t), browser := b } := by
  cases t with
  | none =>
    rw [leaves, result_storeTcString_none (.inl rfl)]
    refine ⟨s.browser, ?_⟩
    cases h : s.consent with
    | none => simp [core, h]
    | some c => simp [core, h, stamped]
  | some t =>
    cases h : s.consent with
    | none =>
      rw [leaves, result_storeTcString_none (.inr h)]
      exact ⟨s.browser, by simp [core, h]⟩
    | some c =>
      rw [leaves, result_storeTcString_some h]
      exact core_persist _ _

end Session

end ConsentBanner
