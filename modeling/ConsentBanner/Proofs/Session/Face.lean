import ConsentBanner.Proofs.Session.Event

/-!
What the visitor sees of a session, and the phases that each step leads it through.
-/

namespace ConsentBanner

namespace Session

variable {α β : Type}

/-- What the visitor sees of a session, how it came to that, and since when the banner is shown. -/
structure Face where
  phase : Phase
  history : List Phase
  display : String
  iconVisible : Bool
  shownAt : Option Number
  iconEnabled : Bool
  now : Number

def face (s : Session) : Face where
  phase := s.phase
  history := s.history
  display := s.api.display
  iconVisible := s.iconVisible
  shownAt := s.shownAt
  iconEnabled := s.config.floatingIcon.enabled
  now := s.browser.now

namespace Face

/-- The face in its next phase. A banner that becomes visible is shown from now on. -/
def enter (f : Face) (phase : Phase) : Face :=
  let f := { f with phase := phase, history := f.history ++ [phase] }
  match phase with
  | .bannerVisible => { f with display := "visible", iconVisible := false, shownAt := some f.now }
  | .hidden => { f with display := "hidden", iconVisible := f.iconEnabled }
  | _ => f

def enterAll (f : Face) (phases : List Phase) : Face := phases.foldl enter f

theorem enterAll_append (f : Face) (ps qs : List Phase) : f.enterAll (ps ++ qs) = (f.enterAll ps).enterAll qs :=
  List.foldl_append

@[simp] theorem history_enter (f : Face) (p : Phase) : (f.enter p).history = f.history ++ [p] := by
  cases p with
  | _ => rfl

@[simp] theorem iconEnabled_enter (f : Face) (p : Phase) : (f.enter p).iconEnabled = f.iconEnabled := by
  cases p with
  | _ => rfl

@[simp] theorem now_enter (f : Face) (p : Phase) : (f.enter p).now = f.now := by
  cases p with
  | _ => rfl

theorem history_enterAll (f : Face) (ps : List Phase) : (f.enterAll ps).history = f.history ++ ps := by
  induction ps generalizing f with
  | nil => exact (List.append_nil _).symm
  | cons p rest ih => rw [enterAll, List.foldl_cons, ← enterAll, ih, history_enter, List.append_assoc,
      List.singleton_append]

theorem iconEnabled_enterAll (f : Face) (ps : List Phase) : (f.enterAll ps).iconEnabled = f.iconEnabled := by
  induction ps generalizing f with
  | nil => rfl
  | cons p rest ih => exact (ih (f.enter p)).trans (iconEnabled_enter f p)

theorem now_enterAll (f : Face) (ps : List Phase) : (f.enterAll ps).now = f.now := by
  induction ps generalizing f with
  | nil => rfl
  | cons p rest ih => exact (ih (f.enter p)).trans (now_enter f p)

end Face

theorem face_inPhase {phase : Phase} (h : phase ≠ .bannerVisible) (s : Session) :
    face (inPhase phase s) = (face s).enter phase := by
  cases phase with
  | bannerVisible => exact absurd rfl h
  | _ => rfl

/-- A step that no phase refuses. -/
def Accepted (m : SessionM α) : Prop := ∀ s r, (result m s).1 ≠ .error (.refused r)

theorem Accepted.bind {m : SessionM α} {k : α → SessionM β} (hm : Accepted m) (hk : ∀ a, Accepted (k a)) :
    Accepted (m >>= k) := by
  intro s r h
  have haccepted := hm s r
  rw [result_bind] at h
  rcases hr : result m s with ⟨e | a, t⟩
  · rw [hr] at h haccepted
    cases h
    exact haccepted rfl
  · rw [hr] at h
    exact hk a t r h

theorem Accepted.modify (f : Session → Session) : Accepted (modify f) := by
  intro s r h
  rw [result_modify] at h
  cases h

/-- A step that is never refused and, when it comes to its end, has led the session through phases like these. -/
structure Leads (phases : List Phase → Prop) (m : SessionM α) : Prop where
  accepted : Accepted m
  through : ∀ s a t, result m s = (.ok a, t) → ∃ ps, phases ps ∧ face t = (face s).enterAll ps

/-- A step that is never refused and leaves the face of the session as it is. -/
abbrev Still (m : SessionM α) : Prop := Leads (· = []) m

namespace Leads

variable {P Q : List Phase → Prop}

theorem bind {ps : List Phase} {m : SessionM α} {k : α → SessionM β} (hm : Leads (· = ps) m)
    (hk : ∀ a, Leads (fun qs => P (ps ++ qs)) (k a)) : Leads P (m >>= k) where
  accepted := hm.accepted.bind fun a => (hk a).accepted
  through s b t h := by
    obtain ⟨a, u, hu, h⟩ := result_bind_eq_ok.1 h
    obtain ⟨_, rfl, hface⟩ := hm.through s a u hu
    obtain ⟨qs, hqs, ht⟩ := (hk a).through u b t h
    exact ⟨_, hqs, by rw [ht, hface, Face.enterAll_append]⟩

theorem of_eq {ps : List Phase} {m : SessionM α} (h : Leads (· = ps) m) (hP : P ps) : Leads P m where
  accepted := h.accepted
  through s a t hr := by
    obtain ⟨_, rfl, ht⟩ := h.through s a t hr
    exact ⟨_, hP, ht⟩

theorem last {m : SessionM α} {k : α → SessionM β} (hm : Leads P m) (hk : ∀ a, Still (k a)) :
    Leads P (m >>= k) where
  accepted := hm.accepted.bind fun a => (hk a).accepted
  through s b t h := by
    obtain ⟨a, u, hu, h⟩ := result_bind_eq_ok.1 h
    obtain ⟨ps, hps, hface⟩ := hm.through s a u hu
    obtain ⟨_, rfl, ht⟩ := (hk a).through u b t h
    exact ⟨ps, hps, ht.trans hface⟩

theorem ite {p : Prop} [Decidable p] {m n : SessionM α} (hm : Leads P m) (hn : Leads P n) :
    Leads P (if p then m else n) := by
  split
  · exact hm
  · exact hn

theorem of_ok {ps : List Phase} {m : SessionM α} (value : Session → α) (next : Session → Session)
    (h : ∀ s, result m s = (.ok (value s), next s)) (hface : ∀ s, face (next s) = (face s).enterAll ps) :
    Leads (· = ps) m where
  accepted s r hr := by
    rw [h] at hr
    cases hr
  through s a t hr := by
    rw [h] at hr
    cases hr
    exact ⟨ps, rfl, hface s⟩

theorem of_stop {m : SessionM α} {e : Stop} (h : ∀ s, result m s = (.error e, s)) (he : ∀ r, e ≠ .refused r) :
    Leads P m where
  accepted s r hr := by
    rw [h] at hr
    exact he r (Except.error.inj hr)
  through s a t hr := by
    rw [h] at hr
    cases hr

theorem pure (a : α) : Still (pure a : SessionM α) := .of_ok (fun _ => a) id (fun _ => rfl) fun _ => rfl

theorem get : Still (get : SessionM Session) := .of_ok id id (fun _ => rfl) fun _ => rfl

theorem modify {f : Session → Session} (h : ∀ s, face (f s) = face s) : Still (modify f) :=
  .of_ok (fun _ => ()) f (fun _ => rfl) h

theorem enter {phase : Phase} (h : phase ≠ .bannerVisible) : Leads (· = [phase]) (enter phase) :=
  .of_ok (fun _ => ()) (inPhase phase) (fun _ => rfl) (face_inPhase h)

theorem fault (f : Fault) : Leads P (throw (.fault f) : SessionM α) := .of_stop (fun _ => rfl) nofun

theorem lift (x : Except Fault α) : Still (SessionM.lift x) := by
  cases x with
  | ok a => exact pure a
  | error f => exact fault f

theorem checked (x : Checked α) : Still (SessionM.checked x) := by
  cases x with
  | valid a => exact pure a
  | invalid issues => exact .of_stop (e := .invalid issues) (fun _ => rfl) nofun
  | fault f => exact fault f

theorem discard {m : SessionM α} (hm : Leads P m) : Leads P (discard m) := hm.last fun _ => pure _

theorem device : Still device := .bind get fun _ => lift _

theorem resize (width : Json) : Still (resize width) := by
  refine .bind (modify fun _ => rfl) fun _ => .bind device fun d => ?_
  exact .bind (modify fun _ => rfl) fun _ => .bind get fun _ => pure _

theorem showBanner : Leads (· = [.bannerVisible]) showBanner where
  accepted := by
    refine (Accepted.modify _).bind fun _ => get.accepted.bind fun s => ?_
    refine (resize _).discard.accepted.bind fun _ => Accepted.modify _
  through s a t h := by
    rw [Session.showBanner, result_bind, result_modify] at h
    dsimp only at h
    obtain ⟨_, v, hv, h⟩ := result_bind_eq_ok.1 h
    cases hv
    obtain ⟨_, w, hw, h⟩ := result_bind_eq_ok.1 h
    obtain ⟨_, rfl, hplaced⟩ := (resize _).discard.through _ _ _ hw
    rw [result_enter] at h
    obtain ⟨-, rfl⟩ := Prod.mk.inj h
    refine ⟨_, rfl, ?_⟩
    -- The time is noted before the components are placed, which leaves it as it is.
    have hshown : face (inPhase .bannerVisible w) =
        { (face w).enter .bannerVisible with shownAt := (face w).shownAt } := rfl
    rw [hshown, hplaced]
    rfl

theorem shouldShow : Still shouldShow := by
  refine .bind get fun s => .bind (lift _) fun stored => ?_
  split
  · exact pure _
  · exact lift _

theorem identify : Still identify where
  accepted := get.accepted.bind fun s => (lift _).accepted.bind fun found =>
    (Accepted.modify _).bind fun _ => (pure _).accepted
  through s a t h := by
    rw [result_identify] at h
    split at h
    · rename_i id b hid
      obtain ⟨-, rfl⟩ := Prod.mk.inj h
      exact ⟨[], rfl, by rw [face, Visitor.now_identify hid]; rfl⟩
    · cases h

theorem decide (action : ActionKind) (categories : Json) : Still (decide action categories) := by
  refine .bind get fun s => .bind (lift _) fun now => .bind (lift _) fun decided => ?_
  split
  · exact pure _
  · exact pure _

theorem adopt (c : Consent) : Still (adopt c) :=
  .bind (modify fun _ => rfl) fun _ => .bind get fun _ => .ite (modify fun _ => rfl) (pure _)

theorem persist (c : Consent) : Still (persist c) where
  accepted := get.accepted.bind fun s => (lift _).accepted.bind fun saved => .modify _
  through s a t h := by
    rw [result_persist] at h
    split at h
    · rename_i saved hsave
      obtain ⟨-, rfl⟩ := Prod.mk.inj h
      exact ⟨[], rfl, by rw [face, ConsentStore.now_save hsave]; rfl⟩
    · cases h

theorem reportOf (action : ActionKind) (c : Consent) : Still (reportOf action c) := by
  refine .bind get fun s => .bind (lift _) fun time => .bind identify fun id => ?_
  have metadata : Still reportMetadata :=
    .bind get fun _ => .bind (lift _) fun _ => .bind device fun _ => checked _
  exact .bind metadata fun m => .bind (checked _) fun i => pure _

theorem applyDecision (action : ActionKind) (categories : Json) :
    Leads (· = [.applyConsent, .persistCookie, .reportToServer, .hidden]) (applyDecision action categories) := by
  refine .bind (enter (by decide)) fun _ => .bind (decide action categories) fun c => .bind (adopt c) fun _ => ?_
  refine .bind (enter (by decide)) fun _ => .bind (persist c) fun _ => .bind (enter (by decide)) fun _ => ?_
  refine .bind (reportOf action c) fun r => .bind (modify fun _ => rfl) fun _ => ?_
  exact .of_eq (enter (by decide)) rfl

theorem storeTcString (t : Option Json) : Still (storeTcString t) := by
  refine .bind get fun s => ?_
  split
  · exact .bind (modify fun _ => rfl) fun _ => persist _
  · exact pure _

theorem sendAll (rs : List Report) : Still (sendAll rs) := by
  induction rs with
  | nil => exact pure _
  | cons r rest ih =>
    exact .bind get fun s => .bind (modify fun _ => rfl) fun _ => .bind (storeTcString _) fun _ => ih

theorem flush : Still flush := .bind get fun _ => .bind (sendAll _) fun _ => pure _

theorem phase : Still (do return (← MonadState.get).phase) := .bind get fun _ => pure _

end Leads

end Session

end ConsentBanner
