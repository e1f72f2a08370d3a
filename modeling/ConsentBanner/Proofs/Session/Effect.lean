import ConsentBanner.Session.Step

/-!
What the steps of a session leave as it was.
-/

namespace ConsentBanner.Session

variable {α β γ : Type}

/-- How a step ends and the session it leaves behind. -/
def result (m : SessionM α) (s : Session) : Except Stop α × Session := m.run.run s

def leaves (m : SessionM α) (s : Session) : Session := (result m s).2

@[simp] theorem result_get (s : Session) : result get s = (.ok s, s) := rfl

@[simp] theorem result_modify (f : Session → Session) (s : Session) : result (modify f) s = (.ok (), f s) := rfl

theorem result_bind (m : SessionM α) (k : α → SessionM β) (s : Session) :
    result (m >>= k) s =
      match result m s with
      | (.ok a, t) => result (k a) t
      | (.error e, t) => (.error e, t) := by
  change (m.run >>= ExceptT.bindCont k : StateM Session (Except Stop β)) s = _
  rcases h : result m s with ⟨r, t⟩
  change (match m.run.run s with | (r, t) => ExceptT.bindCont k r t) = _
  change m.run.run s = (r, t) at h
  rw [h]
  cases r with
  | ok a => rfl
  | error e => rfl

theorem result_bind_eq_ok {m : SessionM α} {k : α → SessionM β} {s u : Session} {b : β} :
    result (m >>= k) s = (.ok b, u) ↔ ∃ a t, result m s = (.ok a, t) ∧ result (k a) t = (.ok b, u) := by
  rw [result_bind]
  rcases result m s with ⟨e | a, t⟩
  · simp
  · constructor
    · intro h
      exact ⟨a, t, rfl, h⟩
    · intro h
      obtain ⟨_, _, ⟨⟩, h⟩ := h
      exact h

theorem leaves_bind (m : SessionM α) (k : α → SessionM β) (s : Session) :
    leaves (m >>= k) s =
      match result m s with
      | (.ok a, t) => leaves (k a) t
      | (.error _, t) => t := by
  rw [leaves, result_bind]
  rcases result m s with ⟨e | a, t⟩
  · rfl
  · rfl

@[simp] theorem leaves_discard (m : SessionM α) (s : Session) : leaves (discard m) s = leaves m s := by
  change leaves (m >>= fun _ => pure ()) s = _
  rw [leaves_bind, leaves]
  rcases result m s with ⟨e | a, t⟩
  · rfl
  · rfl

/-- A step that keeps a property of the session, however it ends. -/
def Preserves (P : Session → Prop) (m : SessionM α) : Prop := ∀ s, P s → P (leaves m s)

/-- A step after which some part of the session reads as before, however it ends. -/
def Keeps (part : Session → γ) (m : SessionM α) : Prop := ∀ k, Preserves (part · = k) m

theorem Keeps.eq {part : Session → γ} {m : SessionM α} (h : Keeps part m) (s : Session) :
    part (leaves m s) = part s := h _ s rfl

theorem Keeps.of_result {part : Session → γ} {m : SessionM α} (h : Keeps part m) {s t : Session} {r : Except Stop α}
    (hr : result m s = (r, t)) : part t = part s := by
  have hpart := h.eq s
  rwa [leaves, hr] at hpart

namespace Preserves

variable {P : Session → Prop}

theorem pure (a : α) : Preserves P (pure a : SessionM α) := fun _ h => h

theorem throw (e : Stop) : Preserves P (throw e : SessionM α) := fun _ h => h

theorem get : Preserves P (get : SessionM Session) := fun _ h => h

theorem modify {f : Session → Session} (h : ∀ s, P s → P (f s)) : Preserves P (modify f) := h

theorem lift (x : Except Fault α) : Preserves P (SessionM.lift x) := by
  cases x with
  | ok a => exact pure a
  | error f => exact throw (.fault f)

theorem checked (x : Checked α) : Preserves P (SessionM.checked x) := by
  cases x with
  | valid a => exact pure a
  | invalid issues => exact throw (.invalid issues)
  | fault f => exact throw (.fault f)

theorem bind {m : SessionM α} {k : α → SessionM β} (hm : Preserves P m) (hk : ∀ a, Preserves P (k a)) :
    Preserves P (m >>= k) := by
  intro s hs
  have h := hm s hs
  rw [leaves] at h
  rw [leaves_bind]
  rcases hr : result m s with ⟨e | a, t⟩
  · rw [hr] at h
    exact h
  · rw [hr] at h
    exact hk a t h

theorem throw_bind (e : Stop) (k : α → SessionM β) : Preserves P (MonadExcept.throw e >>= k) := fun _ h => h

theorem discard {m : SessionM α} (hm : Preserves P m) : Preserves P (discard m) := by
  intro s hs
  rw [leaves_discard]
  exact hm s hs

theorem ite {p : Prop} [Decidable p] {m n : SessionM α} (hm : Preserves P m) (hn : Preserves P n) :
    Preserves P (if p then m else n) := by
  split
  · exact hm
  · exact hn

end Preserves

/-- A property of a session that what the visitor sees of it has no part in. -/
structure OffDisplay (P : Session → Prop) : Prop where
  inPhase {s : Session} (phase : Phase) (hphase : phase ≠ .init) (h : P s) : P (inPhase phase s)
  resized {s : Session} (width : Json) (placements : List (String × Placement)) (h : P s) :
    P { s with environment := { s.environment with viewportWidth := width }, placements := placements }
  shown {s : Session} (h : P s) : P { s with shownAt := some s.browser.now, preferencesOpen := false }
  opened {s : Session} (preferencesOpen : Bool) (h : P s) : P { s with preferencesOpen := preferencesOpen }
  told {s : Session} (api : Signal.Api) (events : List Signal.Event) (h : P s) :
    P { s with api := api, events := events }

/-- What of a session is more than display. -/
structure Core where
  config : ClientConfig
  consent : Option Consent
  pending : List Report
  browser : Browser
  server : Server

def core (s : Session) : Core := ⟨s.config, s.consent, s.pending, s.browser, s.server⟩

@[simp] theorem core_inPhase (phase : Phase) (s : Session) : core (inPhase phase s) = core s := by
  cases phase with
  | _ => rfl

@[simp] theorem phase_inPhase (phase : Phase) (s : Session) : (inPhase phase s).phase = phase := by
  cases phase with
  | _ => rfl

theorem offDisplay_core (k : Core) : OffDisplay (core · = k) where
  inPhase phase _ h := (core_inPhase phase _).trans h
  resized _ _ h := h
  shown h := h
  opened _ h := h
  told _ _ h := h

theorem offDisplay_started : OffDisplay (·.phase ≠ .init) where
  inPhase phase hphase _ := by rw [phase_inPhase]; exact hphase
  resized _ _ h := h
  shown h := h
  opened _ h := h
  told _ _ h := h

/-- A step of the display alone keeps all else. -/
theorem keeps_core {m : SessionM α} (h : ∀ {P}, OffDisplay P → Preserves P m) : Keeps core m :=
  fun k => h (offDisplay_core k)

namespace OffDisplay

variable {P : Session → Prop}

theorem enter (h : OffDisplay P) {phase : Phase} (hphase : phase ≠ .init) : Preserves P (enter phase) :=
  fun _ hs => h.inPhase phase hphase hs

theorem device : Preserves P device :=
  .bind .get fun s => .lift (deviceOf s.config.breakpoints s.environment.viewportWidth)

theorem resize (h : OffDisplay P) (width : Json) : Preserves P (resize width) := by
  refine .bind (.modify fun s hs => h.resized width s.placements hs) fun _ => ?_
  refine .bind device fun d => .bind (.modify fun s hs => ?_) fun _ => .bind .get fun _ => .pure _
  exact h.resized s.environment.viewportWidth _ hs

theorem showBanner (h : OffDisplay P) : Preserves P showBanner := by
  refine .bind (.modify fun _ hs => h.shown hs) fun _ => .bind .get fun s => ?_
  exact .bind (.discard (h.resize _)) fun _ => h.enter (by decide)

theorem shouldShow : Preserves P shouldShow := by
  refine .bind .get fun s => .bind (.lift _) fun stored => ?_
  split
  · exact .pure _
  · exact .lift _

theorem reportMetadata : Preserves P reportMetadata :=
  .bind .get fun _ => .bind (.lift _) fun _ => .bind device fun _ => .checked _

theorem phase : Preserves P (do return (← get).phase) := .bind .get fun _ => .pure _

theorem showPreferences (h : OffDisplay P) : Preserves P showPreferences := by
  refine .bind .get fun s => .ite (.throw_bind _ _) ?_
  have opened : Preserves P (do modify fun s => { s with preferencesOpen := true }; return (← get).phase) :=
    .bind (.modify fun _ hs => h.opened true hs) fun _ => phase
  exact .ite (.bind h.showBanner fun _ => opened) opened

theorem clickIcon (h : OffDisplay P) : Preserves P clickIcon :=
  .bind .get fun _ => .ite (.throw_bind _ _) h.showPreferences

theorem tick (h : OffDisplay P) : Preserves P tick := by
  refine .bind .get fun s => ?_
  split
  · exact .bind (.lift _) fun _ => .ite (.bind (h.enter (by decide)) fun _ => phase) phase
  · refine .ite (.bind (.lift _) fun decided => .ite (.bind shouldShow fun due => ?_) phase) phase
    exact .ite (.bind h.showBanner fun _ => phase) phase
  · exact phase

theorem react (h : OffDisplay P) (r : Signal.Reaction) : Preserves P (react r) := by
  refine .bind (.modify fun _ hs => h.told _ _ hs) fun _ => ?_
  split
  · exact .throw _
  · exact .pure _

theorem callApi (h : OffDisplay P) (command version : Json) (listener : Option Signal.Listener)
    (parameter : Json) : Preserves P (callApi command version listener parameter) := .bind .get fun _ => h.react _

theorem receive (h : OffDisplay P) (message : Json) : Preserves P (receive message) :=
  .bind .get fun _ => .bind (h.react _) fun _ => .pure _

end OffDisplay

end ConsentBanner.Session
