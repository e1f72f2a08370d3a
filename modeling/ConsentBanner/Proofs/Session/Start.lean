import ConsentBanner.Proofs.Consent.Store
import ConsentBanner.Proofs.Session.Event

/-!
How a page starts, whatever stands in its cookie.
-/

namespace ConsentBanner.Session

/-- A moment of unknown offset that a policy has to count from, although the day before it is in no calendar. -/
def IsUncountable (policy : TimedPolicy) (decided : Moment) : Prop :=
  policy.enabled = true ∧ policy.seconds.exceeds 0 = true ∧ decided.zone = none ∧
    Date.ofDayNumber? (decided.date.dayNumber - 1) = none

theorem epochMillis_eq_error {m : Moment} {f : Fault} :
    m.epochMillis = .error f ↔ f = .badValue ∧ m.zone = none ∧ Date.ofDayNumber? (m.date.dayNumber - 1) = none := by
  unfold Moment.epochMillis Moment.epochSeconds
  cases hzone : m.zone with
  | some zone => simp [bind, Except.bind, pure, Except.pure]
  | none =>
    cases hday : Date.ofDayNumber? (m.date.dayNumber - 1) with
    | some day => simp [bind, Except.bind, pure, Except.pure]
    | none => simp [bind, Except.bind, eq_comm]

/-- Whether a decision is due again can be told by a clock in whole milliseconds, unless its moment is uncountable. -/
theorem isDue_eq_error {policy : TimedPolicy} {decided : Moment} {ms : Int} {f : Fault} :
    isDue policy decided (.int ms) = .error f ↔ f = .badValue ∧ IsUncountable policy decided := by
  unfold isDue IsUncountable
  cases henabled : policy.enabled with
  | false => simp [pure, Except.pure]
  | true =>
    cases hseconds : policy.seconds.exceeds 0 with
    | false => simp [pure, Except.pure]
    | true =>
      cases hmillis : decided.epochMillis with
      | error e =>
        have h := epochMillis_eq_error.1 hmillis
        simp [bind, Except.bind, h, eq_comm]
      | ok epoch =>
        have h : ¬ (decided.zone = none ∧ Date.ofDayNumber? (decided.date.dayNumber - 1) = none) := by
          intro hnone
          rw [epochMillis_eq_error.2 ⟨rfl, hnone⟩] at hmillis
          cases hmillis
        simp [bind, Except.bind, pure, Except.pure, Number.minus, Number.plus, Number.neg, h]

/-- Whether the visitor is to be asked about a stored consent. -/
def dueAgain (s : Session) (c : Option Consent) : Except Fault Bool :=
  match c.bind (·.lastUpdated) with
  | none => .ok true
  | some decided => isDue s.config.reshow decided s.browser.now

/-- A consent whose last decision was made at an uncountable moment. -/
def IsStuck (s : Session) (c : Option Consent) : Prop :=
  ∃ decided ∈ c.bind (·.lastUpdated), IsUncountable s.config.reshow decided

theorem dueAgain_eq_error {s : Session} {c : Option Consent} {ms : Int} {f : Fault} (hclock : s.browser.now = .int ms) :
    dueAgain s c = .error f ↔ f = .badValue ∧ IsStuck s c := by
  unfold dueAgain IsStuck
  rw [hclock]
  cases c.bind (·.lastUpdated) with
  | none => simp
  | some decided => simp [isDue_eq_error]

theorem result_shouldShow {s : Session} {c : Option Consent} (hload : s.store.load s.browser = .ok c) :
    result shouldShow s = ((dueAgain s c).mapError .fault, s) := by
  rw [shouldShow, result_bind, result_get]
  dsimp only
  rw [result_bind, result_lift, hload]
  dsimp only [mapError_ok]
  unfold dueAgain
  cases c.bind (·.lastUpdated) with
  | none => rfl
  | some decided => exact result_lift _ s

theorem result_discard {α : Type} (m : SessionM α) (s : Session) :
    result (discard m) s = ((result m s).1.map fun _ => (), (result m s).2) := by
  change result (m >>= fun _ => pure ()) s = _
  rw [result_bind]
  rcases result m s with ⟨e | a, t⟩
  · rfl
  · rfl

theorem result_resize {s : Session} {width : Json} {w : Number} (hwidth : Number.ofScalar? width = some w) :
    ∃ placed t, result (resize width) s = (.ok placed, t) := by
  have hdevice (b : Breakpoints) : deviceOf b width = .ok (b.deviceForWidth w) := by rw [deviceOf, hwidth]
  rw [resize, result_bind, result_modify]
  dsimp only
  rw [result_bind, device, result_bind, result_get]
  dsimp only
  rw [result_lift, hdevice]
  exact ⟨_, _, rfl⟩

theorem result_showBanner {s : Session} {w : Number}
    (hwidth : Number.ofScalar? s.environment.viewportWidth = some w) :
    ∃ t, result showBanner s = (.ok (), t) ∧ t.phase = .bannerVisible := by
  rw [showBanner, result_bind, result_modify]
  dsimp only
  rw [result_bind, result_get]
  dsimp only
  rw [result_bind, result_discard]
  obtain ⟨placed, t, ht⟩ :=
    result_resize (s := { s with shownAt := some s.browser.now, preferencesOpen := false }) hwidth
  rw [ht]
  exact ⟨_, rfl, phase_inPhase _ _⟩

/-- A page that can start but for what stands in its cookies: its clock shows whole milliseconds, the identifier of its
visitor expires on a day of the calendar, and its width is a number. -/
structure Ready (s : Session) : Prop where
  init : s.phase = .init
  clock : ∃ ms, s.browser.now = .int ms
  visitor : ∃ expiry, (Moment.ofMillis s.browser.now >>= fun now => now.addDays Visitor.cookieDays) = .ok expiry
  width : ∃ w, Number.ofScalar? s.environment.viewportWidth = some w

namespace Ready

variable {s : Session}

theorem identified (h : Ready s) : ∃ id b, Visitor.identify s.browser = .ok (id, b) := by
  obtain ⟨expiry, hexpiry⟩ := h.visitor
  obtain ⟨now, hnow, hexpiry⟩ := bind_eq_ok.1 hexpiry
  rw [Visitor.identify, Cookie.format, hnow]
  dsimp only [bind, Except.bind]
  rw [hexpiry]
  exact ⟨_, _, rfl⟩

/-- A page that has looked for a consent and found one or none. -/
def found (c : Option Consent) (s : Session) : Session := { inPhase .evaluateConsent s with consent := c }

theorem result_start (h : s.phase = .init) :
    result start s =
      match s.store.load s.browser with
      | .error f => (.error (.fault f), inPhase .evaluateConsent s)
      | .ok c =>
        result (do
          let due ← shouldShow
          Functor.discard identify
          if due then showBanner else enter .hidden
          return (← get).phase) (found c s) := by
  rw [start, result_bind, result_get]
  dsimp only
  rw [if_neg (by simp [h]), result_bind, result_enter]
  dsimp only
  rw [result_bind, result_lift]
  cases hload : s.store.load s.browser with
  | error f => rfl
  | ok c => rfl

theorem start_error (h : Ready s) {f : Fault} (hload : s.store.load s.browser = .error f) :
    result (perform .start) s = (.error (.fault f), inPhase .evaluateConsent s) := by
  change result (discard start) s = _
  rw [result_discard, result_start h.init, hload]
  rfl

/-- A page that is not stopped by its cookie rests when it has started. -/
theorem start_ok (h : Ready s) {c : Option Consent} {due : Bool} (hload : s.store.load s.browser = .ok c)
    (hdue : dueAgain s c = .ok due) :
    ∃ t, result (perform .start) s = (.ok (), t) ∧ t.phase = if due then .bannerVisible else .hidden := by
  -- That a consent was found changes neither what is in the cookie nor when it is due.
  have hload' : (found c s).store.load (found c s).browser = .ok c := hload
  have hdue' : dueAgain (found c s) c = .ok due := hdue
  obtain ⟨id, b, hvisitor⟩ := h.identified
  have hvisitor' : Visitor.identify (found c s).browser = .ok (id, b) := hvisitor
  obtain ⟨w, hwidth⟩ := h.width
  change ∃ t, result (discard start) s = _ ∧ _
  rw [result_discard, result_start h.init, hload]
  dsimp only
  rw [result_bind, result_shouldShow hload', hdue']
  dsimp only [mapError_ok]
  rw [result_bind, result_discard, result_identify, hvisitor']
  dsimp only [Except.map]
  cases due with
  | true =>
    obtain ⟨t, ht, hphase⟩ := result_showBanner (s := { found c s with browser := b }) hwidth
    rw [if_pos rfl, result_bind, ht]
    exact ⟨t, rfl, hphase⟩
  | false =>
    rw [if_neg (by simp), result_bind, result_enter]
    exact ⟨_, rfl, phase_inPhase _ _⟩

theorem start_uncountable (h : Ready s) {c : Option Consent} {f : Fault} (hload : s.store.load s.browser = .ok c)
    (hdue : dueAgain s c = .error f) : result (perform .start) s = (.error (.fault f), found c s) := by
  have hload' : (found c s).store.load (found c s).browser = .ok c := hload
  have hdue' : dueAgain (found c s) c = .error f := hdue
  change result (discard start) s = _
  rw [result_discard, result_start h.init, hload]
  dsimp only
  rw [result_bind, result_shouldShow hload', hdue']
  rfl

end Ready

/-- Stray answers in the cookie are the one thing that cannot be read past, and what is read allows what is necessary.
Every other cookie lets a page start and rest, with its banner shown when it holds no decision; only a decision that was
made at a moment that cannot be counted from stops a page that is to count from it. -/
theorem start_of_cookie (raw : String) (s : Session) (h : Ready s) :
    (∀ f, Consent.decode? raw = .error f ↔
      f = .lacksParts ∧
        ∃ fields, Json.parse? (Text.percentDecode raw) = some (.obj fields) ∧ Consent.HasStrayAnswers fields) ∧
    (∀ c, Consent.decode? raw = .ok (some c) → c.purposes.get? Purpose.necessary = some true) ∧
    (∀ f, s.store.load s.browser = .error f →
      result (perform .start) s = (.error (.fault f), inPhase .evaluateConsent s)) ∧
    ∀ c, s.store.load s.browser = .ok c →
      (IsStuck s c → result (perform .start) s = (.error (.fault .badValue), Ready.found c s)) ∧
      (¬ IsStuck s c →
        ∃ t, result (perform .start) s = (.ok (), t) ∧ (t.phase = .bannerVisible ∨ t.phase = .hidden) ∧
          (c.bind (·.lastUpdated) = none → t.phase = .bannerVisible)) := by
  obtain ⟨ms, hclock⟩ := h.clock
  refine ⟨fun _ => Consent.decode?_eq_error, fun _ => Consent.necessary_of_decode?,
    fun f hload => h.start_error hload, fun c hload => ⟨fun hstuck => ?_, fun hcountable => ?_⟩⟩
  · exact h.start_uncountable hload ((dueAgain_eq_error hclock).2 ⟨rfl, hstuck⟩)
  · cases hdue : dueAgain s c with
    | error f => exact absurd ((dueAgain_eq_error hclock).1 hdue).2 hcountable
    | ok due =>
      obtain ⟨t, ht, hphase⟩ := h.start_ok hload hdue
      refine ⟨t, ht, ?_, fun hnone => ?_⟩
      · cases due with
        | true => exact .inl hphase
        | false => exact .inr hphase
      · unfold dueAgain at hdue
        rw [hnone] at hdue
        cases hdue
        exact hphase

/-- The plain page with a given text in its consent cookie. -/
def withCookie (raw : String) : Session :=
  { plainSession with browser := { plainSession.browser with jar := { cookies := [("banner-consent", raw)] } } }

theorem ready_withCookie (raw : String) : Ready (withCookie raw) where
  init := rfl
  clock := ⟨_, rfl⟩
  visitor := by
    change ∃ expiry,
      (Moment.ofMillis plainSession.browser.now >>= fun now => now.addDays Visitor.cookieDays) = .ok expiry
    exact exists_eq_ok (by decide +kernel)
  width := ⟨_, rfl⟩

/-- A cookie with a list in the place of answers. -/
def listCookie : String := "\x7b\"purposes\": [1]\x7d"

/-- A list in the place of answers stops the page; a text that is no document does not. -/
theorem start_of_cookie_list :
    result (perform .start) (withCookie listCookie) =
        (.error (.fault .lacksParts), inPhase .evaluateConsent (withCookie listCookie)) ∧
      ∃ t, result (perform .start) (withCookie "[1") = (.ok (), t) ∧ t.phase = .bannerVisible := by
  constructor
  · obtain ⟨f, hload⟩ : ∃ f, (withCookie listCookie).store.load (withCookie listCookie).browser = .error f :=
      exists_eq_error (by decide +kernel)
    obtain ⟨hdecode, -, hfault, -⟩ := start_of_cookie listCookie _ (ready_withCookie listCookie)
    obtain ⟨rfl, -⟩ := (hdecode f).1 hload
    exact hfault _ hload
  · have hload : (withCookie "[1").store.load (withCookie "[1").browser = .ok none := by rfl
    obtain ⟨-, -, -, hstart⟩ := start_of_cookie "[1" _ (ready_withCookie "[1")
    obtain ⟨t, ht, -, hvisible⟩ := (hstart none hload).2 (by rintro ⟨_, ⟨⟩, -⟩)
    exact ⟨t, ht, hvisible rfl⟩

end ConsentBanner.Session
