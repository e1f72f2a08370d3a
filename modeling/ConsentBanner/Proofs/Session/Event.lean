import ConsentBanner.Proofs.Session.Step

/-!
What can happen to a session, and that it starts only once.
-/

namespace ConsentBanner.Session

/-- What can happen to a session. -/
inductive Event where
  | start
  | act (name : String) (categories : Json)
  | icon
  | tick
  | reset
  | resize (width : Json)
  | flush
  | advance (seconds : Json)
  | setCookie (cookie : String)
  | call (command version : Json) (listener : Option Signal.Listener) (parameter : Json)
  | receive (message : Json)

def perform : Event → SessionM Unit
  | .start => discard start
  | .act name categories => discard (handle name categories)
  | .icon => discard clickIcon
  | .tick => discard tick
  | .reset => discard reset
  | .resize width => discard (resize width)
  | .flush => discard flush
  | .advance seconds => advance seconds
  | .setCookie cookie => setCookie cookie
  | .call command version listener parameter => callApi command version listener parameter
  | .receive message => discard (receive message)

/-- A session after an event, accepted or not. -/
def after (e : Event) (s : Session) : Session := leaves (perform e) s

def run : List Event → Session → Session
  | [], s => s
  | e :: rest, s => run rest (after e s)

theorem run_append (before rest : List Event) (s : Session) : run (before ++ rest) s = run rest (run before s) := by
  induction before generalizing s with
  | nil => rfl
  | cons e before ih => exact ih (after e s)

/-- A property of a session that only its configuration and its start have a part in. -/
structure Lasting (P : Session → Prop) : Prop extends OffDisplay P where
  changed {s : Session} (consent : Option Consent) (pending : List Report) (modeUpdates : List Json)
    (browser : Browser) (server : Server) (hnow : browser.now = s.browser.now) (h : P s) :
    P { s with
      consent := consent
      pending := pending
      modeUpdates := modeUpdates
      browser := browser
      server := server }
  advanced {s : Session} {seconds : Json} {browser : Browser} (hadvance : s.browser.advance seconds = .ok browser)
    (h : P s) : P { s with browser := browser }

namespace Lasting

variable {P : Session → Prop}

theorem modify_consent (h : Lasting P) (c : Option Consent) :
    Preserves P (modify fun s => { s with consent := c }) :=
  .modify fun s hs => h.changed c s.pending s.modeUpdates s.browser s.server rfl hs

theorem identify (h : Lasting P) : Preserves P identify := by
  intro s hs
  rw [leaves, result_identify]
  cases hid : Visitor.identify s.browser with
  | error f => exact hs
  | ok found => exact h.changed s.consent s.pending s.modeUpdates _ s.server (Visitor.now_identify hid) hs

theorem reportOf (h : Lasting P) (action : ActionKind) (c : Consent) : Preserves P (reportOf action c) := by
  refine .bind .get fun _ => .bind (.lift _) fun _ => .bind h.identify fun _ => ?_
  exact .bind OffDisplay.reportMetadata fun _ => .bind (.checked _) fun _ => .pure _

theorem persist (h : Lasting P) (c : Consent) : Preserves P (persist c) := by
  intro s hs
  rw [leaves, result_persist]
  cases hsave : s.store.save c s.browser with
  | error f => exact hs
  | ok b => exact h.changed s.consent s.pending s.modeUpdates b s.server (ConsentStore.now_save hsave) hs

theorem adopt (h : Lasting P) (c : Consent) : Preserves P (adopt c) := by
  refine .bind (h.modify_consent _) fun _ => .bind .get fun _ => .ite ?_ (.pure _)
  exact .modify fun s hs => h.changed s.consent s.pending _ s.browser s.server rfl hs

theorem enqueue (h : Lasting P) (r : Report) : Preserves P (enqueue r) :=
  .modify fun s hs =>
    h.told s.api _ (h.opened false (h.changed s.consent _ s.modeUpdates s.browser s.server rfl hs))

theorem applyDecision (h : Lasting P) (action : ActionKind) (categories : Json) :
    Preserves P (applyDecision action categories) := by
  have decided : Preserves P (decide action categories) := by
    intro s hs
    rw [leaves, result_decide]
    exact hs
  refine .bind (h.enter (by decide)) fun _ => .bind decided fun c => .bind (h.adopt c) fun _ => ?_
  refine .bind (h.enter (by decide)) fun _ => .bind (h.persist c) fun _ => .bind (h.enter (by decide)) fun _ => ?_
  exact .bind (h.reportOf action c) fun r => .bind (h.enqueue r) fun _ => h.enter (by decide)

theorem handle (h : Lasting P) (name : String) (categories : Json) : Preserves P (handle name categories) := by
  have acted (action : Option ActionKind) : Preserves P (act action categories) := by
    unfold act
    split
    · refine .bind .get fun _ => .ite (.modify fun s hs => ?_) (h.enter (by decide))
      exact h.opened false hs
    · exact .ite (h.applyDecision _ categories) (.pure _)
    · exact .pure _
  refine .bind .get fun s => ?_
  split
  · exact h.showPreferences
  · exact .ite (.throw_bind _ _) (.bind (acted _) fun _ => OffDisplay.phase)

theorem storeTcString (h : Lasting P) (t : Option Json) : Preserves P (storeTcString t) := by
  refine .bind .get fun s => ?_
  split
  · exact .bind (h.modify_consent _) fun _ => h.persist _
  · exact .pure _

theorem sendAll (h : Lasting P) (rs : List Report) : Preserves P (sendAll rs) := by
  induction rs with
  | nil => exact .pure _
  | cons r rest ih =>
    refine .bind .get fun s => .bind (.modify fun s hs => ?_) fun _ => .bind (h.storeTcString _) fun _ => ih
    exact h.changed s.consent rest s.modeUpdates s.browser _ rfl hs

theorem flush (h : Lasting P) : Preserves P flush := .bind .get fun _ => .bind (h.sendAll _) fun _ => .pure _

theorem advance (h : Lasting P) (seconds : Json) : Preserves P (advance seconds) := by
  intro s hs
  rw [leaves_advance]
  cases hadvance : s.browser.advance seconds with
  | error f => exact hs
  | ok b => exact h.advanced hadvance hs

theorem start (h : Lasting P) : Preserves P start := by
  refine .bind .get fun s => .ite (.throw_bind _ _) (.bind (h.enter (by decide)) fun _ => .bind (.lift _) fun c => ?_)
  refine .bind (h.modify_consent c) fun _ => .bind OffDisplay.shouldShow fun due => ?_
  refine .bind (.discard h.identify) fun _ => .ite (.bind h.showBanner fun _ => OffDisplay.phase) ?_
  exact .bind (h.enter (by decide)) fun _ => OffDisplay.phase

theorem reset (h : Lasting P) : Preserves P reset := by
  refine .bind (.modify fun s hs => ?_) fun _ => .bind (h.enter (by decide)) fun _ => ?_
  · exact h.changed none s.pending s.modeUpdates _ s.server rfl hs
  · exact .bind h.showBanner fun _ => OffDisplay.phase

/-- What lasts, lasts through every event. -/
theorem perform (h : Lasting P) (e : Event) : Preserves P (perform e) := by
  cases e with
  | start => exact h.start.discard
  | act name categories => exact (h.handle name categories).discard
  | icon => exact h.clickIcon.discard
  | tick => exact h.tick.discard
  | reset => exact h.reset.discard
  | resize width => exact (h.resize width).discard
  | flush => exact h.flush.discard
  | advance seconds => exact h.advance seconds
  | setCookie cookie =>
    exact .modify fun s hs => h.changed s.consent s.pending s.modeUpdates _ s.server rfl hs
  | call command version listener parameter => exact h.callApi command version listener parameter
  | receive message => exact (h.receive message).discard

theorem run (h : Lasting P) (events : List Event) {s : Session} (hs : P s) : P (run events s) := by
  induction events generalizing s with
  | nil => exact hs
  | cons e rest ih => exact ih (h.perform e s hs)

end Lasting

def Started (s : Session) : Prop := s.phase ≠ .init

theorem lasting_started : Lasting Started where
  toOffDisplay := offDisplay_started
  changed _ _ _ _ _ _ h := h
  advanced _ h := h

theorem started_after (e : Event) {s : Session} (hs : Started s) : Started (after e s) :=
  lasting_started.perform e s hs

theorem lasting_config (config : ClientConfig) : Lasting (·.config = config) where
  inPhase phase _ h := (congrArg Core.config (core_inPhase phase _)).trans h
  resized _ _ h := h
  shown h := h
  opened _ h := h
  told _ _ h := h
  changed _ _ _ _ _ _ h := h
  advanced _ h := h

theorem config_run (events : List Event) (s : Session) : (run events s).config = s.config :=
  (lasting_config s.config).run events rfl

/-- What a page begins with: its configuration, its surroundings, and nothing decided yet. -/
structure Begins (config : ClientConfig) (environment : Environment) (browser : Browser) (s : Session) : Prop where
  config : s.config = config
  environment : s.environment = environment
  browser : s.browser = browser
  phase : s.phase = .init
  consent : s.consent = none
  pending : s.pending = []
  preferencesOpen : s.preferencesOpen = false

theorem begins_of_create {config : ClientConfig} {environment : Environment} {components : List Component}
    {browser : Browser} {server : Server} {s : Session}
    (h : create config environment components browser server = .ok s) : Begins config environment browser s := by
  obtain ⟨reason, -, h⟩ := bind_eq_ok.1 h
  cases h
  exact ⟨rfl, rfl, rfl, rfl, rfl, rfl, rfl⟩

theorem Begins.config_run {config : ClientConfig} {environment : Environment} {browser : Browser} {s : Session}
    (h : Begins config environment browser s) (events : List Event) : (run events s).config = config :=
  (Session.config_run events s).trans h.config

/-- A page whose server gives a text for the first report and is out of reach for the second. -/
def plainSession : Session where
  config := { bannerId := "banner", domainId := "domain", forceGdpr := true }
  environment := {}
  components := []
  browser := {}
  server := { responses := [.answered 200 (.obj [("data", .obj [("tcString", .str "A")])]), .unreachable] }
  api := { identity := {}, gdprApplies := true }

theorem create_plainSession :
    create plainSession.config {} [] {} plainSession.server = .ok plainSession := rfl

end ConsentBanner.Session
