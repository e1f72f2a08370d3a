import ConsentBanner.Proofs.Session.Coherence
import ConsentBanner.Proofs.Time.Clock

/-!
What a decision comes to on a page that tells of its visitor as it should: it is carried out to its end, unless the
cookie of the consent or that of the visitor would expire beyond the calendar.
-/

namespace ConsentBanner

def Phase.IsPassing (p : Phase) : Prop := p = .applyConsent ∨ p = .persistCookie ∨ p = .reportToServer

namespace Session

/-- A page that tells of its visitor and of time as it should: its browser has a name, the first of its languages is a
text, and its clock shows whole milliseconds. -/
structure Readable (s : Session) : Prop where
  agent : ∃ agent, s.environment.userAgent = .str agent
  language : ∃ language, firstLanguage s.environment.languages = .ok (.str language)
  clock : ∃ ms, s.browser.now = .int ms
  shown : ∀ time ∈ s.shownAt, ∃ ms, time = .int ms

theorem lasting_readable : Lasting Readable where
  inPhase phase _ h := by
    cases phase with
    | _ => exact ⟨h.agent, h.language, h.clock, h.shown⟩
  resized _ _ h := ⟨h.agent, h.language, h.clock, h.shown⟩
  shown h := by
    refine ⟨h.agent, h.language, h.clock, ?_⟩
    rintro time ⟨⟩
    exact h.clock
  opened _ h := ⟨h.agent, h.language, h.clock, h.shown⟩
  told _ _ h := ⟨h.agent, h.language, h.clock, h.shown⟩
  changed _ _ _ _ _ hnow h := ⟨h.agent, h.language, by rw [hnow]; exact h.clock, h.shown⟩
  advanced hadvance h := by
    obtain ⟨ms, hms⟩ := h.clock
    obtain ⟨d, -, hadvance⟩ := bind_eq_ok.1 hadvance
    obtain ⟨now, hnow, hadvance⟩ := bind_eq_ok.1 hadvance
    cases hadvance
    rw [hms] at hnow
    cases hnow
    exact ⟨h.agent, h.language, ⟨_, rfl⟩, h.shown⟩

theorem readable_of_create {config : ClientConfig} {environment : Environment} {components : List Component}
    {browser : Browser} {server : Server} {s : Session}
    (hcreate : create config environment components browser server = .ok s)
    (hagent : ∃ agent, environment.userAgent = .str agent)
    (hlanguage : ∃ language, firstLanguage environment.languages = .ok (.str language))
    (hclock : ∃ ms, browser.now = .int ms) : Readable s := by
  obtain ⟨reason, -, hcreate⟩ := bind_eq_ok.1 hcreate
  cases hcreate
  exact ⟨hagent, hlanguage, hclock, nofun⟩

/-- A page whose cookie for its visitor, if it is written now, expires on a day of the calendar. -/
def Remembers (s : Session) : Prop :=
  ∃ now expiry, Moment.ofMillis s.browser.now = .ok now ∧ now.addDays Visitor.cookieDays = .ok expiry

theorem remembers_iff {s : Session} : Remembers s ↔ ∃ id b, Visitor.identify s.browser = .ok (id, b) := by
  constructor
  · intro h
    obtain ⟨cookie, hcookie⟩ := Cookie.format_isOk_iff.2 h
    exact ⟨_, _, bind_eq_ok.2 ⟨cookie, hcookie, rfl⟩⟩
  · rintro ⟨id, b, h⟩
    obtain ⟨cookie, hcookie, -⟩ := bind_eq_ok.1 h
    exact Cookie.format_isOk_iff.1 ⟨cookie, hcookie⟩

/-- Whether a consent can be written does not depend on the consent. -/
theorem expires_iff {s : Session} (c : Consent) : Expires s ↔ ∃ b, s.store.save c s.browser = .ok b := by
  constructor
  · intro h
    obtain ⟨cookie, hcookie⟩ := Cookie.format_isOk_iff.2 h
    exact ⟨_, bind_eq_ok.2 ⟨cookie, hcookie, rfl⟩⟩
  · rintro ⟨b, h⟩
    obtain ⟨cookie, hcookie, -⟩ := bind_eq_ok.1 h
    exact Cookie.format_isOk_iff.1 ⟨cookie, hcookie⟩

section Report

variable {s : Session}

theorem Readable.elapsed (h : Readable s) : ∃ time : Option Int,
    (s.shownAt.mapM fun shown => s.browser.now.minus shown) = .ok (time.map Number.int) := by
  obtain ⟨now, hnow⟩ := h.clock
  cases hshown : s.shownAt with
  | none => exact ⟨none, rfl⟩
  | some shown =>
    obtain ⟨ms, rfl⟩ := h.shown shown hshown
    rw [hnow]
    exact ⟨some (now + -ms), rfl⟩

theorem exists_ofAction (name : String) (time : Option Int) :
    ∃ i, Interaction.ofAction (.str name) (((time.map Number.int).map Number.json).getD .null) = .valid i := by
  cases time with
  | none => exact ⟨_, rfl⟩
  | some n => exact ⟨_, rfl⟩

theorem exists_metadata (agent language device : String) :
    ∃ m, ReportMetadata.read (.obj [("user_agent", .str agent), ("language", .str language),
      ("device_type", .str device)]) = .valid m :=
  ⟨_, rfl⟩

theorem Readable.result_reportMetadata (h : Readable s) {w : Number}
    (hwidth : Number.ofScalar? s.environment.viewportWidth = some w) :
    ∃ m, result reportMetadata s = (.ok m, s) := by
  obtain ⟨agent, hagent⟩ := h.agent
  obtain ⟨language, hlanguage⟩ := h.language
  have hdevice : deviceOf s.config.breakpoints s.environment.viewportWidth =
      .ok (s.config.breakpoints.deviceForWidth w) := by
    rw [deviceOf, hwidth]
  obtain ⟨m, hm⟩ := exists_metadata agent language (Named.name (s.config.breakpoints.deviceForWidth w))
  refine ⟨m, ?_⟩
  rw [reportMetadata, result_bind, result_get]
  dsimp only
  rw [result_bind, result_lift, hlanguage]
  dsimp only [mapError_ok]
  rw [result_bind, device, result_bind, result_get]
  dsimp only
  rw [result_lift, hdevice]
  dsimp only [mapError_ok]
  rw [hagent, hm]
  rfl

/-- All that keeps the report of a decision from being made is the cookie of the visitor. -/
theorem Readable.result_reportOf (h : Readable s) {w : Number}
    (hwidth : Number.ofScalar? s.environment.viewportWidth = some w) (action : ActionKind) (c : Consent) :
    match Visitor.identify s.browser with
    | .error f => result (reportOf action c) s = (.error (.fault f), s)
    | .ok (_, b) => ∃ r, result (reportOf action c) s = (.ok r, { s with browser := b }) := by
  obtain ⟨time, htime⟩ := h.elapsed
  rw [reportOf, result_bind, result_get]
  dsimp only
  rw [result_bind, result_lift, htime]
  dsimp only [mapError_ok]
  rw [result_bind, result_identify]
  rcases hid : Visitor.identify s.browser with f | ⟨id, b⟩
  · rfl
  · have hb : Readable { s with browser := b } :=
      lasting_readable.changed s.consent s.pending s.modeUpdates b s.server (Visitor.now_identify hid) h
    obtain ⟨m, hm⟩ := hb.result_reportMetadata (w := w) hwidth
    obtain ⟨i, hi⟩ := exists_ofAction (Named.name action) time
    dsimp only
    rw [result_bind, hm]
    dsimp only
    rw [hi]
    exact ⟨_, rfl⟩

end Report

theorem exists_categorySwitches {categories : Json} (h : categories = .null ∨ ∃ fields, categories = .obj fields) :
    ∃ switches, categorySwitches categories = .ok switches := by
  obtain rfl | ⟨fields, rfl⟩ := h
  · exact ⟨[], rfl⟩
  · cases hset : (Json.obj fields).isSet with
    | true => exact ⟨fields, by simp [categorySwitches, hset]⟩
    | false => exact ⟨[], by simp [categorySwitches, hset]⟩

theorem exists_decisionOf (action : ActionKind) {categories : Json} {s : Session} {now : Moment}
    (hcategories : categories = .null ∨ ∃ fields, categories = .obj fields)
    (hnow : Moment.ofMillis s.browser.now = .ok now) : ∃ c, decisionOf action categories s = .ok c := by
  obtain ⟨switches, hswitches⟩ := exists_categorySwitches hcategories
  obtain ⟨decided, hdecided⟩ : ∃ decided, consentOf action categories now = .ok decided := by
    unfold consentOf
    split
    · exact ⟨_, rfl⟩
    · exact ⟨_, rfl⟩
    · rw [hswitches]
      exact ⟨_, rfl⟩
  rw [decisionOf, hnow]
  dsimp only [bind, Except.bind]
  rw [hdecided]
  dsimp only
  split
  · exact ⟨_, rfl⟩
  · exact ⟨_, rfl⟩

theorem result_handle {name : String} {categories : Json} {s : Session} {action : ActionKind}
    (hname : Named.ofName? name = some action) (haction : isDecision action) (hvisible : s.phase = .bannerVisible) :
    result (handle name categories) s =
      match result (applyDecision action categories) s with
      | (.error e, t) => (.error e, t)
      | (.ok _, t) => (.ok t.phase, t) := by
  have hact : act (some action) categories = applyDecision action categories := by
    cases action with
    | acceptAll => rfl
    | rejectAll => rfl
    | savePreferences => rfl
    | _ => cases haction
  rw [handle, result_bind, result_get]
  dsimp only
  rw [hname]
  split
  · rename_i heq
    cases heq
    cases haction
  · rw [if_neg (by simp [hvisible]), result_bind, hact]
    rcases result (applyDecision action categories) s with ⟨e | u, t⟩
    · rfl
    · rfl

/-- A decision that came to its end: besides being carried out, it is stored in the browser, every listener has heard
of it, and the page has hidden its banner. -/
structure Completed (action : ActionKind) (categories : Json) (s t : Session) (c : Consent) (r : Report) : Prop
    extends CarriedOut action categories s t c r where
  history : t.history = s.history ++ [.applyConsent, .persistCookie, .reportToServer, .hidden]
  phase : t.phase = .hidden
  panel : t.preferencesOpen = false
  stored : Fields.get? s.store.cookieName t.browser.storage = some c.encode
  heard : t.events = s.events ++ (s.api.notify (some c) "useractioncomplete").1

section Decision

variable {s : Session} {name : String} {action : ActionKind} {categories : Json}

theorem Readable.written (h : Readable s) {c : Consent} {b : Browser} (hsave : s.store.save c s.browser = .ok b) :
    Readable (written c b s) :=
  ⟨h.agent, h.language, (ConsentStore.now_save hsave).symm ▸ h.clock, h.shown⟩

theorem completed_concluded {c : Consent} {b b' : Browser} {id : String} {r : Report}
    (hdecision : decisionOf action categories s = .ok c) (hsave : s.store.save c s.browser = .ok b)
    (hid : Visitor.identify b = .ok (id, b')) (habout : IsAbout c r) :
    Completed action categories s (concluded r { written c b s with browser := b' }) c r := by
  refine ⟨⟨hdecision, rfl, rfl, ⟨b, hsave, .inr ⟨id, hid⟩⟩, habout, rfl, rfl⟩, ?_, rfl, rfl, ?_, rfl⟩
  · change (((s.history ++ [Phase.applyConsent]) ++ [.persistCookie]) ++ [.reportToServer]) ++ [.hidden] = _
    rw [List.append_assoc, List.append_assoc, List.append_assoc]
    rfl
  · exact (Visitor.get?_storage_of_identify hid).trans (ConsentStore.get?_storage_of_save hsave)

/-- What a decision comes to: it is completed, or it stops on its way, with nothing to be reported. -/
theorem Readable.handle_decision (h : Readable s) (hname : Named.ofName? name = some action)
    (haction : isDecision action) (hcategories : categories = .null ∨ ∃ fields, categories = .obj fields)
    (hvisible : s.phase = .bannerVisible) {w : Number}
    (hwidth : Number.ofScalar? s.environment.viewportWidth = some w) :
    ((Expires s ∧ Remembers s) ∧
      ∃ t c r, result (handle name categories) s = (.ok .hidden, t) ∧ Completed action categories s t c r) ∨
    (¬ (Expires s ∧ Remembers s) ∧
      ∃ f t, result (handle name categories) s = (.error (.fault f), t) ∧ t.phase.IsPassing ∧
        t.pending = s.pending) := by
  rw [result_handle hname haction hvisible, result_applyDecision]
  -- What can fail is the clock, then the cookie of the consent, and at last that of the visitor.
  cases hdecision : decisionOf action categories s with
  | error f =>
    refine .inr ⟨?_, f, _, rfl, .inl rfl, rfl⟩
    rintro ⟨⟨now, -, hnow, -⟩, -⟩
    obtain ⟨c, hc⟩ := exists_decisionOf action hcategories hnow
    rw [hdecision] at hc
    cases hc
  | ok c =>
    dsimp only
    cases hsave : s.store.save c s.browser with
    | error f =>
      refine .inr ⟨?_, f, _, rfl, .inr (.inl rfl), rfl⟩
      rintro ⟨hexpires, -⟩
      obtain ⟨b, hb⟩ := (expires_iff c).1 hexpires
      rw [hsave] at hb
      cases hb
    | ok b =>
      have hremembers : Remembers s ↔ ∃ id b', Visitor.identify b = .ok (id, b') := by
        rw [Remembers, ← ConsentStore.now_save hsave]
        exact remembers_iff (s := { s with browser := b })
      have hreport := (h.written hsave).result_reportOf (w := w) hwidth action c
      have hbrowser : (Session.written c b s).browser = b := rfl
      rw [hbrowser] at hreport
      rcases hid : Visitor.identify b with f | ⟨id, b'⟩
      · rw [hid] at hreport
        dsimp only at hreport ⊢
        rw [hreport]
        refine .inr ⟨?_, f, _, rfl, .inr (.inr rfl), rfl⟩
        rintro ⟨-, hvisitor⟩
        obtain ⟨id, b', hb'⟩ := hremembers.1 hvisitor
        rw [hid] at hb'
        cases hb'
      · rw [hid] at hreport
        obtain ⟨r, hr⟩ := hreport
        dsimp only
        rw [hr]
        exact .inl ⟨⟨(expires_iff c).2 ⟨b, hsave⟩, hremembers.2 ⟨id, b', hid⟩⟩, _, c, r, rfl,
          completed_concluded hdecision hsave hid (reportOf_eq_ok hr)⟩

/-- Where a decision stays that was made when its cookie would expire beyond the calendar. -/
theorem handle_stranded (hname : Named.ofName? name = some action) (haction : isDecision action)
    (hcategories : categories = .null ∨ ∃ fields, categories = .obj fields) (hvisible : s.phase = .bannerVisible)
    {now : Moment} (hnow : Moment.ofMillis s.browser.now = .ok now) (hexpires : ¬ Expires s) :
    ∃ c, decisionOf action categories s = .ok c ∧
      result (handle name categories) s = (.error (.fault .overflow), adopted c s) := by
  obtain ⟨c, hdecision⟩ := exists_decisionOf action hcategories hnow
  refine ⟨c, hdecision, ?_⟩
  have hsave : s.store.save c s.browser = .error .overflow := by
    obtain ⟨expiry, hexpiry⟩ | hexpiry := now.addDays_int s.config.cookieExpiry
    · exact absurd ⟨now, expiry, hnow, hexpiry⟩ hexpires
    · have hdays : s.store.cookieExpiry = .int s.config.cookieExpiry := rfl
      rw [ConsentStore.save, Cookie.format, hnow, hdays]
      dsimp only [bind, Except.bind]
      rw [hexpiry]
  rw [result_handle hname haction hvisible, result_applyDecision, hdecision]
  dsimp only
  rw [hsave]

end Decision

/-- A decision on a visible banner ends with the banner hidden, the decision stored, one report queued and the panel
closed, whatever listeners there are, exactly if the cookies of the consent and of the visitor expire on days of the
calendar. A cookie that is to expire later leaves the page with a decision that is neither stored nor reported, and no
configuration with ten thousand years to go can store any. -/
theorem run_decision {config : ClientConfig} {environment : Environment} {components : List Component}
    {browser : Browser} {server : Server} {start : Session}
    (hcreate : create config environment components browser server = .ok start)
    (hagent : ∃ agent, environment.userAgent = .str agent)
    (hlanguage : ∃ language, firstLanguage environment.languages = .ok (.str language))
    (hclock : ∃ ms, browser.now = .int ms) (events : List Event) {name : String} {action : ActionKind}
    {categories : Json} (hname : Named.ofName? name = some action) (haction : isDecision action)
    (hcategories : categories = .null ∨ ∃ fields, categories = .obj fields)
    (hvisible : (run events start).phase = .bannerVisible)
    (hwidth : ∃ w, Number.ofScalar? (run events start).environment.viewportWidth = some w) :
    (Expires (run events start) ∧ Remembers (run events start) → ∃ t c r,
      result (handle name categories) (run events start) = (.ok .hidden, t) ∧
        Completed action categories (run events start) t c r) ∧
    (¬ (Expires (run events start) ∧ Remembers (run events start)) → ∃ f t,
      result (handle name categories) (run events start) = (.error (.fault f), t) ∧ t.phase.IsPassing ∧
        t.pending = (run events start).pending) ∧
    (∀ now, Moment.ofMillis (run events start).browser.now = .ok now → ¬ Expires (run events start) → ∃ c,
      decisionOf action categories (run events start) = .ok c ∧
        result (handle name categories) (run events start) =
          (.error (.fault .overflow), adopted c (run events start))) ∧
    (3652425 ≤ config.cookieExpiry → ¬ Expires (run events start)) := by
  have hreadable : Readable (run events start) :=
    lasting_readable.run events (readable_of_create hcreate hagent hlanguage hclock)
  obtain ⟨w, hwidth⟩ := hwidth
  have houtcome := hreadable.handle_decision hname haction hcategories hvisible hwidth
  refine ⟨fun hdays => ?_, fun hdays => ?_, fun now hnow hexpires => ?_, fun hfar => ?_⟩
  · exact (houtcome.resolve_right fun h => h.1 hdays).2
  · exact (houtcome.resolve_left fun h => hdays h.1).2
  · exact handle_stranded hname haction hcategories hvisible hnow hexpires
  · rintro ⟨now, expiry, -, hexpiry⟩
    rw [store, (begins_of_create hcreate).config_run, now.addDays_of_far hfar] at hexpiry
    cases hexpiry

/-- A page whose consent is to be kept for a billion days. -/
def farSession : Session := { plainSession with config := { plainSession.config with cookieExpiry := 1000000000 } }

theorem create_farSession : create farSession.config {} [] {} farSession.server = .ok farSession := rfl

/-- A page starts, and a listener is added to it that fails when it hears of a decision. -/
def overheard : List Event := [.start,
  .call (.str "addEventListener") (.int 2) (some (.page "broken" (some (.str "useractioncomplete")))) .null]

/-- A decision is completed although a listener fails; with a cookie for a billion days it is stranded. -/
theorem run_decision_overheard :
    (∃ t c r, result (handle "accept_all" .null) (run overheard plainSession) = (.ok .hidden, t) ∧
      Completed .acceptAll .null (run overheard plainSession) t c r) ∧
    ∃ c, decisionOf .acceptAll .null (run overheard farSession) = .ok c ∧
      result (handle "accept_all" .null) (run overheard farSession) =
        (.error (.fault .overflow), adopted c (run overheard farSession)) := by
  have hname : Named.ofName? "accept_all" = some ActionKind.acceptAll := by decide
  constructor
  · have hcookies (days : Number) (h : (Moment.ofMillis (run overheard plainSession).browser.now >>=
        (·.addDays days)).toOption.isSome = true) : ∃ now expiry,
        Moment.ofMillis (run overheard plainSession).browser.now = .ok now ∧ now.addDays days = .ok expiry := by
      obtain ⟨expiry, hexpiry⟩ := exists_eq_ok h
      obtain ⟨now, hnow, hexpiry⟩ := bind_eq_ok.1 hexpiry
      exact ⟨now, expiry, hnow, hexpiry⟩
    obtain ⟨hcompleted, -⟩ := run_decision create_plainSession ⟨_, rfl⟩ ⟨_, rfl⟩ ⟨_, rfl⟩ overheard hname rfl (.inl rfl)
      (by decide +kernel) ⟨.int 1280, by decide +kernel⟩
    exact hcompleted ⟨hcookies _ (by decide +kernel), hcookies _ (by decide +kernel)⟩
  · obtain ⟨now, hnow⟩ := exists_eq_ok (x := Moment.ofMillis (run overheard farSession).browser.now) (by decide +kernel)
    obtain ⟨-, -, hstranded, hfar⟩ := run_decision create_farSession ⟨_, rfl⟩ ⟨_, rfl⟩ ⟨_, rfl⟩ overheard hname rfl
      (.inl rfl) (by decide +kernel) ⟨.int 1280, by decide +kernel⟩
    exact hstranded now hnow (hfar (by decide))

end Session

end ConsentBanner
