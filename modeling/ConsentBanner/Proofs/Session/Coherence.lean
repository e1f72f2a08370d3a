import ConsentBanner.Proofs.Session.Agreement

/-!
The consent of a page and the consent in its cookie stay the same one.
-/

namespace ConsentBanner

namespace Server

/-- A server that answers with JSON documents. -/
def AnswersDocuments (s : Server) : Prop := ∀ status body, .answered status body ∈ s.responses → body.IsPlain

theorem AnswersDocuments.gives {s : Server} (h : s.AnswersDocuments) : s.Gives Json.IsPlain := by
  intro status body hmem t ht
  have hplain := Json.isPlain_getD (Json.isPlain_getD (h status body hmem) "data") "tcString"
  unfold tcStringOf? at ht
  dsimp only at ht
  split at ht
  · cases ht
    exact hplain
  · cases ht

end Server

namespace Consent

theorem IsRecorded.stamped {c : Consent} (h : c.IsRecorded) {t : Json} (ht : t.IsPlain) :
    (Session.stamped (some t) c).IsRecorded where
  storable := h.storable
  document := ht

end Consent

namespace Session

/-- Whether the cookie took over each of the answers that a flush stores. -/
def storedAnswers : List Report → Session → List Bool
  | [], _ => []
  | r :: rest, s =>
    match result (storeTcString (answerTo r s)) (dispatched r rest s) with
    | (.ok _, t) => ((answerTo r s).bind fun _ => s.consent.map fun _ => true).toList ++ storedAnswers rest t
    | (.error _, _) => [false]

/-- Whether the cookie took over each of the changes that an event makes to the consent of the page. -/
def changesOf (e : Event) (s : Session) : List Bool :=
  match e with
  | .start => (takenOver s).toList.map fun _ => true
  | .act name categories => (decidedBy name categories s).toList.map fun c => (s.store.save c s.browser).toBool
  | .reset => [true]
  | .flush => storedAnswers s.pending s
  | _ => []

/-- Whether the cookie took over each change of the consent in a run, in order. -/
def changes : List Event → Session → List Bool
  | [], _ => []
  | e :: rest, s => changesOf e s ++ changes rest (after e s)

/-- What is loaded from the cookie is the consent of the page, unless that has an answer of the server that is no
text: then nothing is. -/
def InStep (s : Session) : Prop := s.store.load s.browser = .ok (s.consent.filter Consent.hasText)

theorem InStep.of_get? {s t : Session} (h : InStep s) (hconfig : t.config = s.config) (hconsent : t.consent = s.consent)
    (hjar : t.browser.jar.get? s.store.cookieName = s.browser.jar.get? s.store.cookieName) : InStep t := by
  have hstore : t.store = s.store := by rw [store, hconfig, store]
  rw [InStep, hstore, hconsent, ConsentStore.load, hjar]
  exact h

theorem InStep.of_core {s t : Session} (h : InStep s) (hcore : core t = core s) : InStep t := by
  have hbrowser : t.browser = s.browser := congrArg Core.browser hcore
  exact h.of_get? (congrArg Core.config hcore) (congrArg Core.consent hcore) (by rw [hbrowser])

theorem inStep_of_holds {s : Session} {c : Consent} (hconsent : s.consent = some c) (hholds : s.store.Holds s.browser c)
    (hc : c.IsRecorded) : InStep s := by
  rw [InStep, ConsentStore.load, hholds, Option.getD_some, hc.decode?_encode, hconsent]

/-- What keeps a page and its cookie in step, when the last change of the consent is known. -/
structure Coherent (last : Option Bool) (s : Session) : Prop where
  plain : Cookie.IsPlainName s.config.bannerId
  documents : s.server.Gives Json.IsPlain
  /-- What is left to report was decided on this page. -/
  recorded : s.pending ≠ [] → ∀ c ∈ s.consent, c.IsRecorded
  inStep : last = some true → InStep s

namespace Coherent

variable {last : Option Bool} {s t : Session}

theorem of_core (h : Coherent last s) (hcore : core t = core s) : Coherent last t := by
  have hconfig : t.config = s.config := congrArg Core.config hcore
  have hserver : t.server = s.server := congrArg Core.server hcore
  have hpending : t.pending = s.pending := congrArg Core.pending hcore
  have hconsent : t.consent = s.consent := congrArg Core.consent hcore
  refine ⟨hconfig ▸ h.plain, hserver ▸ h.documents, ?_, fun hlast => (h.inStep hlast).of_core hcore⟩
  rw [hpending, hconsent]
  exact h.recorded

theorem start (h : Coherent last s) (hfresh : Fresh s) :
    Coherent ((changesOf .start s).getLast?.or last) (after .start s) := by
  have hafter : core (after .start s) = core (leaves Session.start s) :=
    congrArg core (leaves_discard _ s)
  rw [changesOf, takenOver]
  by_cases hp : s.phase = .init
  · rw [if_pos hp]
    cases hl : s.store.load s.browser with
    | error f => exact h.of_core (hafter.trans (core_start_error hp hl))
    | ok stored =>
      obtain ⟨b, hb, hid⟩ := core_start hp hl
      have hcore := hafter.trans hb
      have hconfig : (after .start s).config = s.config := congrArg Core.config hcore
      have hserver : (after .start s).server = s.server := congrArg Core.server hcore
      have hbrowser : (after .start s).browser = b := congrArg Core.browser hcore
      have hpending : (after .start s).pending = [] :=
        (congrArg Core.pending hcore).trans (hfresh (not_not_intro hp))
      have hstored : stored.filter Consent.hasText = stored := by
        cases stored with
        | none => rfl
        | some c => exact Option.filter_some_pos (ConsentStore.hasText_of_load hl)
      have hloaded : InStep { s with consent := stored } := by
        rw [InStep, hstored]
        exact hl
      refine ⟨hconfig ▸ h.plain, hserver ▸ h.documents, fun hne => absurd hpending hne, fun _ => ?_⟩
      refine hloaded.of_get? hconfig (congrArg Core.consent hcore) ?_
      rw [hbrowser]
      exact hid.get? s.store
  · rw [if_neg hp]
    exact h.of_core (hafter.trans (core_start_of_started hp))

/-- A decision is in the cookie when it could be written there. -/
theorem decided (h : Coherent last s) {c : Consent} (hc : c.IsStorable) {pending : List Report} {b : Browser}
    (hcore : core t = { core s with consent := some c, pending := pending, browser := b })
    (hwritten : Written c s b) : Coherent (some (s.store.save c s.browser).toBool) t := by
  have hconfig : t.config = s.config := congrArg Core.config hcore
  have hserver : t.server = s.server := congrArg Core.server hcore
  have hconsent : t.consent = some c := congrArg Core.consent hcore
  have hbrowser : t.browser = b := congrArg Core.browser hcore
  have hstore : t.store = s.store := by rw [store, hconfig, store]
  refine ⟨hconfig ▸ h.plain, hserver ▸ h.documents, fun _ => ?_, fun hlast => ?_⟩
  · rw [hconsent]
    rintro c' ⟨⟩
    exact hc.isRecorded
  · unfold Written at hwritten
    cases hsave : s.store.save c s.browser with
    | error f =>
      rw [hsave] at hlast
      cases hlast
    | ok saved =>
      rw [hsave] at hwritten
      have hholds : s.store.Holds saved c := ConsentStore.holds_of_save h.plain hsave
      apply inStep_of_holds hconsent ?_ hc.isRecorded
      rw [hstore, hbrowser, ConsentStore.Holds, hwritten.get?]
      exact hholds

theorem act (h : Coherent last s) (hdated : Dated s) (name : String) (categories : Json) :
    Coherent ((changesOf (.act name categories) s).getLast?.or last) (after (.act name categories) s) := by
  have hafter : core (after (.act name categories) s) = core (leaves (handle name categories) s) :=
    congrArg core (leaves_discard _ s)
  rw [core_handle] at hafter
  rw [changesOf, decidedBy]
  cases hn : decisionNamed name s with
  | none =>
    rw [hn] at hafter
    exact h.of_core hafter
  | some action =>
    rw [hn] at hafter
    rw [Option.bind_some]
    cases hd : decisionOf action categories s with
    | error f => exact h.of_core (hafter.trans (core_applyDecision_error hd))
    | ok c =>
      obtain ⟨own, b, hb, -, hwritten⟩ := core_applyDecision hd
      exact h.decided (isStorable_of_decisionOf hdated hd) (hafter.trans hb) hwritten

theorem dispatched (h : Coherent last s) (r : Report) (rest : List Report) (hrecorded : ∀ c ∈ s.consent, c.IsRecorded) :
    Coherent last (dispatched r rest s) where
  plain := h.plain
  documents := (h.documents.deliver _ _ r).1
  recorded _ := hrecorded
  inStep := h.inStep

/-- An answer is in the cookie, with the consent that it is about, when it could be written there. -/
theorem stored (h : Coherent last s) {c : Consent} (hconsent : s.consent = some c) (hc : c.IsRecorded) {t : Json}
    (ht : t.IsPlain) :
    match result (storeTcString (some t)) s with
    | (.ok _, u) => Coherent (some true) u
    | (.error _, u) => Coherent (some false) u := by
  have hstamped := hc.stamped ht
  have hrecorded : ∀ c' ∈ some (stamped (some t) c), c'.IsRecorded := by
    rintro c' ⟨⟩
    exact hstamped
  rw [result_storeTcString_some hconsent, result_persist]
  split
  · rename_i heq
    split at heq
    · rename_i b hsave
      cases heq
      refine ⟨h.plain, h.documents, fun _ => hrecorded, fun _ => ?_⟩
      exact inStep_of_holds rfl (ConsentStore.holds_of_save h.plain hsave) hstamped
    · cases heq
  · rename_i heq
    split at heq
    · cases heq
    · cases heq
      exact ⟨h.plain, h.documents, fun _ => hrecorded, nofun⟩

theorem sendAll (rs : List Report) (hs : s.pending = rs) (h : Coherent last s) :
    Coherent ((storedAnswers rs s).getLast?.or last) (leaves (sendAll rs) s) := by
  induction rs generalizing last s with
  | nil => exact h
  | cons r rest ih =>
    -- The consent that the answers are stored with was decided on this page, since there is something to send.
    have hrecorded : ∀ c ∈ s.consent, c.IsRecorded := h.recorded (by simp [hs])
    have hsent := h.dispatched r rest hrecorded
    rw [leaves_sendAll_cons, storedAnswers]
    cases ht : answerTo r s with
    | none =>
      rw [result_storeTcString_none (.inl rfl)]
      exact ih rfl hsent
    | some t =>
      cases hconsent : s.consent with
      | none =>
        have hnone : (Session.dispatched r rest s).consent = none := hconsent
        rw [result_storeTcString_none (.inr hnone)]
        exact ih rfl hsent
      | some c =>
        have hstored := hsent.stored hconsent (hrecorded c hconsent) ((h.documents.deliver _ _ r).2 t ht)
        obtain ⟨b, hb⟩ := core_storeTcString (some t) (Session.dispatched r rest s)
        rw [leaves] at hb
        rcases hr : result (storeTcString (some t)) (Session.dispatched r rest s) with ⟨e | u, v⟩
        · rw [hr] at hstored
          exact hstored
        · rw [hr] at hstored hb
          have hrest := ih (congrArg Core.pending hb) hstored
          dsimp only
          rw [List.getLast?_append, Option.or_assoc]
          exact hrest

theorem reset (h : Coherent last s) : Coherent ((changesOf .reset s).getLast?.or last) (after .reset s) := by
  have hcore := (congrArg core (leaves_discard Session.reset s)).trans (core_reset s)
  have hconfig : (after .reset s).config = s.config := congrArg Core.config hcore
  have hserver : (after .reset s).server = s.server := congrArg Core.server hcore
  have hconsent : (after .reset s).consent = none := congrArg Core.consent hcore
  have hbrowser : (after .reset s).browser = s.store.clear s.browser := congrArg Core.browser hcore
  have hstore : (after .reset s).store = s.store := by rw [store, hconfig, store]
  refine ⟨hconfig ▸ h.plain, hserver ▸ h.documents, fun _ => ?_, fun _ => ?_⟩
  · rw [hconsent]
    intro c hc
    cases hc
  · rw [InStep, hstore, hbrowser, hconsent]
    exact ConsentStore.load_clear h.plain s.browser

theorem advance (h : Coherent last s) (seconds : Json) : Coherent last (after (.advance seconds) s) := by
  have hafter : after (.advance seconds) s = leaves (Session.advance seconds) s := rfl
  rw [hafter, leaves_advance]
  cases hb : s.browser.advance seconds with
  | error f => exact h
  | ok b =>
    obtain ⟨ms, -, hnow⟩ := bind_eq_ok.1 hb
    obtain ⟨now, -, hnow⟩ := bind_eq_ok.1 hnow
    cases hnow
    exact ⟨h.plain, h.documents, h.recorded, fun hlast => (h.inStep hlast).of_get? rfl rfl rfl⟩

end Coherent

/-- An event that writes cookies behind the page's back. -/
def Event.writesCookie : Event → Bool
  | .setCookie _ => true
  | _ => false

theorem coherent_after (e : Event) (he : e.writesCookie = false) {last : Option Bool} {s : Session}
    (h : Coherent last s) (hfresh : Fresh s) (hdated : Dated s) :
    Coherent ((changesOf e s).getLast?.or last) (after e s) := by
  cases e with
  | start => exact h.start hfresh
  | act name categories => exact h.act hdated name categories
  | reset => exact h.reset
  | flush =>
    rw [after_flush, changesOf]
    exact h.sendAll s.pending rfl
  | advance seconds => exact h.advance seconds
  | setCookie cookie => cases he
  | icon => exact h.of_core ((keeps_core fun h => .discard h.clickIcon).eq s)
  | tick => exact h.of_core ((keeps_core fun h => .discard h.tick).eq s)
  | resize width => exact h.of_core ((keeps_core fun h => .discard (h.resize width)).eq s)
  | call command version listener parameter => exact h.of_core ((keeps_core fun h => h.callApi _ _ _ _).eq s)
  | receive message => exact h.of_core ((keeps_core fun h => .discard (h.receive message)).eq s)

theorem coherent_run (events : List Event) (hevents : ∀ e ∈ events, e.writesCookie = false) {last : Option Bool}
    {s : Session} (h : Coherent last s) (hfresh : Fresh s) (hdated : Dated s) :
    Coherent ((changes events s).getLast?.or last) (run events s) := by
  induction events generalizing last s with
  | nil => exact h
  | cons e rest ih =>
    have hstep := coherent_after e (hevents e List.mem_cons_self) h hfresh hdated
    have hrest := ih (fun e he => hevents e (List.mem_cons_of_mem _ he)) hstep (fresh_after e hfresh)
      (dated_after e hfresh hdated)
    rw [changes, List.getLast?_append, Option.or_assoc]
    exact hrest

theorem coherent_of_create {config : ClientConfig} {environment : Environment} {components : List Component}
    {browser : Browser} {server : Server} {s : Session}
    (hcreate : create config environment components browser server = .ok s)
    (hid : Cookie.IsPlainName config.bannerId) (hserver : server.AnswersDocuments) :
    Coherent none s ∧ Fresh s ∧ Dated s := by
  obtain ⟨reason, -, hcreate⟩ := bind_eq_ok.1 hcreate
  cases hcreate
  exact ⟨⟨hid, hserver.gives, fun _ => nofun, nofun⟩, fun _ => rfl, nofun⟩

/-- A page whose consent cookie, if it is written now, expires on a day of the calendar. -/
def Expires (s : Session) : Prop :=
  ∃ now expiry, Moment.ofMillis s.browser.now = .ok now ∧ now.addDays s.store.cookieExpiry = .ok expiry

theorem Expires.congr {s t : Session} (hconfig : t.config = s.config) (hnow : t.browser.now = s.browser.now)
    (h : Expires s) : Expires t := by
  have hstore : t.store = s.store := by rw [store, hconfig, store]
  rw [Expires, hstore, hnow]
  exact h

/-- Nothing but the day of expiry keeps a consent from being written. -/
theorem Expires.save {s : Session} (h : Expires s) (c : Consent) :
    ∃ b, s.store.save c s.browser = .ok b ∧ b.now = s.browser.now := by
  obtain ⟨now, expiry, hnow, hexpiry⟩ := h
  rw [ConsentStore.save, Cookie.format, hnow]
  dsimp only [bind, Except.bind]
  rw [hexpiry]
  exact ⟨_, rfl, rfl⟩

theorem storedAnswers_eq_true {rs : List Report} {s : Session} (h : Expires s) :
    ∀ b ∈ storedAnswers rs s, b = true := by
  induction rs generalizing s with
  | nil => exact nofun
  | cons r rest ih =>
    have hsent : Expires (dispatched r rest s) := h
    rw [storedAnswers]
    cases ht : answerTo r s with
    | none =>
      rw [result_storeTcString_none (.inl rfl)]
      exact ih hsent
    | some t =>
      cases hconsent : s.consent with
      | none =>
        have hnone : (dispatched r rest s).consent = none := hconsent
        rw [result_storeTcString_none (.inr hnone)]
        exact ih hsent
      | some c =>
        have hsome : (dispatched r rest s).consent = some c := hconsent
        have hstamped : Expires { dispatched r rest s with consent := some (stamped (some t) c) } := hsent
        obtain ⟨b, hsave, hnow⟩ := hstamped.save (stamped (some t) c)
        rw [result_storeTcString_some hsome, result_persist, hsave]
        intro b' hb'
        obtain rfl | hb' := List.mem_cons.1 hb'
        · rfl
        · refine ih (hstamped.congr ?_ ?_) b' hb'
          · rfl
          · exact hnow

theorem changesOf_eq_true (e : Event) {s : Session} (h : Expires s) : ∀ b ∈ changesOf e s, b = true := by
  cases e with
  | start =>
    intro b hb
    obtain ⟨-, -, rfl⟩ := List.mem_map.1 hb
    rfl
  | act name categories =>
    intro b hb
    obtain ⟨c, -, rfl⟩ := List.mem_map.1 hb
    obtain ⟨b, hsave, -⟩ := h.save c
    rw [hsave]
    rfl
  | reset =>
    intro b hb
    exact List.mem_singleton.1 hb
  | flush => exact storedAnswers_eq_true h
  | _ => exact nofun

theorem changes_eq_true (events : List Event) {s : Session}
    (h : ∀ before, before <+: events → Expires (run before s)) : ∀ b ∈ changes events s, b = true := by
  induction events generalizing s with
  | nil => exact nofun
  | cons e rest ih =>
    intro b hb
    obtain hb | hb := List.mem_append.1 hb
    · exact changesOf_eq_true e (h [] (List.nil_prefix)) b hb
    · exact ih (fun before hbefore => h (e :: before) (List.cons_prefix_cons.2 ⟨rfl, hbefore⟩)) b hb

/-- The cookie of a banner holds the consent of its page whenever the last change of that reached the cookie, whatever
the server answered: only a consent that the server gave something for that is no text cannot be loaded again. And
every change reaches the cookie as long as the cookie expires on a day of the calendar. -/
theorem run_inStep {config : ClientConfig} {environment : Environment} {components : List Component}
    {browser : Browser} {server : Server} {s : Session}
    (hcreate : create config environment components browser server = .ok s)
    (hid : Cookie.IsPlainName config.bannerId) (hserver : server.AnswersDocuments) (events : List Event)
    (hevents : ∀ e ∈ events, e.writesCookie = false) :
    ((changes events s).getLast? = some true →
      (run events s).store.load (run events s).browser = .ok ((run events s).consent.filter Consent.hasText)) ∧
    ((∀ before, before <+: events → Expires (run before s)) → ∀ b ∈ changes events s, b = true) := by
  refine ⟨fun hlast => ?_, changes_eq_true events⟩
  obtain ⟨hnew, hfresh, hdated⟩ := coherent_of_create hcreate hid hserver
  have hcoherent := coherent_run events hevents hnew hfresh hdated
  rw [hlast] at hcoherent
  exact hcoherent.inStep rfl

/-- A page whose server gives a number for the first report. -/
def numberedSession : Session :=
  { plainSession with server := { responses := [.answered 200 (.obj [("data", .obj [("tcString", .int 5)])])] } }

theorem create_numberedSession :
    create numberedSession.config {} [] {} numberedSession.server = .ok numberedSession := rfl

/-- A visitor allows everything, and the report of that is sent. -/
def acceptance : List Event := [.start, .act "accept_all" .null, .flush]

theorem run_inStep_numbered :
    (run acceptance numberedSession).store.load (run acceptance numberedSession).browser = .ok none ∧
      (run acceptance numberedSession).consent.isSome := by
  have hserver : numberedSession.server.AnswersDocuments := by
    rintro status body hmem
    cases List.mem_singleton.1 hmem
    decide
  have hid : Cookie.IsPlainName numberedSession.config.bannerId := ⟨by decide, by decide, by decide⟩
  have hload := (run_inStep create_numberedSession hid hserver acceptance (by decide)).1 (by decide +kernel)
  have hnone : (run acceptance numberedSession).consent.filter Consent.hasText = none := by decide +kernel
  rw [hnone] at hload
  exact ⟨hload, by decide +kernel⟩

end Session

end ConsentBanner
