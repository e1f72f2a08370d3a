import ConsentBanner.Proofs.Session.Decision
import ConsentBanner.Proofs.Session.Start
import ConsentBanner.Proofs.Time.Clock

/-!
What a page finds of a decision that was made on the page before it.
-/

namespace ConsentBanner

theorem Text.percentEncode_of_isUnreserved {s : String} (h : ∀ c ∈ s.toList, isUnreserved c) : percentEncode s = s := by
  have hkept : ∀ cs : List Char, (∀ c ∈ cs, isUnreserved c) → cs.flatMap percentChar = cs := by
    intro cs hcs
    induction cs with
    | nil => rfl
    | cons c rest ih =>
      have hc : percentChar c = [c] := by rw [percentChar, if_pos (hcs c List.mem_cons_self)]
      rw [List.flatMap_cons, hc, ih fun d hd => hcs d (List.mem_cons_of_mem _ hd), List.singleton_append]
  rw [percentEncode, hkept _ h, String.ofList_toList]

namespace Visitor

/-- An identifier as pages make them: of a time and random letters and digits. -/
def IsGenerated (id : String) : Prop :=
  ∃ (ms : Int) (random : String), (∀ c ∈ random.toList, c.isAlphanum) ∧ id = "user_" ++ toString ms ++ "_" ++ random

theorem isUnreserved_of_mem_int {n : Int} {c : Char} (h : c ∈ (toString n).toList) : Text.isUnreserved c := by
  have hdigit {n : Nat} (h : c ∈ Nat.toDigits 10 n) : Text.isUnreserved c := by
    have hc : c.isDigit := Nat.isDigit_of_mem_toDigits (by decide) (by decide) h
    rw [Text.isUnreserved, Char.isAlphanum, hc, Bool.or_true, Bool.true_or]
  rw [Text.toList_toString] at h
  split at h
  · exact hdigit h
  · obtain rfl | h := List.mem_cons.1 h
    · decide
    · exact hdigit h

theorem IsGenerated.percentEncode {id : String} (h : IsGenerated id) : Text.percentEncode id = id := by
  obtain ⟨ms, random, hrandom, rfl⟩ := h
  apply Text.percentEncode_of_isUnreserved
  intro c hc
  simp only [String.toList_append, List.mem_append] at hc
  obtain ((hc | hc) | hc) | hc := hc
  · exact Text.forall_mem_of_all (by decide : ("user_".toList.all fun c => decide (Text.isUnreserved c)) = true) c hc
  · exact isUnreserved_of_mem_int hc
  · exact Text.forall_mem_of_all (by decide : ("_".toList.all fun c => decide (Text.isUnreserved c)) = true) c hc
  · rw [Text.isUnreserved, hrandom c hc, Bool.true_or]

theorem IsGenerated.ne_empty {id : String} (h : IsGenerated id) : id ≠ "" := by
  obtain ⟨ms, random, -, rfl⟩ := h
  intro hempty
  have hlist := congrArg String.toList hempty
  simp at hlist

/-- The browser knows its visitor by an identifier. -/
structure IsKnown (id : String) (b : Browser) : Prop where
  cookie : b.jar.get? key = some (Text.percentEncode id)
  item : Fields.get? key b.storage = some id

theorem isKnown_of_identify {b b' : Browser} {id : String} (h : identify b = .ok (id, b')) : IsKnown id b' := by
  obtain ⟨cookie, hcookie, h⟩ := bind_eq_ok.1 h
  cases h
  have hkey : Cookie.IsPlainName key := ⟨by decide, by decide, by decide⟩
  exact ⟨CookieJar.get?_set_self (CookieJar.pair_format hkey hcookie) b.jar, Fields.get?_set_self _ _ _⟩

theorem eq_current_of_identify {b b' : Browser} {id : String} (h : identify b = .ok (id, b')) : id = current b := by
  obtain ⟨cookie, -, h⟩ := bind_eq_ok.1 h
  cases h
  rfl

/-- A visitor who is known keeps an identifier that a page made, and is given no other. -/
theorem IsKnown.current {id : String} {b : Browser} (h : IsKnown id b) (hid : IsGenerated id) : current b = id := by
  have hne := hid.ne_empty
  rw [Visitor.current, h.cookie, hid.percentEncode, Option.getD_some]
  split
  · exact absurd rfl hne
  · exact absurd rfl hne
  · rfl

end Visitor

namespace Session

/-- A policy by which a decision of a given time is not due again yet. -/
def IsRecent (policy : TimedPolicy) (epoch now : Int) : Prop :=
  policy.enabled = false ∨
    (policy.seconds.exceeds 0 = true ∧ (Number.int (now - epoch)).compare? policy.seconds.thousandfold = some .lt)

theorem isDue_spec (policy : TimedPolicy) {decided : Moment} {epoch : Int} (now : Int)
    (h : decided.epochMillis = .ok epoch) :
    ∃ due, isDue policy decided (.int now) = .ok due ∧ (due = false ↔ IsRecent policy epoch now) := by
  unfold isDue IsRecent
  rw [h]
  cases policy.enabled with
  | false => exact ⟨false, rfl, by simp⟩
  | true =>
    cases policy.seconds.exceeds 0 with
    | false => exact ⟨true, rfl, by simp⟩
    | true =>
      refine ⟨_, rfl, ?_⟩
      simp [Int.sub_eq_add_neg]

theorem lastUpdated_of_decisionOf {action : ActionKind} {categories : Json} {s : Session} {c : Consent}
    (h : decisionOf action categories s = .ok c) :
    ∃ decided, Moment.ofMillis s.browser.now = .ok decided ∧ c.lastUpdated = some decided := by
  obtain ⟨now, hnow, h⟩ := bind_eq_ok.1 h
  obtain ⟨c', hc', h⟩ := bind_eq_ok.1 h
  refine ⟨now, hnow, ?_⟩
  have hupdated : c'.lastUpdated = some now := by
    unfold consentOf at hc'
    split at hc'
    · cases hc'
      rfl
    · cases hc'
      rfl
    · obtain ⟨switches, -, hc'⟩ := bind_eq_ok.1 hc'
      cases hc'
      rfl
  split at h
  · cases h
    exact hupdated
  · cases h
    exact hupdated

/-- The report of a decision names the visitor that the browser knows from then on. -/
theorem isKnown_of_reportOf {action : ActionKind} {c : Consent} {s t : Session} {r : Report}
    (h : result (reportOf action c) s = (.ok r, t)) : Visitor.IsKnown r.userId t.browser := by
  obtain ⟨_, u, -, h⟩ := result_bind_eq_ok.1 h
  obtain ⟨_, v, -, h⟩ := result_bind_eq_ok.1 h
  obtain ⟨id, w, hid, h⟩ := result_bind_eq_ok.1 h
  obtain ⟨m, x, hmetadata, h⟩ := result_bind_eq_ok.1 h
  obtain ⟨i, y, hinteraction, h⟩ := result_bind_eq_ok.1 h
  have hkept : y.browser = w.browser := by
    have hx : Keeps (·.browser) reportMetadata := fun _ => OffDisplay.reportMetadata
    have hy {x : Checked Interaction} : Keeps (·.browser) (SessionM.checked x) := fun _ => .checked _
    exact (hy.of_result hinteraction).trans (hx.of_result hmetadata)
  cases h
  rw [result_identify] at hid
  split at hid
  · rename_i id' b hidentify
    cases hid
    rw [hkept]
    exact Visitor.isKnown_of_identify hidentify
  · cases hid

theorem known_of_applyDecision {action : ActionKind} {categories : Json} {s t : Session}
    (h : result (applyDecision action categories) s = (.ok (), t)) :
    t.phase = .hidden ∧ ∃ r ∈ t.pending.getLast?, Visitor.IsKnown r.userId t.browser := by
  rw [result_applyDecision] at h
  split at h
  · cases h
  · split at h
    · cases h
    · split at h
      · cases h
      · rename_i r u hreport
        cases h
        refine ⟨phase_inPhase _ _, r, List.getLast?_concat, ?_⟩
        exact isKnown_of_reportOf (t := u) hreport

/-- Events that write neither the consent of a store nor the visitor's identifier: no decision, no reset, no flush, and
no writing of these two cookies from outside. -/
def Event.Spares (store : ConsentStore) : Event → Prop
  | .act name _ => ∀ action, Named.ofName? name = some action → isDecision action = false
  | .reset => False
  | .flush => False
  | .setCookie cookie =>
    (CookieJar.pair cookie).1 ≠ store.cookieName ∧ (CookieJar.pair cookie).1 ≠ Visitor.key
  | _ => True

/-- A browser that holds the same consent and the same identifier as another one. -/
structure IsSpared (store : ConsentStore) (b b' : Browser) : Prop where
  consent : b'.jar.get? store.cookieName = b.jar.get? store.cookieName
  cookie : b'.jar.get? Visitor.key = b.jar.get? Visitor.key
  storage : b'.storage = b.storage

theorem spared_of_eq {store : ConsentStore} {b b' : Browser} (h : b' = b) : IsSpared store b b' := by
  rw [h]
  exact ⟨rfl, rfl, rfl⟩

theorem spared_after {e : Event} {s : Session} (hstarted : Started s) (he : e.Spares s.store) :
    IsSpared s.store s.browser (after e s).browser := by
  have kept {m : SessionM Unit} (hm : Keeps core m) : IsSpared s.store s.browser (leaves m s).browser :=
    spared_of_eq (congrArg Core.browser (hm.eq s))
  cases e with
  | start =>
    have hafter : core (after .start s) = core s :=
      (congrArg core (leaves_discard _ s)).trans (core_start_of_started hstarted)
    exact spared_of_eq (congrArg Core.browser hafter)
  | act name categories =>
    have hafter : core (after (.act name categories) s) = core (leaves (handle name categories) s) :=
      congrArg core (leaves_discard _ s)
    have hnone : decisionNamed name s = none := by
      unfold decisionNamed
      split
      · rw [Option.filter_eq_none_iff]
        intro action haction
        rw [he action haction]
        decide
      · rfl
    rw [core_handle, hnone] at hafter
    exact spared_of_eq (congrArg Core.browser hafter)
  | icon => exact kept (keeps_core fun h => .discard h.clickIcon)
  | tick => exact kept (keeps_core fun h => .discard h.tick)
  | resize width => exact kept (keeps_core fun h => .discard (h.resize width))
  | call command version listener parameter => exact kept (keeps_core fun h => h.callApi _ _ _ _)
  | receive message => exact kept (keeps_core fun h => .discard (h.receive message))
  | reset => exact he.elim
  | flush => exact he.elim
  | setCookie cookie =>
    exact ⟨CookieJar.get?_set_of_ne he.1 s.browser.jar, CookieJar.get?_set_of_ne he.2 s.browser.jar, rfl⟩
  | advance seconds =>
    have hafter : after (.advance seconds) s = leaves (advance seconds) s := rfl
    rw [hafter, leaves_advance]
    cases hadvance : s.browser.advance seconds with
    | error f => exact spared_of_eq rfl
    | ok b =>
      obtain ⟨ms, -, hnow⟩ := bind_eq_ok.1 hadvance
      obtain ⟨now, -, hnow⟩ := bind_eq_ok.1 hnow
      cases hnow
      exact ⟨rfl, rfl, rfl⟩

theorem spared_run (rest : List Event) {s : Session} (hstarted : Started s) (hrest : ∀ e ∈ rest, e.Spares s.store) :
    IsSpared s.store s.browser (run rest s).browser := by
  induction rest generalizing s with
  | nil => exact spared_of_eq rfl
  | cons e rest ih =>
    have hconfig : (after e s).config = s.config := (lasting_config s.config).perform e s rfl
    have hstore : (after e s).store = s.store := by rw [store, hconfig, store]
    have hstep := spared_after hstarted (hrest e List.mem_cons_self)
    have hrun := ih (started_after e hstarted) (by rw [hstore]; exact fun e he => hrest e (List.mem_cons_of_mem _ he))
    rw [hstore] at hrun
    exact ⟨hrun.consent.trans hstep.consent, hrun.cookie.trans hstep.cookie, hrun.storage.trans hstep.storage⟩

/-- A browser that has a decision, and the identifier of the visitor who made it, for the next page. -/
structure Retains (store : ConsentStore) (c : Consent) (id : String) (b : Browser) : Prop where
  consent : store.Holds b c
  visitor : Visitor.IsKnown id b

theorem IsSpared.retains {store : ConsentStore} {b b' : Browser} {c : Consent} {id : String}
    (h : IsSpared store b b') (hb : Retains store c id b) : Retains store c id b' :=
  ⟨h.consent.trans hb.consent, h.cookie.trans hb.visitor.cookie,
    (congrArg (Fields.get? Visitor.key) h.storage).trans hb.visitor.item⟩

theorem retains_of_handle {s t : Session} {name : String} {action : ActionKind} {categories : Json} {phase : Phase}
    (hid : Cookie.IsPlainName s.config.bannerId) (hname : Named.ofName? name = some action)
    (haction : isDecision action) (hdone : result (handle name categories) s = (.ok phase, t)) :
    ∃ c r, CarriedOut action categories s t c r ∧ t.phase = .hidden ∧ Retains s.store c r.userId t.browser := by
  obtain ⟨c, r, hcarried⟩ := carriedOut_of_handle hname haction hdone
  obtain ⟨hphase, r', hr', hknown⟩ := known_of_applyDecision (applyDecision_of_handle hname haction hdone)
  obtain rfl : r = r' := by
    rw [hcarried.pending, List.getLast?_concat] at hr'
    exact Option.some.inj hr'
  obtain ⟨b, hsave, hidentified⟩ := hcarried.saved
  refine ⟨c, r, hcarried, hphase, ?_, hknown⟩
  rw [ConsentStore.Holds, hidentified.get?]
  exact ConsentStore.holds_of_save (s := s.store) hid hsave

/-- What a page has of a decision that was made before it, once it has started: the decision itself, its visitor by the
same identifier, and a banner only if the decision is due again. -/
structure Resumes (policy : TimedPolicy) (c : Consent) (id : String) (epoch now : Int) (fresh s : Session) : Prop where
  consent : s.consent = some c
  visitor : Visitor.IsGenerated id → Visitor.current fresh.browser = id ∧ Visitor.IsKnown id s.browser
  hidden : s.phase = .hidden ↔ IsRecent policy epoch now
  visible : ¬ IsRecent policy epoch now → s.phase = .bannerVisible

section Start

variable {fresh : Session} {c : Consent} {decided : Moment} {epoch now : Int} {id : String}

theorem dueAgain_spec (hnow : fresh.browser.now = .int now) (hdecided : c.lastUpdated = some decided)
    (hepoch : decided.epochMillis = .ok epoch) :
    ∃ due, dueAgain fresh (some c) = .ok due ∧ (due = false ↔ IsRecent fresh.config.reshow epoch now) := by
  rw [dueAgain, Option.bind_some, hdecided, hnow]
  exact isDue_spec fresh.config.reshow now hepoch

theorem resumes_start (hready : Ready fresh) (hload : fresh.store.load fresh.browser = .ok (some c))
    (hnow : fresh.browser.now = .int now) (hdecided : c.lastUpdated = some decided)
    (hepoch : decided.epochMillis = .ok epoch) (hknown : Visitor.IsKnown id fresh.browser) :
    ∃ s, result (perform .start) fresh = (.ok (), s) ∧ Resumes fresh.config.reshow c id epoch now fresh s := by
  obtain ⟨due, hdue, hrecent⟩ := dueAgain_spec hnow hdecided hepoch
  obtain ⟨s, hstart, hphase⟩ := hready.start_ok hload hdue
  obtain ⟨b, hcore, hidentified⟩ := core_start hready.init hload
  have hs : core s = { core fresh with consent := some c, browser := b } := by
    rw [← hcore, ← leaves_discard]
    exact congrArg (fun r => core r.2) hstart.symm
  refine ⟨s, hstart, congrArg Core.consent hs, fun hid => ⟨hknown.current hid, ?_⟩, ?_, ?_⟩
  · have hbrowser : s.browser = b := congrArg Core.browser hs
    rw [hbrowser]
    obtain rfl | ⟨id', hidentify⟩ := hidentified
    · exact hknown
    · have heq := Visitor.eq_current_of_identify hidentify
      rw [hknown.current hid] at heq
      exact heq ▸ Visitor.isKnown_of_identify hidentify
  · rw [hphase, ← hrecent]
    cases due with
    | true => simp
    | false => simp
  · intro hdue
    rw [← hrecent] at hdue
    rw [hphase, if_pos (by simpa using hdue)]

theorem start_stranded (hinit : fresh.phase = .init) (hload : fresh.store.load fresh.browser = .ok (some c))
    (hnow : fresh.browser.now = .int now) (hdecided : c.lastUpdated = some decided)
    (hepoch : decided.epochMillis = .ok epoch) (hforgets : ¬ Remembers fresh) :
    ∃ f s, result (perform .start) fresh = (.error (.fault f), s) := by
  obtain ⟨due, hdue, -⟩ := dueAgain_spec hnow hdecided hepoch
  have hload' : (Ready.found (some c) fresh).store.load (Ready.found (some c) fresh).browser = .ok (some c) := hload
  have hdue' : dueAgain (Ready.found (some c) fresh) (some c) = .ok due := hdue
  rcases hidentify : Visitor.identify fresh.browser with f | ⟨id, b⟩
  · have hidentify' : Visitor.identify (Ready.found (some c) fresh).browser = .error f := hidentify
    change ∃ f s, result (discard start) fresh = _
    rw [result_discard, Ready.result_start hinit, hload]
    dsimp only
    rw [result_bind, result_shouldShow hload', hdue']
    dsimp only [mapError_ok]
    rw [result_bind, result_discard, result_identify, hidentify']
    exact ⟨f, _, rfl⟩
  · exact absurd (remembers_iff.2 ⟨id, b, hidentify⟩) hforgets

end Start

/-- After a decision was completed, and whatever else happened to its page, the next page on the same browser starts
with that decision and the same visitor. It asks again unless the decision is recent, by a count of milliseconds since
the decision that is off by at most one; and it does not start if the visitor's cookie would expire beyond the
calendar. -/
theorem run_resumes {config : ClientConfig} {environment environment' : Environment}
    {components components' : List Component} {browser : Browser} {server server' : Server} {s t fresh : Session}
    (hcreate : create config environment components browser server = .ok s)
    (hid : Cookie.IsPlainName config.bannerId) (before : List Event) {name : String} {action : ActionKind}
    {categories : Json} {phase : Phase} (hname : Named.ofName? name = some action) (haction : isDecision action)
    (hdone : result (handle name categories) (run before s) = (.ok phase, t))
    (rest : List Event) (hrest : ∀ e ∈ rest, e.Spares s.store) {now : Int} {randomText : String}
    (hfresh : create config environment' components'
      { (run rest t).browser with now := .int now, randomText := randomText } server' = .ok fresh)
    (hwidth : ∃ w, Number.ofScalar? environment'.viewportWidth = some w) :
    ∃ c r decided epoch,
      decisionOf action categories (run before s) = .ok c ∧ t.pending = (run before s).pending ++ [r] ∧
      c.lastUpdated = some decided ∧ decided.epochMillis = .ok epoch ∧
      (epoch - decided.epochMicros.tdiv 1000).natAbs ≤ 1 ∧
      (Remembers fresh → ∃ u, result (perform .start) fresh = (.ok (), u) ∧
        Resumes config.reshow c r.userId epoch now fresh u) ∧
      (¬ Remembers fresh → ∃ f u, result (perform .start) fresh = (.error (.fault f), u)) := by
  have hbegins := begins_of_create hcreate
  have hbegins' := begins_of_create hfresh
  have hconfig := hbegins.config_run before
  obtain ⟨c, r, hcarried, hphase, hretains⟩ := retains_of_handle (hconfig ▸ hid) hname haction hdone
  obtain ⟨decided, hmillis, hdecided⟩ := lastUpdated_of_decisionOf hcarried.decision
  obtain ⟨epoch, hepoch, hnear⟩ :=
    Moment.epochMillis_near (Moment.zone_of_ofMillis hmillis) (Moment.isZoned_of_ofMillis hmillis)
  -- What was stored with the decision is still there when the next page looks for it.
  have hstore : t.store = (run before s).store := by rw [store, store, hcarried.config]
  have hsame : t.store = s.store := by rw [hstore, store, store, config_run]
  have hstarted : Started t := by
    rw [Started, hphase]
    decide
  have hlater : Retains t.store c r.userId (run rest t).browser :=
    (spared_run rest hstarted (hsame.symm ▸ hrest)).retains (hstore.symm ▸ hretains)
  have hload : fresh.store.load fresh.browser = .ok (some c) := by
    have hfound : fresh.store = t.store := by rw [store, store, hcarried.config, hconfig, hbegins'.config]
    rw [hfound, hbegins'.browser]
    exact ConsentStore.Holds.load hlater.consent (isStorable_of_decisionOf (hbegins.dated_run before) hcarried.decision)
  have hnow : fresh.browser.now = .int now := by rw [hbegins'.browser]
  have hvisitor : Visitor.IsKnown r.userId fresh.browser := by
    rw [hbegins'.browser]
    exact ⟨hlater.visitor.cookie, hlater.visitor.item⟩
  refine ⟨c, r, decided, epoch, hcarried.decision, hcarried.pending, hdecided, hepoch, hnear, fun hremembers => ?_,
    start_stranded hbegins'.phase hload hnow hdecided hepoch⟩
  have hready : Ready fresh := by
    obtain ⟨today, expiry, htoday, hexpiry⟩ := hremembers
    exact ⟨hbegins'.phase, ⟨now, hnow⟩, ⟨expiry, bind_eq_ok.2 ⟨today, htoday, hexpiry⟩⟩, hbegins'.environment ▸ hwidth⟩
  rw [← hbegins'.config]
  exact resumes_start hready hload hnow hdecided hepoch hvisitor

/-- A page of January 2038 that asks again after a minute. -/
def lateSession : Session :=
  { plainSession with
    config := { plainSession.config with reshow := ⟨true, .int 60⟩ }
    browser := { now := .int 2147483648002 } }

theorem create_lateSession :
    create lateSession.config {} [] lateSession.browser lateSession.server = .ok lateSession := rfl

/-- A millisecond before the minute is over the next page asks again. -/
theorem run_resumes_early : ∃ phase t fresh u c decided,
    result (handle "reject_all" .null) (run [.start] lateSession) = (.ok phase, t) ∧
      create lateSession.config {} [] { (run [.tick] t).browser with now := .int 2147483708001, randomText := "1" } {} =
        .ok fresh ∧
      result (perform .start) fresh = (.ok (), u) ∧ u.consent = some c ∧ c.lastUpdated = some decided ∧
      decided.epochMicros = 2147483648002000 ∧ u.phase = .bannerVisible := by
  obtain ⟨phase, hphase⟩ : ∃ phase,
      (result (handle "reject_all" .null) (run [.start] lateSession)).1.toOption = some phase :=
    Option.isSome_iff_exists.1 (by decide +kernel)
  rcases hdone : result (handle "reject_all" .null) (run [.start] lateSession) with ⟨stop | phase', t⟩
  · rw [hdone] at hphase
    cases hphase
  · obtain ⟨fresh, hfresh⟩ : ∃ fresh, create lateSession.config {} []
        { (run [.tick] t).browser with now := .int 2147483708001, randomText := "1" } {} = .ok fresh := ⟨_, rfl⟩
    have hid : Cookie.IsPlainName lateSession.config.bannerId := ⟨by decide, by decide, by decide⟩
    have hname : (Named.ofName? "reject_all" : Option ActionKind) = some .rejectAll := by decide
    have hspares : ∀ e ∈ [Event.tick], e.Spares lateSession.store := by
      intro e he
      rw [List.mem_singleton.1 he]
      trivial
    obtain ⟨c, r, decided, epoch, hdecision, -, hdecided, hepoch, -, hresumes, -⟩ :=
      run_resumes create_lateSession hid [.start] hname rfl hdone [.tick] hspares hfresh ⟨.int 1280, rfl⟩
    have hmoment : (decisionOf .rejectAll .null (run [.start] lateSession)).toOption.bind (·.lastUpdated) =
        some decided := by
      rw [hdecision]
      exact hdecided
    have hmicros : ((decisionOf .rejectAll .null (run [.start] lateSession)).toOption.bind (·.lastUpdated)).map
        (fun m => (m.epochMicros, m.epochMillis)) = some (2147483648002000, .ok 2147483648001) := by
      decide +kernel
    rw [hmoment, Option.map_some, Option.some.injEq, Prod.mk.injEq, hepoch, Except.ok.injEq] at hmicros
    obtain ⟨hexact, rfl⟩ := hmicros
    have hremembers : Remembers fresh := by
      obtain ⟨expiry, hexpiry⟩ := exists_eq_ok
        (x := Moment.ofMillis (.int 2147483708001) >>= fun now => now.addDays Visitor.cookieDays) (by decide +kernel)
      obtain ⟨now, hnow, hexpiry⟩ := bind_eq_ok.1 hexpiry
      refine ⟨now, expiry, ?_, hexpiry⟩
      cases hfresh
      exact hnow
    obtain ⟨u, hstart, hresumed⟩ := hresumes hremembers
    refine ⟨phase', t, fresh, u, c, decided, rfl, hfresh, hstart, hresumed.consent, hdecided, hexact, ?_⟩
    apply hresumed.visible
    unfold IsRecent
    decide +kernel

end Session

end ConsentBanner
