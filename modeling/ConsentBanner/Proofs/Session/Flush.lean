import ConsentBanner.Proofs.Consent.Delivery
import ConsentBanner.Proofs.Session.Decision

/-!
What a flush sends. The reports go out in the order of the queue, each taken off before it is sent. Only an answer that
cannot be stored with the consent stops the sending.
-/

namespace ConsentBanner.Session

open Report (Exchanged given? Reduces)

/-- A page on which no answer can stop the sending of reports: it has no consent to store one with, or the cookie of its
consent expires on a day of the calendar. -/
def Unhindered (s : Session) : Prop := Expires s ∨ s.consent = none

/-- What the sending of the reports that are left depends on. -/
def outlook (s : Session) : ClientConfig × Server × List Report × Number × Bool :=
  (s.config, s.server, s.pending, s.browser.now, s.consent.isNone)

theorem Unhindered.of_outlook {s t : Session} (h : outlook t = outlook s) : Unhindered t ↔ Unhindered s := by
  simp only [outlook, Prod.mk.injEq] at h
  obtain ⟨hconfig, -, -, hnow, hnone⟩ := h
  have hexpires : Expires t ↔ Expires s := ⟨.congr hconfig.symm hnow.symm, .congr hconfig hnow⟩
  have hconsent : t.consent = none ↔ s.consent = none := by
    rw [← Option.isNone_iff_eq_none, hnone, Option.isNone_iff_eq_none]
  rw [Unhindered, Unhindered, hexpires, hconsent]

theorem keeps_storeTcString (t : Option Json) : Keeps outlook (storeTcString t) := by
  intro k s hs
  by_cases h : t = none ∨ s.consent = none
  · rw [leaves, result_storeTcString_none h]
    exact hs
  · rw [not_or] at h
    obtain ⟨t, rfl⟩ := Option.ne_none_iff_exists'.1 h.1
    obtain ⟨c, hc⟩ := Option.ne_none_iff_exists'.1 h.2
    rw [outlook, hc] at hs
    rw [leaves, result_storeTcString_some hc, result_persist]
    split
    · rename_i b hsave
      rw [← hs, outlook, ConsentStore.now_save hsave]
      rfl
    · exact hs

/-- Storing an answer fails exactly if there is one and it has to go into a cookie that cannot be written. -/
theorem storeTcString_cases (t : Option Json) (s : Session) :
    ((result (storeTcString t) s).1 = .ok () ∧ (Unhindered s ∨ t = none)) ∨
      ∃ f, (result (storeTcString t) s).1 = .error (.fault f) ∧ ¬ Unhindered s ∧ t ≠ none := by
  by_cases h : t = none ∨ s.consent = none
  · rw [result_storeTcString_none h]
    exact .inl ⟨rfl, h.elim .inr fun h => .inl (.inr h)⟩
  · rw [not_or] at h
    obtain ⟨t, rfl⟩ := Option.ne_none_iff_exists'.1 h.1
    obtain ⟨c, hc⟩ := Option.ne_none_iff_exists'.1 h.2
    have hexpires := expires_iff (s := s) (stamped (some t) c)
    rw [result_storeTcString_some hc, result_persist]
    dsimp only [store] at hexpires ⊢
    split
    · rename_i b hsave
      exact .inl ⟨rfl, .inl (.inl (hexpires.2 ⟨b, hsave⟩))⟩
    · rename_i f hsave
      refine .inr ⟨f, rfl, ?_, h.1⟩
      rintro (hday | hnone)
      · obtain ⟨b, hb⟩ := hexpires.1 hday
        rw [hsave] at hb
        cases hb
      · exact h.2 hnone

theorem result_sendAll_cons (r : Report) (rest : List Report) (s : Session) :
    result (sendAll (r :: rest)) s =
      match result (storeTcString (answerTo r s)) (dispatched r rest s) with
      | (.ok _, t) => result (sendAll rest) t
      | (.error e, t) => (.error e, t) := by
  rw [sendAll, result_bind, result_get]
  dsimp only
  rw [result_bind, result_modify]
  dsimp only
  rw [result_bind, ← answerTo, ← dispatched]
  rcases result (storeTcString (answerTo r s)) (dispatched r rest s) with ⟨e | u, t⟩
  · rfl
  · rfl

/-- How the sending of reports ends: with nothing left, or after the first report whose answer is to be stored in a
cookie that cannot be written. -/
inductive Ends {α : Type} (a : α) (s : Session) (left : List Report) (exchanged : List (List Exchange)) :
    Except Stop α → Prop where
  | sent (hleft : left = []) (h : Unhindered s ∨ ∀ es ∈ exchanged, given? es = none) : Ends a s left exchanged (.ok a)
  | stopped {before : List (List Exchange)} {last : List Exchange} (f : Fault)
      (hexchanged : exchanged = before ++ [last]) (hbefore : ∀ es ∈ before, given? es = none)
      (hlast : given? last ≠ none) (h : ¬ Unhindered s) :
      Ends a s left exchanged (.error (.fault f))

/-- An answer that did not stop the sending comes before how it ends. -/
theorem Ends.cons {α : Type} {a : α} {s t : Session} {left : List Report} {es : List Exchange}
    {exchanged : List (List Exchange)} {r : Except Stop α} (hst : Unhindered t ↔ Unhindered s)
    (hes : Unhindered s ∨ given? es = none) (h : Ends a t left exchanged r) : Ends a s left (es :: exchanged) r := by
  cases h with
  | sent hleft h =>
    refine .sent hleft ?_
    obtain h | h := h
    · exact .inl (hst.1 h)
    · exact hes.imp_right fun hnone => List.forall_mem_cons.2 ⟨hnone, h⟩
  | stopped f hexchanged hbefore hlast h =>
    rw [hst] at h
    have hnone := hes.resolve_left h
    exact .stopped f (congrArg (es :: ·) hexchanged) (List.forall_mem_cons.2 ⟨hnone, hbefore⟩) hlast h

/-- What the sending of a queue of reports comes to: those from its front were sent, the others are left. -/
structure Sends (url : String) (rs : List Report) (s t : Session) (sent left : List Report)
    (exchanged : List (List Exchange)) : Prop where
  queue : rs = sent ++ left
  exchanges : List.Forall₂ Exchanged sent exchanged
  server : Server.Meets url s.server exchanged.flatten t.server
  pending : t.pending = left

theorem sendAll_sends (rs : List Report) {s : Session} (hdomain : s.config.domainId.isEmpty = false)
    (hs : s.pending = rs) : ∃ sent left exchanged,
      Sends (consentEndpoint s.config.baseUrl s.config.domainId) rs s (leaves (sendAll rs) s) sent left exchanged ∧
      Ends () s left exchanged (result (sendAll rs) s).1 := by
  induction rs generalizing s with
  | nil => exact ⟨[], [], [], ⟨rfl, .nil, .nil, hs⟩, .sent rfl (.inr nofun)⟩
  | cons r rest ih =>
    obtain ⟨es, hes, hgiven, hmeets⟩ := r.deliver_exchanged hdomain s.config.baseUrl s.server
    have hkeeps := (keeps_storeTcString (answerTo r s)).eq (dispatched r rest s)
    have hcases := storeTcString_cases (answerTo r s) (dispatched r rest s)
    rw [leaves] at hkeeps
    rw [leaves_sendAll_cons, result_sendAll_cons]
    rcases hr : result (storeTcString (answerTo r s)) (dispatched r rest s) with ⟨e | ⟨⟩, t⟩
    all_goals
      rw [hr] at hkeeps hcases
      dsimp only at hkeeps hcases ⊢
      have hserver : t.server = (dispatched r rest s).server := congrArg (·.2.1) hkeeps
      have hpending : t.pending = rest := congrArg (·.2.2.1) hkeeps
      rw [answerTo, hgiven] at hcases
    · obtain ⟨h, -⟩ | ⟨f, h, hhindered, hanswer⟩ := hcases
      · cases h
      · cases h
        refine ⟨[r], rest, [es], ⟨rfl, .cons hes .nil, ?_, hpending⟩, ?_⟩
        · rw [List.flatten_singleton, hserver]
          exact hmeets
        · exact .stopped f (List.nil_append _).symm nofun hanswer hhindered
    · obtain ⟨-, hanswer⟩ | ⟨f, h, -⟩ := hcases
      · have hunhindered : Unhindered t ↔ Unhindered s := Unhindered.of_outlook (s := dispatched r rest s) hkeeps
        have hconfig : t.config = s.config := congrArg (·.1) hkeeps
        have hdomain' : t.config.domainId.isEmpty = false := hconfig ▸ hdomain
        obtain ⟨sent, left, exchanged, ⟨hqueue, hexchanges, hmeets', hleft⟩, hends⟩ := ih hdomain' hpending
        rw [hconfig, hserver] at hmeets'
        refine ⟨r :: sent, left, es :: exchanged, ⟨congrArg (r :: ·) hqueue, .cons hes hexchanges, ?_, hleft⟩, ?_⟩
        · rw [List.flatten_cons]
          exact hmeets.append hmeets'
        · exact hends.cons hunhindered hanswer
      · cases h

/-- Without a domain every report is taken off the queue, and nothing is sent. -/
theorem sendAll_nowhere (rs : List Report) {s : Session} (hdomain : s.config.domainId.isEmpty = true)
    (hs : s.pending = rs) : result (sendAll rs) s = (.ok (), { s with pending := [] }) := by
  induction rs generalizing s with
  | nil =>
    cases s
    cases hs
    rfl
  | cons r rest ih =>
    have hnowhere := r.deliver_nowhere hdomain s.config.baseUrl s.server
    have hanswer : answerTo r s = none := congrArg (·.1) hnowhere
    have hdispatched : dispatched r rest s = { s with pending := rest } := by
      rw [dispatched, hnowhere]
    rw [result_sendAll_cons, hanswer, result_storeTcString_none (.inl rfl), hdispatched]
    exact ih hdomain rfl

theorem result_flush (s : Session) :
    result flush s =
      match result (sendAll s.pending) s with
      | (.ok _, t) => (.ok s.pending.length, t)
      | (.error e, t) => (.error e, t) := by
  rw [flush, result_bind, result_get]
  dsimp only
  rw [result_bind]
  rcases result (sendAll s.pending) s with ⟨e | u, t⟩
  · rfl
  · rfl

theorem Ends.flush {s : Session} {left : List Report} {exchanged : List (List Exchange)}
    (h : Ends () s left exchanged (result (sendAll s.pending) s).1) :
    Ends s.pending.length s left exchanged (result flush s).1 := by
  rw [result_flush]
  rcases hr : result (sendAll s.pending) s with ⟨e | u, t⟩
  all_goals rw [hr] at h
  · cases h with
    | stopped f hexchanged hbefore hlast h => exact .stopped f hexchanged hbefore hlast h
  · cases h with
    | sent hleft h => exact .sent hleft h

theorem isStorable_of_decidedBy {name : String} {categories : Json} {s : Session} (hdated : Dated s) {c : Consent}
    (h : decidedBy name categories s = some c) : c.IsStorable := by
  obtain ⟨action, -, hdecided⟩ := Option.bind_eq_some_iff.1 h
  cases hdecision : decisionOf action categories s with
  | error f =>
    rw [hdecision] at hdecided
    cases hdecided
  | ok decided =>
    rw [hdecision] at hdecided
    cases hdecided
    exact isStorable_of_decisionOf hdated hdecision

theorem isStorable_of_deedsOf {e : Event} {s : Session} (hdated : Dated s) {c : Consent} {r : Report}
    (h : (c, r) ∈ reported (deedsOf e s)) : c.IsStorable := by
  cases e with
  | act name categories =>
    obtain ⟨d, hd, hreported⟩ := List.mem_filterMap.1 h
    obtain ⟨c', hc', rfl⟩ := List.mem_map.1 hd
    rw [Option.mem_toList] at hc'
    cases hown : ((after (.act name categories) s).pending.drop s.pending.length).head? with
    | none =>
      rw [hown] at hreported
      cases hreported
    | some own =>
      rw [hown] at hreported
      cases hreported
      exact isStorable_of_decidedBy hdated hc'
  | start =>
    obtain ⟨d, hd, hreported⟩ := List.mem_filterMap.1 h
    obtain ⟨stored, -, rfl⟩ := List.mem_map.1 hd
    cases hreported
  | flush =>
    rw [deedsOf, reported_sendings] at h
    cases h
  | _ => cases h

theorem isStorable_of_reported (events : List Event) {s : Session} (hfresh : Fresh s) (hdated : Dated s) {c : Consent}
    {r : Report} (h : (c, r) ∈ reported (deeds events s)) : c.IsStorable := by
  induction events generalizing s with
  | nil => cases h
  | cons e rest ih =>
    rw [deeds, reported, List.filterMap_append] at h
    obtain h | h := List.mem_append.1 h
    · exact isStorable_of_deedsOf hdated h
    · exact ih (fresh_after e hfresh) (dated_after e hfresh hdated) h

/-- A session that a page can come to. -/
def Arises (s : Session) : Prop :=
  ∃ config environment components browser server start events,
    create config environment components browser server = .ok start ∧ run events start = s

/-- Every report that waits to be sent is about a decision that can be stored. -/
theorem Arises.pending {s : Session} (h : s.Arises) {r : Report} (hr : r ∈ s.pending) :
    ∃ c, c.IsStorable ∧ IsAbout c r := by
  obtain ⟨config, environment, components, browser, server, start, events, hcreate, rfl⟩ := h
  have hbegins := begins_of_create hcreate
  have hfresh : Fresh start := fun _ => hbegins.pending
  have hdated : Dated start := hbegins.dated_run []
  have haccounts := accounts_run events hfresh
  have hqueue := haccounts.queue.conserves
  rw [hbegins.pending, List.nil_append] at hqueue
  have hmem : r ∈ (reported (deeds events start)).map (·.2) := by
    rw [hqueue]
    exact List.mem_append_right _ hr
  obtain ⟨⟨c, r⟩, hreported, rfl⟩ := List.mem_map.1 hmem
  exact ⟨c, isStorable_of_reported events hfresh hdated hreported, haccounts.about c r hreported⟩

/-- A flush sends the reports in the order of the queue, each of them whole and once, and once more in its reduced form
exactly if the server found it too large. It sends them all and counts them, unless an answer gives a text that is to be
stored in a cookie that would expire beyond the calendar: it stops after the first such answer. Without a domain it
sends nothing. -/
theorem flush_sends (s : Session) :
    (s.config.domainId.isEmpty = false → ∃ sent left exchanged,
      Sends (consentEndpoint s.config.baseUrl s.config.domainId) s.pending s (after .flush s) sent left exchanged ∧
      Ends s.pending.length s left exchanged (result flush s).1) ∧
    (s.config.domainId.isEmpty = true →
      result flush s = (.ok s.pending.length, { s with pending := [] })) ∧
    (∀ r : Report, Reduces r.json r.reduced.json) ∧
    (s.Arises → ∀ r ∈ s.pending, ∀ f : Json.Format, (r.reduced.json.render f).length < (r.json.render f).length) := by
  refine ⟨fun hdomain => ?_, fun hdomain => ?_, fun r => r.reduces, fun harises r hr f => ?_⟩
  · obtain ⟨sent, left, exchanged, hsends, hends⟩ := sendAll_sends s.pending hdomain rfl
    rw [← after_flush] at hsends
    exact ⟨sent, left, exchanged, hsends, hends.flush⟩
  · rw [result_flush, sendAll_nowhere s.pending hdomain rfl]
  · obtain ⟨c, hc, id, i, m, rfl⟩ := harises.pending hr
    rw [Json.length_render, Json.length_render]
    exact Report.size_reduced_lt hc.purposes hc.necessary id i m

/-- A page whose consent cookie expires on the last day of the calendar. -/
def lastDaySession : Session :=
  { plainSession with config := { plainSession.config with cookieExpiry := 2913221 } }

theorem create_lastDaySession :
    create lastDaySession.config {} [] {} lastDaySession.server = .ok lastDaySession := rfl

/-- A page that has no domain to report to. -/
def nowhereSession : Session := { plainSession with config := { plainSession.config with domainId := "" } }

/-- Two decisions on one day; on the next, their reports are still to be sent. -/
def dayLater : List Event :=
  [.start, .act "accept_all" .null, .act "show_preferences" .null, .act "reject_all" .null, .advance (.int 86400)]

theorem flush_sends_dayLater :
    (run dayLater lastDaySession).pending.length = 2 ∧
    (∃ sent left exchanged,
      Sends (consentEndpoint "" "domain") (run dayLater lastDaySession).pending (run dayLater lastDaySession)
        (after .flush (run dayLater lastDaySession)) sent left exchanged ∧
      Ends 2 (run dayLater lastDaySession) left exchanged (result flush (run dayLater lastDaySession)).1 ∧
      left.length = 1) ∧
    (∀ r ∈ (run dayLater lastDaySession).pending, ∀ f : Json.Format,
      (r.reduced.json.render f).length < (r.json.render f).length) ∧
    result flush (run dayLater nowhereSession) = (.ok 2, { run dayLater nowhereSession with pending := [] }) := by
  have htwo : (run dayLater lastDaySession).pending.length = 2 := by decide +kernel
  have hnowhere : (run dayLater nowhereSession).pending.length = 2 := by decide +kernel
  obtain ⟨hflush, -, -, hshorter⟩ := flush_sends (run dayLater lastDaySession)
  obtain ⟨sent, left, exchanged, hsends, hends⟩ := hflush (by rw [config_run]; rfl)
  rw [config_run] at hsends
  rw [htwo] at hends
  have hleft : left.length = 1 := by
    rw [← hsends.pending]
    decide +kernel
  have hempty := (flush_sends (run dayLater nowhereSession)).2.1 (by rw [config_run]; rfl)
  rw [hnowhere] at hempty
  exact ⟨htwo, ⟨sent, left, exchanged, hsends, hends, hleft⟩,
    hshorter ⟨_, _, _, _, _, _, dayLater, create_lastDaySession, rfl⟩, hempty⟩

end ConsentBanner.Session
