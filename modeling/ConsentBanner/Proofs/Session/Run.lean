import ConsentBanner.Proofs.Session.Event

/-!
What a run comes to: decisions, and what becomes of their reports.
-/

namespace ConsentBanner.Session

/-- What an event comes to. -/
inductive Deed where
  /-- A consent was decided on, with the report that was queued for it. -/
  | decided (consent : Consent) (own : Option Report)
  /-- The consent of an earlier page was taken over. -/
  | loaded (consent : Option Consent)
  | forgot
  /-- A report was sent, with the text that the answer gave for its decision. -/
  | sent (report : Report) (tcString : Option Json)

namespace Deed

/-- The consent after a deed. -/
def revise (before : Option Consent) : Deed → Option Consent
  | decided c _ => some c
  | loaded c => c
  | forgot => none
  | sent _ t => before.map (stamped t)

/-- The decision that a deed queues a report of. -/
def reported? : Deed → Option (Consent × Report)
  | decided c (some r) => some (c, r)
  | _ => none

/-- The report that a deed sends, with the answer to it. -/
def sent? : Deed → Option (Report × Option Json)
  | sent r t => some (r, t)
  | _ => none

end Deed

/-- The decisions that were queued to be reported, in the order of their reports. -/
def reported (ds : List Deed) : List (Consent × Report) := ds.filterMap Deed.reported?

/-- The reports that were sent, in order, with the answers to them. -/
def answered (ds : List Deed) : List (Report × Option Json) := ds.filterMap Deed.sent?

/-- How deeds turn one queue of reports into another: reports join at the end and are sent from the front, and
nothing waits when a consent is taken over. -/
inductive Queue : List Report → List Deed → List Report → Prop where
  | nil {q : List Report} : Queue q [] q
  | decided {q q' : List Report} {ds : List Deed} (c : Consent) (own : Option Report)
      (h : Queue (q ++ own.toList) ds q') : Queue q (.decided c own :: ds) q'
  | loaded {q' : List Report} {ds : List Deed} (c : Option Consent) (h : Queue [] ds q') :
      Queue [] (.loaded c :: ds) q'
  | forgot {q q' : List Report} {ds : List Deed} (h : Queue q ds q') : Queue q (.forgot :: ds) q'
  | sent {q q' : List Report} {ds : List Deed} (r : Report) (t : Option Json) (h : Queue q ds q') :
      Queue (r :: q) (.sent r t :: ds) q'

namespace Queue

variable {q q' : List Report} {ds es : List Deed}

theorem append {q'' : List Report} (h : Queue q ds q') (h' : Queue q' es q'') : Queue q (ds ++ es) q'' := by
  induction h with
  | nil => exact h'
  | decided c own _ ih => exact .decided c own (ih h')
  | loaded c _ ih => exact .loaded c (ih h')
  | forgot _ ih => exact .forgot (ih h')
  | sent r t _ ih => exact .sent r t (ih h')

theorem split {q'' : List Report} (h : Queue q (ds ++ es) q'') : ∃ q', Queue q ds q' ∧ Queue q' es q'' := by
  induction ds generalizing q with
  | nil => exact ⟨q, .nil, h⟩
  | cons d rest ih =>
    cases h with
    | decided c own h =>
      obtain ⟨q', hd, he⟩ := ih h
      exact ⟨q', .decided c own hd, he⟩
    | loaded c h =>
      obtain ⟨q', hd, he⟩ := ih h
      exact ⟨q', .loaded c hd, he⟩
    | forgot h =>
      obtain ⟨q', hd, he⟩ := ih h
      exact ⟨q', .forgot hd, he⟩
    | sent r t h =>
      obtain ⟨q', hd, he⟩ := ih h
      exact ⟨q', .sent r t hd, he⟩

/-- No report is lost, sent twice or sent out of order. -/
theorem conserves (h : Queue q ds q') :
    q ++ (reported ds).map (·.2) = (answered ds).map (·.1) ++ q' := by
  induction h with
  | nil => exact List.append_nil _
  | decided c own _ ih =>
    rw [List.append_assoc] at ih
    cases own with
    | none => exact ih
    | some r => exact ih
  | loaded c _ ih => exact ih
  | forgot _ ih => exact ih
  | sent r t _ ih => exact congrArg (r :: ·) ih

end Queue

/-- What the server gives for the decision of a report that is sent now. -/
def answerTo (r : Report) (s : Session) : Option Json :=
  (r.deliver s.config.baseUrl s.config.domainId s.server).1

/-- The session after a report was sent, with the reports that are left. -/
def dispatched (r : Report) (rest : List Report) (s : Session) : Session :=
  { s with pending := rest, server := (r.deliver s.config.baseUrl s.config.domainId s.server).2 }

/-- The reports that a flush sends: all of them, unless storing an answer fails. -/
def sendings : List Report → Session → List Deed
  | [], _ => []
  | r :: rest, s =>
    .sent r (answerTo r s) ::
      match result (storeTcString (answerTo r s)) (dispatched r rest s) with
      | (.ok _, t) => sendings rest t
      | (.error _, _) => []

/-- The consent that an action of this name decides on. -/
def decidedBy (name : String) (categories : Json) (s : Session) : Option Consent :=
  (decisionNamed name s).bind fun action => (decisionOf action categories s).toOption

/-- The consent that a start takes over, when that can be read. -/
def takenOver (s : Session) : Option (Option Consent) :=
  if s.phase = .init then (s.store.load s.browser).toOption else none

/-- What an event comes to in a session. -/
def deedsOf (e : Event) (s : Session) : List Deed :=
  match e with
  | .start => (takenOver s).toList.map .loaded
  | .act name categories =>
    (decidedBy name categories s).toList.map (.decided · ((after e s).pending.drop s.pending.length).head?)
  | .reset => [.forgot]
  | .flush => sendings s.pending s
  | _ => []

/-- All that happens in a run, in order. -/
def deeds : List Event → Session → List Deed
  | [], _ => []
  | e :: rest, s => deedsOf e s ++ deeds rest (after e s)

theorem leaves_sendAll_cons (r : Report) (rest : List Report) (s : Session) :
    leaves (sendAll (r :: rest)) s =
      match result (storeTcString (answerTo r s)) (dispatched r rest s) with
      | (.ok _, t) => leaves (sendAll rest) t
      | (.error _, t) => t := by
  rw [sendAll, leaves_bind, result_get]
  dsimp only
  rw [leaves_bind, result_modify]
  dsimp only
  rw [leaves_bind, ← answerTo, ← dispatched]
  rcases result (storeTcString (answerTo r s)) (dispatched r rest s) with ⟨e | u, t⟩
  · rfl
  · rfl

/-- A flush sends what is pending from the front on, and what it stores with the consent are the answers. -/
theorem sendings_sound (rs : List Report) (s : Session) (h : s.pending = rs) :
    (leaves (sendAll rs) s).consent = (sendings rs s).foldl Deed.revise s.consent ∧
      Queue rs (sendings rs s) (leaves (sendAll rs) s).pending := by
  induction rs generalizing s with
  | nil =>
    have hp : (leaves (sendAll []) s).pending = [] := h
    refine ⟨rfl, ?_⟩
    rw [hp]
    exact .nil
  | cons r rest ih =>
    obtain ⟨b, hb⟩ := core_storeTcString (answerTo r s) (dispatched r rest s)
    rw [leaves_sendAll_cons, sendings]
    rw [leaves] at hb
    rcases hr : result (storeTcString (answerTo r s)) (dispatched r rest s) with ⟨e | u, t⟩
    all_goals
      rw [hr] at hb
      have hc : t.consent = s.consent.map (stamped (answerTo r s)) := congrArg Core.consent hb
      have hp : t.pending = rest := congrArg Core.pending hb
    · exact ⟨hc, hp ▸ .sent r _ .nil⟩
    · obtain ⟨hconsent, hrest⟩ := ih t hp
      rw [hc] at hconsent
      exact ⟨hconsent, .sent r _ hrest⟩

/-- The deeds account for what became of the consent and of the reports between two sessions. -/
structure Accounts (s : Session) (ds : List Deed) (t : Session) : Prop where
  consent : t.consent = ds.foldl Deed.revise s.consent
  queue : Queue s.pending ds t.pending
  about : ∀ c r, (c, r) ∈ reported ds → IsAbout c r

namespace Accounts

theorem nil {s t : Session} (hc : t.consent = s.consent) (hp : t.pending = s.pending) : Accounts s [] t where
  consent := hc
  queue := hp ▸ .nil
  about _ _ h := nomatch h

theorem of_core {s t : Session} (h : core t = core s) : Accounts s [] t :=
  nil (congrArg Core.consent h) (congrArg Core.pending h)

theorem append {s t u : Session} {ds es : List Deed} (h : Accounts s ds t) (h' : Accounts t es u) :
    Accounts s (ds ++ es) u where
  consent := by rw [h'.consent, h.consent, List.foldl_append]
  queue := h.queue.append h'.queue
  about c r hr := by
    rw [reported, List.filterMap_append, List.mem_append] at hr
    obtain hr | hr := hr
    · exact h.about c r hr
    · exact h'.about c r hr

end Accounts

theorem accounts_act (name : String) (categories : Json) (s : Session) :
    Accounts s (deedsOf (.act name categories) s) (after (.act name categories) s) := by
  have hafter : core (after (.act name categories) s) = core (leaves (handle name categories) s) :=
    congrArg core (leaves_discard _ s)
  rw [core_handle] at hafter
  rw [deedsOf, decidedBy]
  cases hn : decisionNamed name s with
  | none =>
    rw [hn] at hafter
    exact .of_core hafter
  | some action =>
    rw [hn] at hafter
    rw [Option.bind_some]
    cases hd : decisionOf action categories s with
    | error f => exact .of_core (hafter.trans (core_applyDecision_error hd))
    | ok c =>
      obtain ⟨own, b, hb, hown, -⟩ := core_applyDecision hd
      have hcore := hafter.trans hb
      have hc : (after (.act name categories) s).consent = some c := congrArg Core.consent hcore
      have hp : (after (.act name categories) s).pending = s.pending ++ own.toList := congrArg Core.pending hcore
      have hdrop : ((after (.act name categories) s).pending.drop s.pending.length).head? = own := by
        rw [hp, List.drop_left]
        cases own with
        | none => rfl
        | some r => rfl
      rw [hdrop]
      cases own with
      | none => exact ⟨hc, hp ▸ .decided c none .nil, fun _ _ h => nomatch h⟩
      | some r =>
        refine ⟨hc, hp ▸ .decided c (some r) .nil, ?_⟩
        intro c' r' h
        cases List.mem_singleton.1 h
        exact hown r rfl

/-- A session that has not started yet has nothing to report. -/
def Fresh (s : Session) : Prop := ¬ Started s → s.pending = []

theorem accounts_start {s : Session} (hs : Fresh s) : Accounts s (deedsOf .start s) (after .start s) := by
  have hafter : core (after .start s) = core (leaves start s) := congrArg core (leaves_discard _ s)
  rw [deedsOf, takenOver]
  by_cases hp : s.phase = .init
  · rw [if_pos hp]
    cases hl : s.store.load s.browser with
    | error f => exact .of_core (hafter.trans (core_start_error hp hl))
    | ok stored =>
      obtain ⟨b, hb, -⟩ := core_start hp hl
      have hcore := hafter.trans hb
      have hempty : s.pending = [] := hs (not_not_intro hp)
      have hp' : (after .start s).pending = [] := (congrArg Core.pending hcore).trans hempty
      refine ⟨congrArg Core.consent hcore, ?_, fun _ _ h => nomatch h⟩
      rw [hempty, hp']
      exact .loaded stored .nil
  · rw [if_neg hp]
    exact .of_core (hafter.trans (core_start_of_started hp))

theorem reported_sendings (rs : List Report) (s : Session) : reported (sendings rs s) = [] := by
  induction rs generalizing s with
  | nil => rfl
  | cons r rest ih =>
    rw [sendings]
    rcases result (storeTcString (answerTo r s)) (dispatched r rest s) with ⟨e | u, t⟩
    · rfl
    · exact ih t

theorem after_flush (s : Session) : after .flush s = leaves (sendAll s.pending) s := by
  have h : leaves flush s = leaves (sendAll s.pending) s := by
    rw [flush, leaves_bind, result_get]
    dsimp only
    rw [leaves_bind, leaves]
    rcases result (sendAll s.pending) s with ⟨e | u, t⟩
    · rfl
    · rfl
  exact (leaves_discard flush s).trans h

theorem accounts_flush (s : Session) : Accounts s (deedsOf .flush s) (after .flush s) := by
  obtain ⟨hconsent, hqueue⟩ := sendings_sound s.pending s rfl
  rw [after_flush, deedsOf]
  refine ⟨hconsent, hqueue, ?_⟩
  intro c r h
  rw [reported_sendings] at h
  cases h

theorem accounts_event (e : Event) {s : Session} (hs : Fresh s) : Accounts s (deedsOf e s) (after e s) := by
  cases e with
  | start => exact accounts_start hs
  | act name categories => exact accounts_act name categories s
  | reset =>
    have hcore := (congrArg core (leaves_discard reset s)).trans (core_reset s)
    have hp : (after .reset s).pending = s.pending := congrArg Core.pending hcore
    exact ⟨congrArg Core.consent hcore, hp ▸ .forgot .nil, fun _ _ h => nomatch h⟩
  | flush => exact accounts_flush s
  | icon => exact .of_core ((keeps_core fun h => .discard h.clickIcon).eq s)
  | tick => exact .of_core ((keeps_core fun h => .discard h.tick).eq s)
  | resize width => exact .of_core ((keeps_core fun h => .discard (h.resize width)).eq s)
  | advance seconds =>
    have hkeeps : Keeps (fun s => (s.consent, s.pending)) (advance seconds) := fun _ =>
      .bind .get fun s => .bind (.lift (s.browser.advance seconds)) fun _ => .modify fun _ h => h
    have h := Prod.ext_iff.1 (hkeeps.eq s)
    exact .nil h.1 h.2
  | setCookie cookie => exact .nil rfl rfl
  | call command version listener parameter => exact .of_core ((keeps_core fun h => h.callApi _ _ _ _).eq s)
  | receive message => exact .of_core ((keeps_core fun h => .discard (h.receive message)).eq s)

/-- Only a visible banner takes a decision. -/
theorem reported_deedsOf (e : Event) {s : Session} (hs : ¬ Started s) : reported (deedsOf e s) = [] := by
  have hinit : s.phase = .init := Decidable.of_not_not hs
  cases e with
  | start =>
    rw [deedsOf]
    cases takenOver s with
    | none => rfl
    | some stored => rfl
  | act name categories =>
    have hnone : decidedBy name categories s = none := by
      rw [decidedBy, decisionNamed, if_neg (by simp [hinit])]
      rfl
    rw [deedsOf, hnone]
    rfl
  | flush => exact reported_sendings s.pending s
  | _ => rfl

theorem fresh_after (e : Event) {s : Session} (hs : Fresh s) : Fresh (after e s) := by
  intro hafter
  have hinit : ¬ Started s := fun h => hafter (started_after e h)
  have hqueue := (accounts_event e hs).queue.conserves
  rw [hs hinit, reported_deedsOf e hinit] at hqueue
  exact (List.append_eq_nil_iff.1 hqueue.symm).2

/-- What happens in a run accounts for the consent and the reports at its end. -/
theorem accounts_run (events : List Event) {s : Session} (hs : Fresh s) :
    Accounts s (deeds events s) (run events s) := by
  induction events generalizing s with
  | nil => exact .nil rfl rfl
  | cons e rest ih => exact (accounts_event e hs).append (ih (fresh_after e hs))

end ConsentBanner.Session
