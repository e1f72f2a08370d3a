import ConsentBanner.Proofs.Session.Run

/-!
Which decision the stored text of an answer belongs to.
-/

namespace ConsentBanner.Session

/-- A deed that leaves the decision as it is. -/
def Deed.isSending : Deed → Bool
  | .sent _ _ => true
  | _ => false

/-- What was sent since the consent was last decided on, taken over or forgotten. -/
def sentSince (ds : List Deed) : List Deed := (ds.reverse.takeWhile Deed.isSending).reverse

/-- The text that was given last. -/
def lastText (ds : List Deed) : Option Json := ((answered ds).filterMap (·.2)).getLast?

/-- The report of a decision was the one with this number, and its answer gave a text. -/
def GivenFor (ds : List Deed) (n : Nat) (c : Consent) (t : Json) : Prop :=
  ∃ r, IsAbout c r ∧ (reported ds)[n]? = some (c, r) ∧ (answered ds)[n]? = some (r, some t)

theorem isSending_sentSince {ds : List Deed} : ∀ d ∈ sentSince ds, d.isSending := by
  intro d hd
  exact List.all_eq_true.1 List.all_takeWhile d (List.mem_reverse.1 hd)

theorem exists_sentSince (ds : List Deed) :
    sentSince ds = ds ∨ ∃ before d, d.isSending = false ∧ ds = before ++ d :: sentSince ds := by
  have hsplit := List.takeWhile_append_dropWhile (p := Deed.isSending) (l := ds.reverse)
  cases hdrop : ds.reverse.dropWhile Deed.isSending with
  | nil =>
    rw [hdrop, List.append_nil] at hsplit
    exact .inl (by rw [sentSince, hsplit, List.reverse_reverse])
  | cons d earlier =>
    refine .inr ⟨earlier.reverse, d, ?_, ?_⟩
    · have h := List.head?_dropWhile_not Deed.isSending ds.reverse
      rw [hdrop] at h
      exact h
    · have h := congrArg List.reverse hsplit
      rw [hdrop, List.reverse_append, List.reverse_cons, List.reverse_reverse] at h
      rw [sentSince]
      simpa using h.symm

theorem lastText_sent (r : Report) (t : Option Json) (rest : List Deed) :
    lastText (.sent r t :: rest) = (lastText rest).or t := by
  have h : answered (.sent r t :: rest) = (r, t) :: answered rest := rfl
  rw [lastText, h, lastText]
  cases t with
  | none => rw [List.filterMap_cons_none rfl, Option.or_none]
  | some t =>
    have hcons : ((r, some t) :: answered rest).filterMap (·.2) = t :: (answered rest).filterMap (·.2) := rfl
    rw [hcons, List.getLast?_cons]
    cases ((answered rest).filterMap (·.2)).getLast? with
    | none => rfl
    | some last => rfl

theorem foldl_revise_sendings {ds : List Deed} (h : ∀ d ∈ ds, d.isSending) (c : Consent) :
    ds.foldl Deed.revise (some c) = some (stamped (lastText ds) c) := by
  induction ds generalizing c with
  | nil => rfl
  | cons d rest ih =>
    have hrest := ih fun d hd => h d (List.mem_cons_of_mem _ hd)
    cases d with
    | sent r t =>
      rw [List.foldl_cons, Deed.revise, Option.map_some, hrest, lastText_sent]
      cases lastText rest with
      | none => rfl
      | some last => rfl
    | _ => cases h _ List.mem_cons_self

theorem foldl_revise_none {ds : List Deed} (h : ∀ d ∈ ds, d.isSending) : ds.foldl Deed.revise none = none := by
  induction ds with
  | nil => rfl
  | cons d rest ih =>
    have hrest := ih fun d hd => h d (List.mem_cons_of_mem _ hd)
    cases d with
    | sent r t => exact hrest
    | _ => cases h _ List.mem_cons_self

theorem reported_eq_nil {ds : List Deed} (h : ∀ d ∈ ds, d.isSending) : reported ds = [] := by
  apply List.filterMap_eq_nil_iff.2
  intro d hd
  have hsent := h d hd
  cases d with
  | sent r t => rfl
  | _ => cases hsent

theorem exists_of_lastText {ds : List Deed} {t : Json} (h : lastText ds = some t) :
    ∃ (n : Nat) (r : Report), (answered ds)[n]? = some (r, some t) := by
  obtain ⟨⟨r, u⟩, hmem, hu⟩ := List.mem_filterMap.1 (List.mem_of_getLast? h)
  obtain ⟨n, hn⟩ := List.getElem?_of_mem hmem
  exact ⟨n, r, hu ▸ hn⟩

theorem lastText_of_getLast? {ds : List Deed} {r : Report} {t : Json}
    (h : (answered ds).getLast? = some (r, some t)) : lastText ds = some t := by
  obtain ⟨init, h⟩ := List.getLast?_eq_some_iff.1 h
  rw [lastText, h, List.filterMap_append]
  exact List.getLast?_concat

/-- How the deeds around a decision number the reports: those before it are sent or waiting when it is made, and
its own comes next. -/
structure Turn (before after : List Deed) (c : Consent) (own : Option Report) (waiting left : List Report) :
    Prop where
  earlier : (reported before).map (·.2) = (answered before).map (·.1) ++ waiting
  later : waiting ++ own.toList = (answered after).map (·.1) ++ left
  sendings : ∀ d ∈ after, d.isSending
  about : ∀ c' r, (c', r) ∈ reported (before ++ .decided c own :: after) → IsAbout c' r

namespace Turn

variable {before after : List Deed} {c : Consent} {own : Option Report} {waiting left : List Report}

theorem reported_eq (h : Turn before after c own waiting left) :
    reported (before ++ .decided c own :: after) = reported before ++ own.toList.map (c, ·) := by
  have hafter := reported_eq_nil h.sendings
  rw [reported, List.filterMap_append]
  cases own with
  | none => exact congrArg (reported before ++ ·) hafter
  | some r => exact congrArg (fun rest => reported before ++ (c, r) :: rest) hafter

theorem answered_eq (before after : List Deed) (c : Consent) (own : Option Report) :
    answered (before ++ .decided c own :: after) = answered before ++ answered after := by
  exact List.filterMap_append

theorem length_eq (h : Turn before after c own waiting left) :
    (reported before).length = (answered before).length + waiting.length := by
  have hlength := congrArg List.length h.earlier
  simpa using hlength

theorem length_later (h : Turn before after c own waiting left) :
    (answered after).length ≤ waiting.length + 1 := by
  have hlength := congrArg List.length h.later
  simp only [List.length_append, List.length_map] at hlength
  have hown : own.toList.length ≤ 1 := Option.length_toList_le
  omega

theorem queue (h : Turn before after c own waiting left) :
    (reported (before ++ .decided c own :: after)).map (·.2) =
      (answered (before ++ .decided c own :: after)).map (·.1) ++ left := by
  have hown : (own.toList.map (c, ·)).map (·.2) = own.toList := by
    rw [List.map_map]
    exact List.map_id _
  rw [h.reported_eq, answered_eq, List.map_append, List.map_append, hown, h.earlier, List.append_assoc, h.later,
    List.append_assoc]

/-- Every text comes from a report that is no later than the decision's own. -/
theorem givenFor_of_answered (h : Turn before after c own waiting left) {n : Nat} {r : Report} {t : Json}
    (hn : (answered after)[n]? = some (r, some t)) :
    (answered before).length + n ≤ (reported before).length ∧
      ∃ c', GivenFor (before ++ .decided c own :: after) ((answered before).length + n) c' t := by
  have hlt : n < (answered after).length := (List.getElem?_eq_some_iff.1 hn).1
  have hans : (answered (before ++ .decided c own :: after))[(answered before).length + n]? =
      some (r, some t) := by
    rw [answered_eq, List.getElem?_append_right (Nat.le_add_right _ _), Nat.add_sub_cancel_left]
    exact hn
  have hrep : ((reported (before ++ .decided c own :: after)).map (·.2))[(answered before).length + n]? =
      some r := by
    rw [h.queue, List.getElem?_append_left, List.getElem?_map, hans]
    · rfl
    · rw [List.length_map]
      exact (List.getElem?_eq_some_iff.1 hans).1
  rw [List.getElem?_map] at hrep
  obtain ⟨⟨c', r'⟩, hc', hr⟩ := Option.map_eq_some_iff.1 hrep
  cases hr
  constructor
  · have hlater := h.length_later
    have hlength := h.length_eq
    omega
  · exact ⟨c', r', h.about c' r' (List.mem_of_getElem? hc'), hc', hans⟩

/-- The answer to the decision's own report is the last one there is. -/
theorem lastText_of_givenFor (h : Turn before after c own waiting left) {t : Json}
    (hgiven : GivenFor (before ++ .decided c own :: after) (reported before).length c t) :
    lastText after = some t := by
  obtain ⟨r, -, -, hans⟩ := hgiven
  rw [answered_eq, h.length_eq, List.getElem?_append_right (Nat.le_add_right _ _), Nat.add_sub_cancel_left] at hans
  have hlt : waiting.length < (answered after).length := (List.getElem?_eq_some_iff.1 hans).1
  have hlast : (answered after).length - 1 = waiting.length := by
    have hlater := h.length_later
    omega
  apply lastText_of_getLast?
  rw [List.getLast?_eq_getElem?, hlast]
  exact hans

/-- When nothing is waiting, only the decision's own report can be answered. -/
theorem givenFor_of_lastText (h : Turn before after c own [] left) {t : Json} (ht : lastText after = some t) :
    GivenFor (before ++ .decided c own :: after) (reported before).length c t := by
  obtain ⟨n, r, hn⟩ := exists_of_lastText ht
  have hlength : (reported before).length = (answered before).length := h.length_eq
  obtain ⟨hle, c', hgiven⟩ := h.givenFor_of_answered hn
  have hzero : n = 0 := by omega
  obtain ⟨r', habout, hrep, hans⟩ := hgiven
  rw [hzero, Nat.add_zero, ← hlength] at hrep hans
  have hown := hrep
  rw [h.reported_eq, List.getElem?_append_right (Nat.le_refl _), Nat.sub_self] at hown
  cases own with
  | none => cases hown
  | some r'' =>
    cases hown
    exact ⟨r', habout, hrep, hans⟩

end Turn

theorem turn_of_run {s : Session} (hfresh : s.pending = []) (events : List Event) {before after : List Deed}
    {c : Consent} {own : Option Report} (hds : deeds events s = before ++ .decided c own :: after)
    (hafter : ∀ d ∈ after, d.isSending) :
    ∃ waiting, Turn before after c own waiting (run events s).pending := by
  have haccounts := accounts_run events fun _ => hfresh
  rw [hds] at haccounts
  obtain ⟨waiting, hbefore, hrest⟩ := haccounts.queue.split
  cases hrest with
  | decided _ _ hlater =>
    refine ⟨waiting, ?_, ?_, hafter, haccounts.about⟩
    · have h := hbefore.conserves
      rw [hfresh] at h
      exact h
    · have h := hlater.conserves
      rw [reported_eq_nil hafter] at h
      exact (List.append_nil _).symm.trans h

theorem Queue.eq_nil_of_isSending {ds : List Deed} {q : List Report} (h : Queue [] ds q)
    (hds : ∀ d ∈ ds, d.isSending) : ds = [] := by
  cases h with
  | nil => rfl
  | _ => cases hds _ List.mem_cons_self

theorem consent_of_run {s : Session} (hfresh : s.pending = []) {events : List Event} {before after : List Deed}
    {c : Consent} {own : Option Report} (hds : deeds events s = before ++ .decided c own :: after)
    (hafter : ∀ d ∈ after, d.isSending) : (run events s).consent = some (stamped (lastText after) c) := by
  rw [(accounts_run events fun _ => hfresh).consent, hds, List.foldl_append, List.foldl_cons]
  exact foldl_revise_sendings hafter c

/-- A text that a flush has stored with the consent was stored after a decision of the same page. -/
theorem exists_decided {s : Session} (hfresh : s.pending = []) {events : List Event} {c' : Consent} {t : Json}
    (hc : (run events s).consent = some c') (ht : lastText (sentSince (deeds events s)) = some t) :
    ∃ before c own, deeds events s = before ++ .decided c own :: sentSince (deeds events s) ∧
      c' = stamped (some t) c := by
  obtain ⟨hconsent, hqueue, -⟩ := accounts_run events (s := s) fun _ => hfresh
  have hsent : ∀ d ∈ sentSince (deeds events s), d.isSending := isSending_sentSince
  rw [hfresh] at hqueue
  obtain hall | ⟨before, d, hd, hds⟩ := exists_sentSince (deeds events s)
  · rw [hall] at hsent ht
    rw [hqueue.eq_nil_of_isSending hsent] at ht
    cases ht
  · rw [hds] at hqueue hconsent
    obtain ⟨waiting, -, hrest⟩ := hqueue.split
    cases d with
    | decided c own =>
      refine ⟨before, c, own, hds, ?_⟩
      have h := consent_of_run hfresh hds hsent
      rw [hc, ht] at h
      exact Option.some.inj h
    | loaded stored =>
      cases hrest with
      | loaded _ h =>
        rw [h.eq_nil_of_isSending hsent] at ht
        cases ht
    | forgot =>
      rw [List.foldl_append, List.foldl_cons, Deed.revise, foldl_revise_none hsent, hc] at hconsent
      cases hconsent
    | sent r t => cases hd

theorem eq_str_of_asString? {v : Option Json} {text : String} (h : v.bind Json.asString? = some text) :
    v = some (.str text) := by
  obtain ⟨w, rfl, hw⟩ := Option.bind_eq_some_iff.1 h
  cases w with
  | str s =>
    cases hw
    rfl
  | _ => cases hw

/-- A text that a flush has stored with the consent is the one that was given last since the decision `c` for that
consent. Reports are answered in the order of their decisions, so it was given for `c` or for an earlier
decision, and it is the one for `c` as soon as there is one, or when nothing was waiting as `c` was made. -/
theorem run_tcString {config : ClientConfig} {environment : Environment} {components : List Component}
    {browser : Browser} {server : Server} {s : Session}
    (hcreate : create config environment components browser server = .ok s) (events : List Event)
    {c' : Consent} {t : Json} (hc : (run events s).consent = some c')
    (ht : lastText (sentSince (deeds events s)) = some t) :
    ∃ before c own, deeds events s = before ++ .decided c own :: sentSince (deeds events s) ∧
      c' = stamped (some t) c ∧
      (∃ n earlier, n ≤ (reported before).length ∧ GivenFor (deeds events s) n earlier t) ∧
      (∀ u, GivenFor (deeds events s) (reported before).length c u → u = t) ∧
      ((answered before).length = (reported before).length →
        GivenFor (deeds events s) (reported before).length c t) := by
  have hfresh := (begins_of_create hcreate).pending
  obtain ⟨before, c, own, hds, hc'⟩ := exists_decided hfresh hc ht
  obtain ⟨waiting, hturn⟩ := turn_of_run hfresh events hds isSending_sentSince
  refine ⟨before, c, own, hds, hc', ?_, ?_, ?_⟩
  · obtain ⟨n, r, hn⟩ := exists_of_lastText ht
    obtain ⟨hle, earlier, hgiven⟩ := hturn.givenFor_of_answered hn
    rw [hds]
    exact ⟨_, earlier, hle, hgiven⟩
  · intro u hgiven
    rw [hds] at hgiven
    exact Option.some.inj ((hturn.lastText_of_givenFor hgiven).symm.trans ht)
  · intro heq
    have hnone : waiting = [] := by
      have hlength := hturn.length_eq
      exact List.length_eq_zero_iff.1 (by omega)
    subst hnone
    rw [hds]
    exact hturn.givenFor_of_lastText ht

theorem run_tcString_accepted : ∃ before c own,
    deeds [.start, .act "accept_all" .null, .flush] plainSession = before ++ .decided c own ::
        sentSince (deeds [.start, .act "accept_all" .null, .flush] plainSession) ∧
      (run [.start, .act "accept_all" .null, .flush] plainSession).consent = some (stamped (some (.str "A")) c) ∧
      ∃ n earlier, n ≤ (reported before).length ∧
        GivenFor (deeds [.start, .act "accept_all" .null, .flush] plainSession) n earlier (.str "A") := by
  obtain ⟨c', hc⟩ := Option.isSome_iff_exists.1
    (by decide +kernel : (run [.start, .act "accept_all" .null, .flush] plainSession).consent.isSome)
  have ht : lastText (sentSince (deeds [.start, .act "accept_all" .null, .flush] plainSession)) =
      some (.str "A") := eq_str_of_asString? (by decide +kernel)
  obtain ⟨before, c, own, hds, hc', hgiven, -⟩ := run_tcString create_plainSession _ hc ht
  exact ⟨before, c, own, hds, hc' ▸ hc, hgiven⟩

/-- A page on which two decisions are made before anything is sent. -/
def changeOfMind : List Event :=
  [.start, .act "accept_all" .null, .act "show_preferences" .null, .act "reject_all" .null, .flush]

/-- The text for one decision stands with the next, whose own report had no answer. -/
theorem run_stores_text_of_another : ∃ c',
    (run changeOfMind plainSession).consent = some c' ∧ c'.tcString = .str "A" ∧
      lastText (sentSince (deeds changeOfMind plainSession)) = some (.str "A") ∧
      ∀ before c own, deeds changeOfMind plainSession =
          before ++ .decided c own :: sentSince (deeds changeOfMind plainSession) →
        ¬ GivenFor (deeds changeOfMind plainSession) (reported before).length c (.str "A") := by
  have ht : lastText (sentSince (deeds changeOfMind plainSession)) = some (.str "A") :=
    eq_str_of_asString? (by decide +kernel)
  obtain ⟨c', hc⟩ : ∃ c', (run changeOfMind plainSession).consent = some c' :=
    Option.isSome_iff_exists.1 (by decide +kernel)
  have hfresh : plainSession.pending = [] := rfl
  obtain ⟨before, c, own, hds, hc'⟩ := exists_decided hfresh hc ht
  refine ⟨c', hc, by rw [hc']; rfl, ht, ?_⟩
  intro before c own hds hgiven
  obtain ⟨waiting, hturn⟩ := turn_of_run hfresh changeOfMind hds isSending_sentSince
  obtain ⟨r, -, -, hans⟩ := hgiven
  have hreported : (reported (deeds changeOfMind plainSession)).length = 2 := by decide +kernel
  have hanswered : (answered (deeds changeOfMind plainSession)).length = 2 := by decide +kernel
  have hsecond : ((answered (deeds changeOfMind plainSession))[1]?.bind (·.2)).isNone := by decide +kernel
  have hone : (reported before).length = 1 := by
    have hlt : (reported before).length < 2 := hanswered ▸ (List.getElem?_eq_some_iff.1 hans).1
    have hown : own.toList.length ≤ 1 := Option.length_toList_le
    rw [hds, hturn.reported_eq, List.length_append, List.length_map] at hreported
    omega
  rw [hone] at hans
  rw [hans] at hsecond
  cases hsecond

end ConsentBanner.Session
