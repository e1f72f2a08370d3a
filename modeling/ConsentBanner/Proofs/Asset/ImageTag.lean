import Mathlib.Data.List.TakeWhile
import ConsentBanner.Proofs.Asset.Alike

/-!
What becomes of one image tag when its address is made absolute: the tag stays, and of its body, from the address to
the last quotation mark, at most an address is changed.
-/

namespace ConsentBanner.Asset

/-- The start of an image tag with a source attribute, up to its address. -/
def imageStart : List Char := ['i', 'm', 'g', ' ', 's', 'r', 'c', '=', '\x22']

/-- A body of an image tag: it opens no tag, and ends with a quotation mark. -/
structure IsBody (body : List Char) : Prop where
  closed : '<' ∉ body
  last : body.getLast? = some '\x22'

theorem IsBody.append {front body : List Char} (hfront : '<' ∉ front) (h : IsBody body) : IsBody (front ++ body) := by
  constructor
  · rw [List.mem_append, not_or]
    exact ⟨hfront, h.closed⟩
  · rw [List.getLast?_append, h.last]
    rfl

theorem IsBody.of_cons_cons {c d : Char} {body : List Char} (h : IsBody (c :: d :: body)) :
    c ≠ '<' ∧ IsBody (d :: body) := by
  have hclosed := h.closed
  have hlast := h.last
  rw [List.mem_cons, not_or] at hclosed
  rw [List.getLast?_cons_cons] at hlast
  exact ⟨Ne.symm hclosed.1, hclosed.2, hlast⟩

/-- Addresses that do not reach beyond the end of a tag. -/
def StaysInside (accept : List Char → Bool) : Prop := ∀ url, accept url = true → url ≠ [] ∧ ¬ ['/', '>'] <+: url

section Split

variable {body cs : List Char}

theorem mark_in_body {x y : List Char} {q : Char} (hx : '>' ∉ x) (hq : isQuotationMark q = true)
    (h : body ++ '/' :: '>' :: cs = x ++ q :: y) : ∃ rest, body = x ++ q :: rest ∧ y = rest ++ '/' :: '>' :: cs := by
  rw [List.append_eq_append_iff] at h
  obtain ⟨w, rfl, h⟩ | ⟨w, rfl, h⟩ := h
  · match w with
    | [] =>
      cases h
      cases hq
    | [_] =>
      cases h
      cases hq
    | _ :: _ :: _ =>
      cases h
      simp at hx
  · match w with
    | [] =>
      cases h
      cases hq
    | _ :: rest =>
      cases h
      exact ⟨rest, rfl, rfl⟩

/-- A quoted address that begins in a body ends in it. -/
theorem address_in_body {url y : List Char} {q : Char} (hlast : ∀ c ∈ body.getLast?, c = '\x22') (hne : url ≠ [])
    (hinside : ¬ ['/', '>'] <+: url) (hurl : ∀ c ∈ url, isQuotationMark c = false) (hq : isQuotationMark q = true)
    (h : body ++ '/' :: '>' :: cs = url ++ q :: y) :
    ∃ rest, body = url ++ q :: rest ∧ y = rest ++ '/' :: '>' :: cs := by
  rw [List.append_eq_append_iff] at h
  obtain ⟨w, rfl, h⟩ | ⟨w, rfl, h⟩ := h
  · cases hbody : body.getLast? with
    | none =>
      rw [List.getLast?_eq_none_iff] at hbody
      subst hbody
      match w with
      | [] => exact (hne rfl).elim
      | [_] =>
        cases h
        cases hq
      | _ :: _ :: w =>
        cases h
        exact (hinside ⟨w, rfl⟩).elim
    | some c =>
      have hmark := hurl c (List.mem_append_left w (List.mem_of_getLast? hbody))
      rw [hlast c hbody] at hmark
      cases hmark
  · match w with
    | [] =>
      cases h
      cases hq
    | _ :: rest =>
      cases h
      exact ⟨rest, rfl, rfl⟩

/-- After the first end of a tag in a text that opens none, copying goes on as after the text. -/
theorem copy_after {found? : List Char → Option (List Char × List Char)}
    (hcopy : ∀ c, c ≠ '<' → ∀ cs, found? (c :: cs) = none) {tail after rest : List Char} (htail : '<' ∉ tail)
    (hafter : '>' ∉ after) (h : tail ++ '/' :: '>' :: cs = after ++ '>' :: rest) :
    after ++ '>' :: replaceFrom found? 0 rest = tail ++ '/' :: '>' :: replaceFrom found? 0 cs := by
  rw [List.append_cons, List.append_eq_append_iff] at h
  obtain ⟨w, rfl, h⟩ | ⟨w, hw, h⟩ := h
  · cases w with
    | nil =>
      cases h
      simp
    | cons c w =>
      cases h
      simp at hafter
  · cases w with
    | nil =>
      cases h
      rw [List.append_cons tail, hw, List.append_nil]
    | cons c w =>
      rw [List.cons_append, List.cons.injEq] at h
      obtain ⟨rfl, rfl⟩ := h
      have hopen : ∀ c ∈ w ++ ['>'], c ≠ '<' := by
        intro c hc he
        subst he
        rw [List.mem_append, List.mem_singleton] at hc
        have hm : '<' ∈ tail ++ ['/'] := by
          rw [hw]
          exact List.mem_append_right _ (List.mem_cons_of_mem _ (hc.resolve_right (by decide)))
        rw [List.mem_append] at hm
        exact htail (hm.resolve_right (by decide))
      rw [List.append_cons w, replaceFrom_copy fun c hc => hcopy c (hopen c hc), List.append_cons tail, hw]
      simp

end Split

theorem afterIgnoringCase?_tag_of_ne {c : Char} (hc : c ≠ '<') (cs : List Char) :
    afterIgnoringCase? "<img".toList (c :: cs) = none := by
  rw [Option.eq_none_iff_forall_ne_some]
  intro rest h
  change afterIgnoringCase? ['<', 'i', 'm', 'g'] (c :: cs) = some rest at h
  obtain ⟨_, _, ⟨⟩, hl, -⟩ := afterIgnoringCase?_cons.1 h
  exact hc (eq_of_matchesLetter_lt hl)

theorem afterIgnoringCase?_tag_of_other {cs : List Char} (h : begins "img".toList cs = false) :
    afterIgnoringCase? "<img".toList ('<' :: cs) = none := by
  rw [begins, Option.isSome_eq_false_iff, Option.isNone_iff_eq_none] at h
  exact h

section Tag

variable {accept : List Char → Bool} {base body cs : List Char}

theorem imageTag?_of_ne {c : Char} (hc : c ≠ '<') (cs : List Char) : imageTag? accept base (c :: cs) = none := by
  rw [imageTag?, afterIgnoringCase?_tag_of_ne hc]

theorem imageTag?_of_other (h : begins "img".toList cs = false) : imageTag? accept base ('<' :: cs) = none := by
  rw [imageTag?, afterIgnoringCase?_tag_of_other h]

theorem replaceFrom_tag_of_not_mem {text : List Char} (h : '<' ∉ text) (rest : List Char) :
    replaceFrom (imageTag? accept base) 0 (text ++ rest) = text ++ replaceFrom (imageTag? accept base) 0 rest :=
  replaceFrom_copy (fun _ hc => imageTag?_of_ne (by
    rintro rfl
    exact h hc)) rest

theorem imageTag?_imageStart (text : List Char) : imageTag? accept base ('<' :: (imageStart ++ text)) =
    (findSource? accept ('s' :: 'r' :: 'c' :: '=' :: '\x22' :: text)).map fun (before, url, after, rest) =>
      ("<img ".toList ++ before ++ "src=\x22".toList ++ base ++ url ++ '\x22' :: (after ++ ['>']), rest) := rfl

theorem quotedAddress?_source {url after : List Char} {q : Char} (hurl : ∀ c ∈ url, isQuotationMark c = false)
    (hq : isQuotationMark q = true) :
    quotedAddress? ('s' :: 'r' :: 'c' :: '=' :: '\x22' :: (url ++ q :: after)) = some (url, after) := by
  have hin : ∀ c ∈ url, (!isQuotationMark c) = true := fun c hc => by rw [hurl c hc, Bool.not_false]
  have hend : ∀ c ∈ (q :: after).head?, (!isQuotationMark c) = false := by
    intro c hc
    cases hc
    rw [hq, Bool.not_true]
  have hsource : afterIgnoringCase? "src=".toList ('s' :: 'r' :: 'c' :: '=' :: '\x22' :: (url ++ q :: after)) =
      some ('\x22' :: (url ++ q :: after)) := rfl
  have hopen : isQuotationMark '\x22' = true := rfl
  rw [quotedAddress?, hsource]
  simp only [hopen, if_true, Text.dropWhile_append_of_end hin hend, Text.takeWhile_append_of_end hin hend]

theorem not_mark_of_mem_untilMark {c : Char} (h : c ∈ untilMark body) : isQuotationMark c = false := by
  simpa using Text.of_mem_takeWhile h

/-- A body is an address, a mark after it, and the attributes after that. -/
theorem IsBody.split (h : IsBody body) : ∃ q tail, body = untilMark body ++ q :: tail ∧ isQuotationMark q = true := by
  have hsplit := List.takeWhile_append_dropWhile (p := (!isQuotationMark ·)) (l := body)
  cases hdrop : body.dropWhile (!isQuotationMark ·) with
  | nil =>
    have hmark := List.dropWhile_eq_nil_iff.1 hdrop _ (List.mem_of_getLast? h.last)
    cases hmark
  | cons q tail =>
    rw [hdrop] at hsplit
    refine ⟨q, tail, hsplit.symm, ?_⟩
    simpa using Text.head?_dropWhile_false (p := (!isQuotationMark ·)) body q (by rw [hdrop]; rfl)

theorem untilMark_append {url tail : List Char} {q : Char} (hurl : ∀ c ∈ url, isQuotationMark c = false)
    (hq : isQuotationMark q = true) : untilMark (url ++ q :: tail) = url := by
  refine Text.takeWhile_append_of_end (fun c hc => by rw [hurl c hc, Bool.not_false]) fun c hc => ?_
  cases hc
  rw [hq, Bool.not_true]

theorem findSource?_of_accept (hbody : IsBody body) (h : accept (untilMark body) = true) : ∃ found,
    findSource? accept ('s' :: 'r' :: 'c' :: '=' :: '\x22' :: (body ++ '/' :: '>' :: cs)) = some ([], found) := by
  obtain ⟨q, tail, hsplit, hq⟩ := hbody.split
  have hquoted : quotedAddress? ('s' :: 'r' :: 'c' :: '=' :: '\x22' :: (body ++ '/' :: '>' :: cs)) =
      some (untilMark body, tail ++ '/' :: '>' :: cs) := by
    conv_lhs => rw [hsplit, List.append_assoc, List.cons_append]
    exact quotedAddress?_source (fun c => not_mark_of_mem_untilMark) hq
  have hhere : ∃ found,
      sourceHere? accept ('s' :: 'r' :: 'c' :: '=' :: '\x22' :: (body ++ '/' :: '>' :: cs)) = some found := by
    rw [sourceHere?, hquoted]
    simp only [h, if_true]
    split
    · exact ⟨_, rfl⟩
    · rename_i hdrop
      have hall := List.dropWhile_eq_nil_iff.1 hdrop '>' (by simp)
      cases hall
  obtain ⟨found, hfound⟩ := hhere
  refine ⟨found, ?_⟩
  unfold findSource?
  rw [hfound]

/-- A source attribute begins with the first one or after it, not inside of it. -/
theorem SourceAt.outside {url after text before source : List Char} (hat : SourceAt url after source)
    (h : 's' :: 'r' :: 'c' :: '=' :: '\x22' :: text = before ++ source) :
    before = [] ∨ ∃ front, before = 's' :: 'r' :: 'c' :: '=' :: '\x22' :: front ∧ text = front ++ source := by
  cases hat with
  | mk hs =>
    match before with
    | [] => exact .inl rfl
    | [_] =>
      simp only [List.cons_append, List.nil_append, List.cons.injEq] at h
      obtain ⟨-, rfl, -⟩ := h
      cases hs
    | [_, _] =>
      simp only [List.cons_append, List.nil_append, List.cons.injEq] at h
      obtain ⟨-, -, rfl, -⟩ := h
      cases hs
    | [_, _, _] =>
      simp only [List.cons_append, List.nil_append, List.cons.injEq] at h
      obtain ⟨-, -, -, rfl, -⟩ := h
      cases hs
    | [_, _, _, _] =>
      simp only [List.cons_append, List.nil_append, List.cons.injEq] at h
      obtain ⟨-, -, -, -, rfl, -⟩ := h
      cases hs
    | _ :: _ :: _ :: _ :: _ :: front =>
      simp only [List.cons_append, List.cons.injEq] at h
      obtain ⟨rfl, rfl, rfl, rfl, rfl, h⟩ := h
      exact .inr ⟨front, rfl, h⟩

/-- A source attribute that begins in the body ends in it. -/
theorem SourceAt.in_body {url front source y : List Char} (hne : url ≠ []) (hend : ¬ ['/', '>'] <+: url)
    (hbody : IsBody body) (hfront : '>' ∉ front) (hat : SourceAt url y source)
    (h : body ++ '/' :: '>' :: cs = front ++ source) :
    ∃ here tail, body = front ++ here ∧ SourceAt url tail here ∧ tail ++ '/' :: '>' :: cs = y := by
  cases hat with
  | @mk s r c e q q' _ _ hs hr hc he hq hurl hq' =>
    have hopen : '>' ∉ front ++ [s, r, c, e] := by
      simp only [List.mem_append, List.mem_cons, List.not_mem_nil, or_false, not_or]
      refine ⟨hfront, ?_, ?_, ?_, ?_⟩
      · rintro rfl
        cases hs
      · rintro rfl
        cases hr
      · rintro rfl
        cases hc
      · rintro rfl
        cases he
    have hsplit : body ++ '/' :: '>' :: cs = (front ++ [s, r, c, e]) ++ q :: (url ++ q' :: y) := by
      rw [h]
      simp
    obtain ⟨quoted, rfl, hy⟩ := mark_in_body hopen hq hsplit
    have hlast : ∀ c ∈ quoted.getLast?, c = '\x22' := by
      intro c hc
      have hl := hbody.last
      rw [List.getLast?_append, List.getLast?_cons, Option.mem_def.1 hc] at hl
      simpa using hl
    obtain ⟨tail, rfl, rfl⟩ := address_in_body hlast hne hend hurl hq' hy.symm
    exact ⟨_, tail, by simp, .mk hs hr hc he hq hurl hq', rfl⟩

/-- Of a found address, the attributes before it and those after it: it stands at the start of the body, or after some
of it. -/
theorem TagSource.in_body {url before after rest source : List Char} (hinside : StaysInside accept)
    (hbody : IsBody body) (hbefore : '>' ∉ before) (hsource : TagSource accept url after rest source)
    (h : 's' :: 'r' :: 'c' :: '=' :: '\x22' :: (body ++ '/' :: '>' :: cs) = before ++ source) :
    (∃ q tail, before = [] ∧ body = url ++ q :: tail ∧ isQuotationMark q = true ∧
        tail ++ '/' :: '>' :: cs = after ++ '>' :: rest) ∨
      ∃ front here tail, before = 's' :: 'r' :: 'c' :: '=' :: '\x22' :: front ∧ body = front ++ here ∧
        SourceAt url tail here ∧ tail ++ '/' :: '>' :: cs = after ++ '>' :: rest := by
  obtain ⟨haccept, -, hat⟩ := hsource
  obtain ⟨hne, hend⟩ := hinside url haccept
  obtain rfl | ⟨front, rfl, htext⟩ := hat.outside h
  · generalize htail : after ++ '>' :: rest = y at hat
    cases hat with
    | @mk _ _ _ _ _ q' _ _ _ _ _ _ _ hurl hq' =>
      simp only [List.nil_append, List.cons.injEq] at h
      obtain ⟨tail, hsplit, rfl⟩ := address_in_body (fun c hc => Option.some.inj (hc.symm.trans hbody.last)) hne hend
        hurl hq' h.2.2.2.2.2
      exact .inl ⟨q', tail, rfl, hsplit, hq', rfl⟩
  · have hfront : '>' ∉ front := fun hm => hbefore (by simp [hm])
    obtain ⟨here, tail, hsplit, hhere, htail⟩ := hat.in_body hne hend hbody hfront htext
    exact .inr ⟨front, here, tail, rfl, hsplit, hhere, htail⟩

/-- What the body of a tag becomes: an acceptable address at its start follows the base, and otherwise it begins as
before. -/
structure Redone (accept : List Char → Bool) (base body redone : List Char) : Prop where
  isBody : IsBody redone
  based : accept (untilMark body) = true → base <+: redone
  alike : accept (untilMark body) = false → Alike body redone

theorem getLast?_tail {q : Char} {tail : List Char} (front : List Char)
    (h : (front ++ q :: tail).getLast? = some '\x22') (front' : List Char) :
    (front' ++ '\x22' :: tail).getLast? = some '\x22' := by
  rw [List.getLast?_append, List.getLast?_cons] at h ⊢
  cases tail with
  | nil => rfl
  | cons c tail =>
    rw [List.getLast?_cons] at h ⊢
    exact h

theorem redone_front {url tail : List Char} {q : Char} (hbase : '<' ∉ base) (hbody : IsBody (url ++ q :: tail))
    (hurl : ∀ c ∈ url, isQuotationMark c = false) (hq : isQuotationMark q = true) (haccept : accept url = true) :
    Redone accept base (url ++ q :: tail) (base ++ url ++ '\x22' :: tail) := by
  have hclosed := hbody.closed
  simp only [List.mem_append, List.mem_cons, not_or] at hclosed
  refine ⟨⟨?_, getLast?_tail url hbody.last _⟩, fun _ => ⟨url ++ '\x22' :: tail, by simp⟩, fun hreject => ?_⟩
  · simp only [List.mem_append, List.mem_cons, not_or]
    exact ⟨⟨hbase, hclosed.1⟩, by decide, hclosed.2.2⟩
  · rw [untilMark_append hurl hq, haccept] at hreject
    cases hreject

theorem redone_later {url tail front here : List Char} (hbase : '<' ∉ base) (hbody : IsBody (front ++ here))
    (hat : SourceAt url tail here) (hreject : accept (untilMark (front ++ here)) = false) :
    Redone accept base (front ++ here)
      (front ++ 's' :: 'r' :: 'c' :: '=' :: '\x22' :: (base ++ url ++ '\x22' :: tail)) := by
  cases hat with
  | @mk s r c e q q' _ _ hs hr hc he hq hurl hq' =>
    have hplain : isQuotationMark s = false := by
      have hall : ∀ s ∈ ['s', 'S', '\u017f'], isQuotationMark s = false := Text.forall_mem_of_all (by decide)
      exact hall s (mem_of_matchesLetter_s hs)
    have hclosed := hbody.closed
    simp only [List.mem_append, List.mem_cons, not_or] at hclosed
    obtain ⟨hfront, -, -, -, -, -, hurl', -, htail⟩ := hclosed
    refine ⟨⟨?_, ?_⟩, fun haccept => ?_, fun _ => ?_⟩
    · simp only [List.mem_append, List.mem_cons, not_or]
      exact ⟨hfront, by decide, by decide, by decide, by decide, by decide, ⟨hbase, hurl'⟩, by decide, htail⟩
    · have hlast := hbody.last
      rw [List.append_cons, List.append_cons, List.append_cons, List.append_cons, List.append_cons,
        ← List.append_assoc] at hlast
      simpa using getLast?_tail _ hlast (front ++ 's' :: 'r' :: 'c' :: '=' :: '\x22' :: (base ++ url))
    · rw [hreject] at haccept
      cases haccept
    · exact .turn front (breaks_source hs hr _) (breaks_source rfl rfl _) hplain rfl

theorem redone_of_found {before url after rest : List Char} (hinside : StaysInside accept) (hbase : '<' ∉ base)
    (hbody : IsBody body)
    (h : findSource? accept ('s' :: 'r' :: 'c' :: '=' :: '\x22' :: (body ++ '/' :: '>' :: cs)) =
      some (before, url, after, rest)) :
    ∃ tail redone, before ++ "src=\x22".toList ++ base ++ url ++ '\x22' :: tail =
        's' :: 'r' :: 'c' :: '=' :: '\x22' :: redone ∧
      tail ++ '/' :: '>' :: cs = after ++ '>' :: rest ∧ '<' ∉ tail ∧ '>' ∉ after ∧ Redone accept base body redone := by
  obtain ⟨source, hsplit, hbefore, hsource⟩ := findSource?_eq_some h
  obtain ⟨q, tail, rfl, rfl, hq, htail⟩ | ⟨front, here, tail, rfl, rfl, hat, htail⟩ :=
    hsource.in_body hinside hbody hbefore hsplit
  · have hclosed := hbody.closed
    simp only [List.mem_append, List.mem_cons, not_or] at hclosed
    exact ⟨tail, _, rfl, htail, hclosed.2.2, hsource.inside, redone_front hbase hbody hsource.source.url_plain hq
      hsource.accepted⟩
  · have hreject : accept (untilMark (front ++ here)) = false := by
      rw [Bool.eq_false_iff]
      intro haccept
      obtain ⟨found, hfound⟩ := @findSource?_of_accept accept _ cs hbody haccept
      rw [hfound] at h
      cases h
    have hclosed : '<' ∉ tail := fun hm => hbody.closed (List.mem_append_right _ (hat.mem_after hm))
    exact ⟨tail, _, by simp, htail, hclosed, hsource.inside, redone_later hbase hbody hat hreject⟩

/-- An image tag is replaced by one with the redone body, and the replacement goes on after it. -/
theorem replaceFrom_image (hinside : StaysInside accept) (hbase : '<' ∉ base) (hbody : IsBody body) :
    ∃ redone, replaceFrom (imageTag? accept base) 0 ('<' :: (imageStart ++ (body ++ '/' :: '>' :: cs))) =
        '<' :: (imageStart ++ (redone ++ '/' :: '>' :: replaceFrom (imageTag? accept base) 0 cs)) ∧
      Redone accept base body redone := by
  cases hfound : findSource? accept ('s' :: 'r' :: 'c' :: '=' :: '\x22' :: (body ++ '/' :: '>' :: cs)) with
  | none =>
    have hcopy : '<' ∉ imageStart ++ (body ++ ['/', '>']) := by
      rw [List.mem_append, List.mem_append, not_or, not_or]
      exact ⟨by decide, hbody.closed, by decide⟩
    have htext : imageStart ++ (body ++ '/' :: '>' :: cs) = imageStart ++ (body ++ ['/', '>']) ++ cs := by simp
    refine ⟨body, ?_, hbody, fun haccept => ?_, fun _ => .same body⟩
    · rw [replaceFrom, imageTag?_imageStart, hfound, Option.map_none, htext, replaceFrom_tag_of_not_mem hcopy]
      simp
    · obtain ⟨found, hsome⟩ := @findSource?_of_accept accept _ cs hbody haccept
      rw [hfound] at hsome
      cases hsome
  | some found =>
    obtain ⟨before, url, after, rest⟩ := found
    obtain ⟨tail, redone, hwritten, htail, hclosed, hafter, hredone⟩ := redone_of_found hinside hbase hbody hfound
    refine ⟨redone, ?_, hredone⟩
    obtain ⟨source, hsplit, -, hsource⟩ := findSource?_eq_some hfound
    obtain ⟨head, rfl, -⟩ := hsource.source.split
    have htag : imageTag? accept base ('<' :: (imageStart ++ (body ++ '/' :: '>' :: cs))) =
        some ("<img ".toList ++ before ++ "src=\x22".toList ++ base ++ url ++ '\x22' :: (after ++ ['>']), rest) := by
      rw [imageTag?_imageStart, hfound, Option.map_some]
    have hstretch : '<' :: (imageStart ++ (body ++ '/' :: '>' :: cs)) =
        ("<img ".toList ++ before ++ head) ++ '>' :: rest := by
      rw [List.append_assoc, List.append_assoc, ← hsplit]
      rfl
    rw [replaceFrom_stretch htag hstretch]
    have hcopy := @copy_after cs (imageTag? accept base) (fun _ hc cs => imageTag?_of_ne hc cs) _ _ _ hclosed hafter
      htail
    calc "<img ".toList ++ before ++ "src=\x22".toList ++ base ++ url ++ '\x22' :: (after ++ ['>']) ++
          replaceFrom (imageTag? accept base) 0 rest
        = "<img ".toList ++ (before ++ "src=\x22".toList ++ base ++ url ++ '\x22' ::
            (after ++ '>' :: replaceFrom (imageTag? accept base) 0 rest)) := by simp
      _ = "<img ".toList ++ (before ++ "src=\x22".toList ++ base ++ url ++ '\x22' :: tail ++
            '/' :: '>' :: replaceFrom (imageTag? accept base) 0 cs) := by
        rw [hcopy]
        simp
      _ = '<' :: (imageStart ++ (redone ++ '/' :: '>' :: replaceFrom (imageTag? accept base) 0 cs)) := by
        rw [hwritten]
        rfl

end Tag

end ConsentBanner.Asset
