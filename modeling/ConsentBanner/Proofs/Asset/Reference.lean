import ConsentBanner.Asset.Reference
import ConsentBanner.Proofs.Text

/-!
Making image references absolute keeps every stretch of a text that no reference can overlap.
-/

namespace ConsentBanner.Asset

theorem afterIgnoringCase?_cons {p : Char} {pattern text rest : List Char} :
    afterIgnoringCase? (p :: pattern) text = some rest ↔
      ∃ c cs, text = c :: cs ∧ matchesLetter p c = true ∧ afterIgnoringCase? pattern cs = some rest := by
  cases text with
  | nil => simp [afterIgnoringCase?]
  | cons c cs =>
    rw [afterIgnoringCase?]
    constructor
    · intro h
      split at h
      · rename_i hc
        exact ⟨c, cs, rfl, hc, h⟩
      · cases h
    · rintro ⟨_, _, ⟨⟩, hc, h⟩
      rw [if_pos hc, h]

theorem afterIgnoringCase?_eq_some {pattern text rest : List Char}
    (h : afterIgnoringCase? pattern text = some rest) :
    ∃ matched, text = matched ++ rest ∧ ∀ c ∈ matched, ∃ p ∈ pattern, matchesLetter p c = true := by
  induction pattern generalizing text with
  | nil =>
    cases h
    exact ⟨[], rfl, by simp⟩
  | cons p pattern ih =>
    obtain ⟨c, cs, rfl, hc, h⟩ := afterIgnoringCase?_cons.1 h
    obtain ⟨matched, rfl, hm⟩ := ih h
    refine ⟨c :: matched, rfl, ?_⟩
    rw [List.forall_mem_cons]
    exact ⟨⟨p, by simp, hc⟩, fun c hc => by
      obtain ⟨p, hp, h⟩ := hm c hc
      exact ⟨p, by simp [hp], h⟩⟩

theorem dropMark_eq (p : Char → Bool) (cs : List Char) :
    ∃ mark, cs = mark ++ dropMark p cs ∧ (mark = [] ∨ ∃ c, mark = [c] ∧ p c = true) := by
  cases cs with
  | nil => exact ⟨[], rfl, .inl rfl⟩
  | cons c rest =>
    rw [dropMark]
    split
    · rename_i hc
      exact ⟨[c], rfl, .inr ⟨c, rfl, hc⟩⟩
    · exact ⟨[], rfl, .inl rfl⟩

theorem replaceFrom_skip {found? : List Char → Option (List Char × List Char)} (dropped rest : List Char) :
    replaceFrom found? dropped.length (dropped ++ rest) = replaceFrom found? 0 rest := by
  induction dropped with
  | nil => rfl
  | cons c dropped ih => exact ih

theorem replaceFrom_copy {found? : List Char → Option (List Char × List Char)} {copied : List Char}
    (h : ∀ c ∈ copied, ∀ cs, found? (c :: cs) = none) (rest : List Char) :
    replaceFrom found? 0 (copied ++ rest) = copied ++ replaceFrom found? 0 rest := by
  induction copied with
  | nil => rfl
  | cons c copied ih =>
    rw [List.forall_mem_cons] at h
    rw [List.cons_append, replaceFrom, h.1]
    simp [ih h.2]

/-- What is recognised starts and ends outside a text, and keeps the text where it contains it. -/
structure Spares (found? : List Char → Option (List Char × List Char)) (m : List Char) : Prop where
  start : ∀ c ∈ m, ∀ cs, found? (c :: cs) = none
  stretch : ∀ {cs written rest}, found? cs = some (written, rest) →
    ∃ body x, cs = body ++ x :: rest ∧ x ∉ m ∧ (m <:+: body → m <:+: written)

/-- A recognised stretch gives way to what is written, and the replacement goes on after it. -/
theorem replaceFrom_stretch {found? : List Char → Option (List Char × List Char)}
    {cs written rest body : List Char} {x : Char} (hs : found? cs = some (written, rest))
    (he : cs = body ++ x :: rest) : replaceFrom found? 0 cs = written ++ replaceFrom found? 0 rest := by
  cases body with
  | nil =>
    subst he
    simp only [List.nil_append] at hs ⊢
    rw [replaceFrom, hs]
    simp only [Nat.sub_self]
  | cons c body =>
    subst he
    have hl : (body ++ x :: rest).length - rest.length = (body ++ [x]).length := by
      simp only [List.length_append, List.length_cons, List.length_nil]
      omega
    simp only [List.cons_append] at hs ⊢
    rw [replaceFrom, hs]
    simp only [hl]
    rw [List.append_cons body x rest, replaceFrom_skip]

theorem infix_replaceFrom {found? : List Char → Option (List Char × List Char)} {m : List Char}
    (hf : Spares found? m) {cs : List Char} (h : m <:+: cs) : m <:+: replaceFrom found? 0 cs := by
  -- After a recognised stretch the replacement goes on in the rest, so the induction is on the length.
  induction hn : cs.length using Nat.strongRecOn generalizing cs with
  | ind n ih =>
    cases cs with
    | nil => exact h
    | cons c cs =>
      rw [List.length_cons] at hn
      cases hs : found? (c :: cs) with
      | some found =>
        obtain ⟨written, rest⟩ := found
        obtain ⟨body, x, he, hx, hb⟩ := hf.stretch hs
        have hl := congrArg List.length he
        simp only [List.length_cons, List.length_append] at hl
        rw [replaceFrom_stretch hs he]
        rw [he] at h
        rcases Text.infix_append_cons hx h with h | h
        · exact (hb h).trans (List.prefix_append _ _).isInfix
        · exact (ih rest.length (by omega) h rfl).trans (List.suffix_append _ _).isInfix
      | none =>
        rw [List.infix_cons_iff] at h
        rcases h with ⟨t, ht⟩ | h
        · rw [← ht, replaceFrom_copy hf.start t]
          exact (List.prefix_append m _).isInfix
        · rw [replaceFrom, hs]
          exact (ih cs.length (by omega) h rfl).trans (List.suffix_cons _ _).isInfix

/-- A text with two double quotes that has no character in common with the ends of image references. -/
structure Intact (m : List Char) : Prop where
  head : m.head? = some 'd'
  quotes : 2 ≤ m.count '\x22'
  marks : ∀ c ∈ m, ∀ p ∈ ['<', 's', 'b', '('], matchesLetter p c = false
  ends : '>' ∉ m ∧ ')' ∉ m ∧ '\x27' ∉ m

namespace Intact

variable {m : List Char}

theorem of_all (head : m.head? = some 'd') (quotes : 2 ≤ m.count '\x22')
    (marks : (m.all fun c => ['<', 's', 'b', '('].all fun p => decide (matchesLetter p c = false)) = true)
    (ends : '>' ∉ m ∧ ')' ∉ m ∧ '\x27' ∉ m) : Intact m where
  head := head
  quotes := quotes
  marks c hc := Text.forall_mem_of_all (List.all_eq_true.1 marks c hc)
  ends := ends

theorem not_mem (h : Intact m) {p c : Char} (hc : matchesLetter p c = true) (hp : p ∈ ['<', 's', 'b', '(']) :
    c ∉ m := by
  intro hm
  have hf := h.marks c hm p hp
  rw [hc] at hf
  cases hf

theorem ne_nil (h : Intact m) : m ≠ [] := by
  rintro rfl
  cases h.head

theorem strip (h : Intact m) {c : Char} {cs : List Char} (hc : c ≠ 'd') (hi : m <:+: c :: cs) : m <:+: cs := by
  refine Text.infix_of_infix_cons ?_ h.ne_nil hi
  intro y hy
  rw [h.head] at hy
  cases hy
  exact hc.symm

theorem strip_all (h : Intact m) {l cs : List Char} (hl : ∀ c ∈ l, c ≠ 'd') (hi : m <:+: l ++ cs) : m <:+: cs := by
  induction l with
  | nil => exact hi
  | cons c l ih =>
    rw [List.forall_mem_cons] at hl
    exact ih hl.2 (h.strip hl.1 hi)

theorem strip_letter (h : Intact m) {p c : Char} {cs : List Char} (hc : matchesLetter p c = true)
    (hp : matchesLetter p 'd' = false) (hi : m <:+: c :: cs) : m <:+: cs := by
  apply h.strip _ hi
  rintro rfl
  rw [hc] at hp
  cases hp

theorem not_infix_quote (h : Intact m) {cs : List Char} (hq : cs.count '\x22' ≤ 1) : ¬ m <:+: cs := by
  intro hi
  have hc := hi.sublist.count_le '\x22'
  have h2 := h.quotes
  omega

end Intact

/-- The parts of a text with a quoted address at the given place. -/
inductive SourceAt : (url after : List Char) → List Char → Prop where
  | mk {s r c e q q' : Char} {url after : List Char} (hs : matchesLetter 's' s = true)
      (hr : matchesLetter 'r' r = true) (hc : matchesLetter 'c' c = true) (he : matchesLetter '=' e = true)
      (hq : isQuotationMark q = true) (hurl : ∀ c ∈ url, isQuotationMark c = false)
      (hq' : isQuotationMark q' = true) :
      SourceAt url after (s :: r :: c :: e :: q :: (url ++ q' :: after))

theorem SourceAt.split {url after rest source : List Char} (h : SourceAt url (after ++ rest) source) :
    ∃ head, source = head ++ rest ∧ SourceAt url after head := by
  cases h with
  | mk hs hr hc he hq hurl hq' =>
    rename_i s r c e q q'
    exact ⟨s :: r :: c :: e :: q :: (url ++ q' :: after), by simp, .mk hs hr hc he hq hurl hq'⟩

theorem SourceAt.url_plain {url after source : List Char} (h : SourceAt url after source) :
    ∀ c ∈ url, isQuotationMark c = false := by
  cases h with
  | mk _ _ _ _ _ hurl => exact hurl

theorem SourceAt.mem_after {url after source : List Char} (h : SourceAt url after source) {c : Char} (hc : c ∈ after) :
    c ∈ source := by
  cases h with
  | mk => simp [hc]

theorem quotedAddress?_eq_some {text url after : List Char} (h : quotedAddress? text = some (url, after)) :
    SourceAt url after text := by
  unfold quotedAddress? at h
  split at h
  · rename_i q rest hp
    split at h
    · rename_i hq
      split at h
      · rename_i q' after' hd
        cases h
        change afterIgnoringCase? ['s', 'r', 'c', '='] text = some (q :: rest) at hp
        obtain ⟨s, _, rfl, hs, h⟩ := afterIgnoringCase?_cons.1 hp
        obtain ⟨r, _, rfl, hr, h⟩ := afterIgnoringCase?_cons.1 h
        obtain ⟨c, _, rfl, hc, h⟩ := afterIgnoringCase?_cons.1 h
        obtain ⟨e, _, rfl, he, h⟩ := afterIgnoringCase?_cons.1 h
        cases h
        have hq' : isQuotationMark q' = true := by
          have hm := Text.head?_dropWhile_false (p := (!isQuotationMark ·)) rest q' (by rw [hd]; rfl)
          simpa using hm
        have hsplit := List.takeWhile_append_dropWhile (p := (!isQuotationMark ·)) (l := rest)
        rw [hd] at hsplit
        have hurl : ∀ c ∈ rest.takeWhile (!isQuotationMark ·), isQuotationMark c = false := by
          intro c hc
          simpa using Text.of_mem_takeWhile hc
        have hsource : SourceAt (rest.takeWhile (!isQuotationMark ·)) after _ := .mk hs hr hc he hq hurl hq'
        rwa [hsplit] at hsource
      · cases h
    · cases h
  · cases h

/-- An acceptable address at the given place inside a tag. -/
structure TagSource (accept : List Char → Bool) (url after rest source : List Char) : Prop where
  accepted : accept url = true
  inside : '>' ∉ after
  source : SourceAt url (after ++ '>' :: rest) source

theorem sourceHere?_eq_some {accept : List Char → Bool} {text url after rest : List Char}
    (h : sourceHere? accept text = some (url, after, rest)) : TagSource accept url after rest text := by
  unfold sourceHere? at h
  split at h
  · rename_i url' after' hq
    split at h
    · rename_i haccept
      split at h
      · rename_i x rest' hd
        cases h
        have hx := Text.head?_dropWhile_false (p := (· != '>')) after' x (by rw [hd]; rfl)
        have hsplit := List.takeWhile_append_dropWhile (p := (· != '>')) (l := after')
        simp only [bne_eq_false_iff_eq] at hx
        rw [hd, hx] at hsplit
        refine ⟨haccept, fun hm => ?_, ?_⟩
        · cases Text.of_mem_takeWhile hm
        · rw [hsplit]
          exact quotedAddress?_eq_some hq
      · cases h
    · cases h
  · cases h

theorem findSource?_eq_some {accept : List Char → Bool} {text before url after rest : List Char}
    (h : findSource? accept text = some (before, url, after, rest)) :
    ∃ source, text = before ++ source ∧ '>' ∉ before ∧ TagSource accept url after rest source := by
  induction text generalizing before with
  | nil =>
    unfold findSource? at h
    split at h
    · rename_i hs
      cases h
      exact ⟨[], rfl, List.not_mem_nil, sourceHere?_eq_some hs⟩
    · contradiction
    · cases h
  | cons c text ih =>
    unfold findSource? at h
    split at h
    · rename_i hs
      cases h
      exact ⟨c :: text, rfl, List.not_mem_nil, sourceHere?_eq_some hs⟩
    · rename_i hs ht
      cases ht
      split at h
      · cases h
      · rename_i hc
        obtain ⟨⟨before', found⟩, hf, he⟩ := Option.map_eq_some_iff.1 h
        cases he
        obtain ⟨source, rfl, hbefore, hsrc⟩ := ih hf
        refine ⟨source, rfl, ?_, hsrc⟩
        rw [List.mem_cons, not_or]
        exact ⟨fun he => hc (beq_iff_eq.2 he.symm), hbefore⟩
    · contradiction

theorem isQuotationMark_iff {c : Char} : isQuotationMark c = true ↔ c = '\x22' ∨ c = '\x27' := by
  simp [isQuotationMark]

theorem isBlank_ne {c : Char} (h : Text.isBlank c = true) : c ≠ 'd' := by
  rintro rfl
  simp [Text.isBlank] at h

theorem Intact.of_source {m before url after source : List Char} (hm : Intact m) (hs : SourceAt url after source)
    (hi : m <:+: before ++ source) : m <:+: before ∨ m <:+: url ++ '\x22' :: after := by
  cases hs with
  | mk hs hr hc he hq hurl hq' =>
    rename_i s r c e q q'
    rcases Text.infix_append_cons (hm.not_mem hs (by simp)) hi with hi | hi
    · exact .inl hi
    · have hi := hm.strip_letter he (by decide) (hm.strip_letter hc (by decide) (hm.strip_letter hr (by decide) hi))
      have hi : m <:+: url ++ q' :: after := by
        refine hm.strip ?_ hi
        rintro rfl
        cases hq
      rcases isQuotationMark_iff.1 hq' with rfl | rfl
      · exact .inr hi
      · rcases Text.infix_append_cons hm.ends.2.2 hi with hi | hi
        · exact .inr (hi.trans (List.prefix_append _ _).isInfix)
        · exact .inr (hi.trans ((List.suffix_cons _ _).trans (List.suffix_append _ _)).isInfix)

/-- What a pattern without the first letter of a text has matched is not part of the text. -/
theorem Intact.strip_pattern {m pattern text rest : List Char} (hm : Intact m)
    (h : afterIgnoringCase? pattern text = some rest) (hp : ∀ p ∈ pattern, matchesLetter p 'd' = false) :
    ∃ matched, text = matched ++ rest ∧ ∀ cs, m <:+: matched ++ cs → m <:+: cs := by
  obtain ⟨matched, rfl, hmatch⟩ := afterIgnoringCase?_eq_some h
  refine ⟨matched, rfl, fun cs => hm.strip_all ?_⟩
  rintro c hc rfl
  obtain ⟨p, hp', hd⟩ := hmatch _ hc
  rw [hp p hp'] at hd
  cases hd

theorem imageTag?_spares {accept : List Char → Bool} {base m : List Char} (hm : Intact m) :
    Spares (imageTag? accept base) m := by
  constructor
  · intro c hc cs
    have hn : afterIgnoringCase? "<img".toList (c :: cs) = none := by
      rw [Option.eq_none_iff_forall_ne_some]
      intro rest h
      change afterIgnoringCase? ['<', 'i', 'm', 'g'] (c :: cs) = some rest at h
      obtain ⟨c', cs', ⟨⟩, hl, -⟩ := afterIgnoringCase?_cons.1 h
      exact hm.not_mem hl (by simp) hc
    rw [imageTag?, hn]
  · intro cs written rest h
    unfold imageTag? at h
    split at h
    · rename_i c text ht
      split at h
      · rename_i hc
        obtain ⟨⟨before, url, after, rest'⟩, hf, he⟩ := Option.map_eq_some_iff.1 h
        cases he
        obtain ⟨matched, rfl, hstrip⟩ := hm.strip_pattern ht (Text.forall_mem_of_all (by decide))
        obtain ⟨_, hsplit, -, hsource⟩ := findSource?_eq_some hf
        obtain ⟨source, rfl, hs⟩ := hsource.source.split
        obtain ⟨blanks, hb, rfl⟩ : ∃ blanks, (∀ c ∈ blanks, Text.isBlank c = true) ∧
            text = blanks ++ (before ++ (source ++ '>' :: rest)) :=
          ⟨text.takeWhile Text.isBlank, fun c hc => Text.of_mem_takeWhile hc, by
            rw [← hsplit, List.takeWhile_append_dropWhile]⟩
        refine ⟨matched ++ c :: (blanks ++ (before ++ source)), '>', by simp, hm.ends.1, ?_⟩
        · intro hi
          have hi := hm.strip (isBlank_ne hc) (hstrip _ hi)
          have hi := hm.strip_all (fun c hc => isBlank_ne (hb c hc)) hi
          rcases hm.of_source hs hi with hi | hi
          · exact hi.trans ⟨"<img ".toList, "src=\"".toList ++ base ++ url ++ '\x22' :: (after ++ ['>']), by simp⟩
          · exact hi.trans ⟨"<img ".toList ++ before ++ "src=\"".toList ++ base, ['>'], by simp⟩
      · cases h
    · cases h

/-- A quotation mark, or nothing where it is missing. -/
def IsMark (mark : List Char) : Prop := mark = [] ∨ ∃ c, mark = [c] ∧ isQuotationMark c = true

/-- An address between marks that may be missing, and what stands after it. -/
theorem dropMark_address {inside : Char → Bool} (hin : inside '\x22' = false) {cs after : List Char}
    (h : dropMark isQuotationMark ((dropMark isQuotationMark cs).dropWhile inside) = after) :
    ∃ mark mark', cs = mark ++ ((dropMark isQuotationMark cs).takeWhile inside ++ (mark' ++ after)) ∧
      '\x22' ∉ (dropMark isQuotationMark cs).takeWhile inside ∧ IsMark mark ∧ IsMark mark' := by
  obtain ⟨mark, hmark, hq⟩ := dropMark_eq isQuotationMark cs
  obtain ⟨mark', hmark', hq'⟩ := dropMark_eq isQuotationMark ((dropMark isQuotationMark cs).dropWhile inside)
  have hurl := List.takeWhile_append_dropWhile (p := inside) (l := dropMark isQuotationMark cs)
  rw [h] at hmark'
  rw [hmark'] at hurl
  refine ⟨mark, mark', ?_, fun hc => ?_, hq, hq'⟩
  · rw [hurl]
    exact hmark
  · rw [Text.of_mem_takeWhile hc] at hin
    cases hin

/-- The stretch of a background image: its two patterns, and a rooted address between marks that may be missing. -/
inductive BackgroundAt (url rest : List Char) : List Char → Prop
  | mk {b p : Char} {before mark mark' : List Char} (hb : matchesLetter 'b' b = true)
      (hp : matchesLetter '(' p = true) (hbefore : '\x22' ∉ before) (hurl : '\x22' ∉ url)
      (hrooted : isRooted url = true) (hmark : IsMark mark) (hmark' : IsMark mark') :
      BackgroundAt url rest (b :: (before ++ p :: (mark ++ (url ++ (mark' ++ ')' :: rest)))))

theorem afterIgnoringCase?_url_eq_some {text rest : List Char}
    (h : afterIgnoringCase? ['u', 'r', 'l', '('] text = some rest) :
    ∃ matched p, text = matched ++ p :: rest ∧ '\x22' ∉ matched ∧ matchesLetter '(' p = true := by
  obtain ⟨u, _, rfl, hu, h⟩ := afterIgnoringCase?_cons.1 h
  obtain ⟨r, _, rfl, hr, h⟩ := afterIgnoringCase?_cons.1 h
  obtain ⟨l, _, rfl, hl, h⟩ := afterIgnoringCase?_cons.1 h
  obtain ⟨p, _, rfl, hp, h⟩ := afterIgnoringCase?_cons.1 h
  cases h
  refine ⟨[u, r, l], p, rfl, ?_, hp⟩
  simp only [List.mem_cons, List.not_mem_nil, or_false, not_or]
  refine ⟨?_, ?_, ?_⟩
  · rintro rfl
    cases hu
  · rintro rfl
    cases hr
  · rintro rfl
    cases hl

theorem afterIgnoringCase?_background_eq_some {text rest : List Char}
    (h : afterIgnoringCase? "background-image:".toList text = some rest) :
    ∃ b matched, text = b :: (matched ++ rest) ∧ matchesLetter 'b' b = true ∧ '\x22' ∉ matched := by
  change afterIgnoringCase? ('b' :: "ackground-image:".toList) text = some rest at h
  obtain ⟨b, _, rfl, hb, h⟩ := afterIgnoringCase?_cons.1 h
  obtain ⟨matched, rfl, hmatch⟩ := afterIgnoringCase?_eq_some h
  refine ⟨b, matched, rfl, hb, fun hc => ?_⟩
  have hno : ∀ p ∈ "ackground-image:".toList, matchesLetter p '\x22' = false := Text.forall_mem_of_all (by decide)
  obtain ⟨p, hp, hm⟩ := hmatch _ hc
  rw [hno p hp] at hm
  cases hm

theorem background?_eq_some {base text written rest : List Char}
    (h : background? base text = some (written, rest)) :
    ∃ url, written = "background-image: url('".toList ++ base ++ url ++ "')".toList ∧ BackgroundAt url rest text := by
  unfold background? at h
  split at h
  · cases h
  rename_i rest₁ h₁
  split at h
  · cases h
  rename_i rest₂ h₂
  dsimp only at h
  split at h
  · rename_i after hm
    split at h
    · rename_i hrooted
      cases h
      obtain ⟨b, matched, rfl, hb, hmatched⟩ := afterIgnoringCase?_background_eq_some h₁
      obtain ⟨letters, p, hblank, hletters, hp⟩ := afterIgnoringCase?_url_eq_some h₂
      obtain ⟨mark, mark', hsplit, hurl, hmark, hmark'⟩ := dropMark_address (by decide) hm
      obtain ⟨blanks, hblanks, rfl⟩ : ∃ blanks, (∀ c ∈ blanks, Text.isBlank c = true) ∧
          rest₁ = blanks ++ (letters ++ p :: rest₂) :=
        ⟨rest₁.takeWhile Text.isBlank, fun c hc => Text.of_mem_takeWhile hc, by
          rw [← hblank, List.takeWhile_append_dropWhile]⟩
      refine ⟨_, rfl, ?_⟩
      have hbefore : '\x22' ∉ matched ++ blanks ++ letters := by
        simp only [List.mem_append, not_or]
        refine ⟨⟨hmatched, fun hc => ?_⟩, hletters⟩
        cases hblanks _ hc
      have hat : BackgroundAt _ rest _ := .mk hb hp hbefore hurl hrooted hmark hmark'
      rw [← hsplit] at hat
      simpa using hat
    · cases h
  · cases h

theorem IsMark.length_le {mark : List Char} (h : IsMark mark) : mark.length ≤ 1 := by
  obtain rfl | ⟨c, rfl, -⟩ := h
  · exact Nat.zero_le 1
  · exact Nat.le_refl 1

theorem background?_spares {base m : List Char} (hm : Intact m) : Spares (background? base) m := by
  constructor
  · intro c hc cs
    have hn : afterIgnoringCase? "background-image:".toList (c :: cs) = none := by
      rw [Option.eq_none_iff_forall_ne_some]
      intro rest h
      change afterIgnoringCase? ('b' :: "ackground-image:".toList) (c :: cs) = some rest at h
      obtain ⟨c', cs', ⟨⟩, hl, -⟩ := afterIgnoringCase?_cons.1 h
      exact hm.not_mem hl (by simp) hc
    rw [background?, hn]
  · intro cs written rest h
    obtain ⟨url, -, hat⟩ := background?_eq_some h
    cases hat with
    | mk hb hp hbefore hurl hrooted hmark hmark' =>
      rename_i b p before mark mark'
      refine ⟨b :: (before ++ p :: (mark ++ (url ++ mark'))), ')', by simp, hm.ends.2.1, fun hi => ?_⟩
      -- A text with two quotes fits neither before the address nor into it.
      rcases Text.infix_append_cons (hm.not_mem hp (by simp)) (hm.strip_letter hb (by decide) hi) with hi | hi
      · exact (hm.not_infix_quote (by simp [List.count_eq_zero.2 hbefore]) hi).elim
      · have hi : m <:+: url ++ mark' := by
          rcases hmark with rfl | ⟨c, rfl, hc⟩
          · exact hi
          · refine hm.strip ?_ hi
            rintro rfl
            cases hc
        refine (hm.not_infix_quote ?_ hi).elim
        rw [List.count_append, List.count_eq_zero.2 hurl, Nat.zero_add]
        exact Nat.le_trans List.count_le_length hmark'.length_le

theorem infix_absoluteReferences {markup baseUrl : String} {m : List Char} (hm : Intact m)
    (h : m <:+: markup.toList) : m <:+: (absoluteReferences markup baseUrl).toList := by
  rw [absoluteReferences, String.toList_ofList, absoluteList]
  exact infix_replaceFrom (imageTag?_spares hm) (infix_replaceFrom (background?_spares hm)
    (infix_replaceFrom (imageTag?_spares hm) h))

end ConsentBanner.Asset
