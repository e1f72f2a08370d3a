import Mathlib.Data.List.Infix
import ConsentBanner.Proofs.Asset.Reference

/-!
Texts that begin alike: they go apart only where none of the words goes on by which an address is judged.
-/

namespace ConsentBanner.Asset

/-- Whether a text begins with a word, in letters of either case. -/
def begins (word text : List Char) : Bool := (afterIgnoringCase? word text).isSome

@[simp] theorem begins_nil (text : List Char) : begins [] text = true := rfl

@[simp] theorem begins_cons_nil (p : Char) (word : List Char) : begins (p :: word) [] = false := rfl

@[simp] theorem begins_cons_cons (p c : Char) (word text : List Char) :
    begins (p :: word) (c :: text) = (matchesLetter p c && begins word text) := by
  rw [begins, afterIgnoringCase?]
  split
  · rename_i hc
    rw [hc, Bool.true_and, begins]
  · rename_i hc
    rw [Bool.eq_false_iff.2 hc, Bool.false_and]
    rfl

/-- The words by which a tag is told to be an image's, and an address to be absolute, rooted or relative. -/
def words : List (List Char) :=
  ["img", "http://", "https://", "data:", "/", "http:", "https:"].map String.toList

/-- A text at whose start none of the words goes on. -/
def Breaks (text : List Char) : Prop := ∀ word ∈ words, ∀ part, part <:+ word → part ≠ [] → begins part text = false

/-- Whether a character stands in none of the words, in either case. -/
def isOutside (c : Char) : Bool := words.all (·.all fun p => !matchesLetter p c)

theorem matchesLetter_of_isOutside {c p : Char} {word : List Char} (h : isOutside c = true) (hword : word ∈ words)
    (hp : p ∈ word) : matchesLetter p c = false := by
  simpa using List.all_eq_true.1 (List.all_eq_true.1 h word hword) p hp

theorem Breaks.of_isOutside {c : Char} (h : isOutside c = true) (text : List Char) : Breaks (c :: text) := by
  intro word hword part hpart hne
  obtain ⟨p, rest, rfl⟩ := List.exists_cons_of_ne_nil hne
  rw [begins_cons_cons, matchesLetter_of_isOutside h hword (hpart.subset List.mem_cons_self), Bool.false_and]

theorem mem_of_matchesLetter {p c : Char} {cased : List Char} (hp : p ∈ cased)
    (htable : ∀ n < 128, (Char.ofNat n).toLower = p → Char.ofNat n ∈ cased)
    (hother : ∀ d ∈ ['\u0130', '\u0131', '\u212a', '\u017f'], matchesLetter p d = true → d ∈ cased)
    (h : matchesLetter p c = true) : c ∈ cased := by
  by_cases hc : c ∈ ['\u0130', '\u0131', '\u212a', '\u017f']
  · exact hother c hc h
  · simp only [List.mem_cons, List.not_mem_nil, or_false, not_or] at hc
    obtain ⟨h₁, h₂, h₃, h₄⟩ := hc
    simp only [matchesLetter, h₁, h₂, h₃, h₄, Bool.or_eq_true, Bool.and_eq_true, beq_iff_eq, or_self, and_false,
      or_false] at h
    obtain rfl | h := h
    · exact hp
    · exact Text.mem_of_toLower hp htable h

theorem eq_of_matchesLetter_lt {c : Char} (h : matchesLetter '<' c = true) : c = '<' :=
  List.mem_singleton.1
    (mem_of_matchesLetter (List.mem_singleton_self _) (by decide) (Text.forall_mem_of_all (by decide)) h)

theorem mem_of_matchesLetter_b {c : Char} (h : matchesLetter 'b' c = true) : c ∈ ['b', 'B'] :=
  mem_of_matchesLetter (.head _) (by decide) (Text.forall_mem_of_all (by decide)) h

theorem mem_of_matchesLetter_s {c : Char} (h : matchesLetter 's' c = true) : c ∈ ['s', 'S', '\u017f'] :=
  mem_of_matchesLetter (.head _) (by decide) (Text.forall_mem_of_all (by decide)) h

theorem mem_of_matchesLetter_r {c : Char} (h : matchesLetter 'r' c = true) : c ∈ ['r', 'R'] :=
  mem_of_matchesLetter (.head _) (by decide) (Text.forall_mem_of_all (by decide)) h

theorem breaks_char {c : Char} (h : c ∈ ['<', 'b', 'B', ')', '\x22', '\x27']) (text : List Char) :
    Breaks (c :: text) := by
  have hall : ∀ c ∈ ['<', 'b', 'B', ')', '\x22', '\x27'], isOutside c = true := Text.forall_mem_of_all (by decide)
  exact .of_isOutside (hall c h) text

/-- None of the words goes on with a source. -/
theorem breaks_source {s r : Char} (hs : matchesLetter 's' s = true) (hr : matchesLetter 'r' r = true)
    (text : List Char) : Breaks (s :: r :: text) := by
  have hall : (['s', 'S', '\u017f'].all fun s => ['r', 'R'].all fun r =>
      decide (∀ word ∈ words, ∀ part ∈ word.tails, part ≠ [] → begins (part.take 2) [s, r] = false)) = true := by
    decide
  have hletters := List.all_eq_true.1 (List.all_eq_true.1 hall s (mem_of_matchesLetter_s hs)) r
    (mem_of_matchesLetter_r hr)
  intro word hword part hpart hne
  have hsr := of_decide_eq_true hletters word hword part ((List.mem_tails _ _).2 hpart) hne
  match part, hne with
  | [p], _ => simpa using hsr
  | p :: q :: part, _ =>
    simp only [List.take_succ_cons, List.take_zero, begins_cons_cons, begins_nil, Bool.and_true] at hsr
    rw [begins_cons_cons, begins_cons_cons, ← Bool.and_assoc, hsr, Bool.false_and]

theorem begins_of_isPrefixOf {word text : List Char} (h : word.isPrefixOf text = true) : begins word text = true := by
  obtain ⟨rest, rfl⟩ := List.isPrefixOf_iff_prefix.1 h
  clear h
  induction word with
  | nil => rfl
  | cons p word ih =>
    have hp : matchesLetter p p = true := by simp [matchesLetter]
    rw [List.cons_append, begins_cons_cons, hp, ih]
    rfl

section

variable {word part text : List Char}

/-- A word stands at the start of a text that breaks all words exactly if it does so before the break. -/
theorem begins_append_of_breaks (hword : word ∈ words) (hpart : part <:+ word) (common : List Char)
    (htext : Breaks text) : begins part (common ++ text) = begins part common := by
  induction common generalizing part with
  | nil =>
    cases part with
    | nil => rfl
    | cons p part => exact htext word hword _ hpart (List.cons_ne_nil p part)
  | cons c common ih =>
    cases part with
    | nil => rfl
    | cons p part =>
      rw [List.cons_append, begins_cons_cons, begins_cons_cons, ih ((List.suffix_cons p part).trans hpart)]

theorem isPrefixOf_append_of_breaks (hword : word ∈ words) (hpart : part <:+ word) (common : List Char)
    (htext : Breaks text) : part.isPrefixOf (common ++ text) = part.isPrefixOf common := by
  induction common generalizing part with
  | nil =>
    cases part with
    | nil => simp
    | cons p part =>
      have hbreak := htext word hword _ hpart (List.cons_ne_nil p part)
      rw [List.nil_append, List.isPrefixOf_cons_nil, Bool.eq_false_iff]
      intro h
      rw [begins_of_isPrefixOf h] at hbreak
      cases hbreak
  | cons c common ih =>
    cases part with
    | nil => simp
    | cons p part =>
      rw [List.cons_append, List.isPrefixOf_cons_cons, List.isPrefixOf_cons_cons,
        ih ((List.suffix_cons p part).trans hpart)]

end

/-- Two texts that go apart, if at all, where none of the words goes on, and before no quotation mark. -/
inductive Alike : List Char → List Char → Prop
  | same (cs : List Char) : Alike cs cs
  | turn (common : List Char) {c d : Char} {cs ds : List Char} (hc : Breaks (c :: cs)) (hd : Breaks (d :: ds))
      (hqc : isQuotationMark c = false) (hqd : isQuotationMark d = false) :
      Alike (common ++ c :: cs) (common ++ d :: ds)

/-- The text up to the first quotation mark. -/
def untilMark (cs : List Char) : List Char := cs.takeWhile (!isQuotationMark ·)

theorem isOutside_of_isQuotationMark {c : Char} (h : isQuotationMark c = true) : isOutside c = true := by
  have hall : ∀ c ∈ ['\x22', '\x27'], isOutside c = true := Text.forall_mem_of_all (by decide)
  exact hall c (by simpa [isQuotationMark] using h)

theorem begins_untilMark {word : List Char} (hword : word ∈ words) (cs : List Char) :
    begins word (untilMark cs) = begins word cs := by
  suffices h : ∀ part, part <:+ word → begins part (untilMark cs) = begins part cs from h word List.suffix_rfl
  intro part hpart
  induction cs generalizing part with
  | nil => rfl
  | cons c cs ih =>
    cases part with
    | nil => rfl
    | cons p part =>
      have htail := ih part ((List.suffix_cons p part).trans hpart)
      rw [untilMark] at htail ⊢
      rw [List.takeWhile_cons]
      cases hc : isQuotationMark c with
      | true =>
        rw [begins_cons_cons,
          matchesLetter_of_isOutside (isOutside_of_isQuotationMark hc) hword (hpart.subset List.mem_cons_self)]
        rfl
      | false =>
        rw [Bool.not_false, if_pos rfl, begins_cons_cons, begins_cons_cons, htail]

theorem isRelative_iff {url : List Char} : isRelative url = true ↔ url ≠ [] ∧
    ∀ word ∈ ["/", "http:", "https:", "data:"].map String.toList, begins word url = false := by
  simp only [isRelative, Bool.and_eq_true, Bool.not_eq_true', List.isEmpty_eq_false_iff, List.all_eq_true,
    List.forall_mem_map, begins, Option.isNone_iff_eq_none, Option.isSome_eq_false_iff]

namespace Alike

variable {cs ds : List Char}

theorem cons (h : Alike cs ds) (c : Char) : Alike (c :: cs) (c :: ds) := by
  cases h with
  | same => exact .same _
  | turn common hc hd hqc hqd => exact .turn (c :: common) hc hd hqc hqd

theorem begins (h : Alike cs ds) {word : List Char} (hword : word ∈ words) :
    Asset.begins word ds = Asset.begins word cs := by
  cases h with
  | same => rfl
  | turn common hc hd =>
    rw [begins_append_of_breaks hword List.suffix_rfl common hc,
      begins_append_of_breaks hword List.suffix_rfl common hd]

theorem isPrefixOf (h : Alike cs ds) {word : List Char} (hword : word ∈ words) :
    word.isPrefixOf ds = word.isPrefixOf cs := by
  cases h with
  | same => rfl
  | turn common hc hd =>
    rw [isPrefixOf_append_of_breaks hword List.suffix_rfl common hc,
      isPrefixOf_append_of_breaks hword List.suffix_rfl common hd]

theorem untilMark_eq_nil (h : Alike cs ds) : untilMark ds = [] ↔ untilMark cs = [] := by
  cases h with
  | same => rfl
  | turn common hc hd hqc hqd =>
    cases common with
    | nil => simp [untilMark, hqc, hqd]
    | cons c common =>
      simp only [untilMark, List.cons_append, List.takeWhile_cons]
      split
      · simp
      · rfl

theorem isRelative_untilMark (h : Alike cs ds) : isRelative (untilMark ds) = isRelative (untilMark cs) := by
  rw [Bool.eq_iff_iff, isRelative_iff, isRelative_iff, ne_eq, h.untilMark_eq_nil]
  refine and_congr_right fun _ => forall₂_congr fun word hword => ?_
  have hmem : word ∈ words := by
    revert word
    decide
  rw [begins_untilMark hmem, begins_untilMark hmem, h.begins hmem]

end Alike

/-- Recognised stretches that begin, like what is written for them, where no word goes on and before no quotation
mark. -/
def Turns (found? : List Char → Option (List Char × List Char)) : Prop :=
  ∀ {cs written rest}, found? cs = some (written, rest) → ∃ c cs' d written', cs = c :: cs' ∧ written = d :: written' ∧
    c ∈ ['<', 'b', 'B'] ∧ d ∈ ['<', 'b', 'B']

theorem Alike.turn_at {c d : Char} (hc : c ∈ ['<', 'b', 'B']) (hd : d ∈ ['<', 'b', 'B']) (cs ds : List Char) :
    Alike (c :: cs) (d :: ds) := by
  have hplain : ∀ c ∈ ['<', 'b', 'B'], c ∈ ['<', 'b', 'B', ')', '\x22', '\x27'] ∧ isQuotationMark c = false :=
    Text.forall_mem_of_all (by decide)
  exact .turn [] (breaks_char (hplain c hc).1 cs) (breaks_char (hplain d hd).1 ds) (hplain c hc).2 (hplain d hd).2

/-- Replaced texts are alike to what they were. -/
theorem Turns.alike_replaceFrom {found? : List Char → Option (List Char × List Char)} (h : Turns found?)
    (cs : List Char) : Alike cs (replaceFrom found? 0 cs) := by
  induction cs with
  | nil => exact .same []
  | cons c cs ih =>
    rw [replaceFrom]
    split
    · rename_i written rest hs
      obtain ⟨_, _, d, written', ⟨⟩, rfl, hc, hd⟩ := h hs
      exact .turn_at hc hd _ _
    · exact ih.cons c

end ConsentBanner.Asset
