import ConsentBanner.Text.Blank
import ConsentBanner.Text.Integer
import ConsentBanner.Text.Search
import ConsentBanner.Text.Utf8

/-!
Classes of characters beside each other, texts cut where a class ends, and texts that come back from their bytes and
from their percent-encoded form.
-/

namespace ConsentBanner.Text

theorem forall_mem_of_all {p : Char → Prop} [DecidablePred p] {cs : List Char}
    (h : (cs.all fun c => decide (p c)) = true) : ∀ c ∈ cs, p c := by
  intro c hc
  exact of_decide_eq_true (List.all_eq_true.1 h c hc)

theorem isAlphanum_range {c : Char} (h : c.isAlphanum = true) : 48 ≤ c.toNat ∧ c.toNat ≤ 122 := by
  unfold Char.isAlphanum Char.isAlpha Char.isUpper Char.isLower Char.isDigit at h
  simp only [Bool.or_eq_true, Bool.and_eq_true, decide_eq_true_eq, ge_iff_le, UInt32.le_iff_toNat_le] at h
  change (65 ≤ c.toNat ∧ c.toNat ≤ 90 ∨ 97 ≤ c.toNat ∧ c.toNat ≤ 122) ∨ 48 ≤ c.toNat ∧ c.toNat ≤ 57 at h
  omega

theorem mem_of_toLower {c p : Char} {cased : List Char} (hp : p ∈ cased)
    (htable : ∀ n < 128, (Char.ofNat n).toLower = p → Char.ofNat n ∈ cased) (h : c.toLower = p) : c ∈ cased := by
  by_cases hc : c.toNat < 128
  · rw [← Char.ofNat_toNat c] at h ⊢
    exact htable c.toNat hc h
  · have hkept : c.toLower = c := by
      refine dif_neg fun hupper => hc ?_
      have hle : c.toNat ≤ 90 := hupper.2
      omega
    rw [← hkept, h]
    exact hp

theorem digitValue?_range {c : Char} {d : Nat} (h : digitValue? c = some d) :
    ∃ z ∈ digitZeros, d < 10 ∧ c.toNat = z + d := by
  obtain ⟨z, hz, rfl⟩ := Option.map_eq_some_iff.1 h
  have hm := List.mem_of_find?_eq_some hz
  have hr := List.find?_some hz
  simp only [Bool.and_eq_true, decide_eq_true_eq] at hr
  exact ⟨z, hm, by omega, by omega⟩

theorem digits_not_blank :
    ∀ z ∈ digitZeros, ∀ d < 10, isBlank (Char.ofNat (z + d)) = false := by
  decide +kernel

theorem isBlank_of_isDecimalDigit {c : Char} (h : isDecimalDigit c = true) : isBlank c = false := by
  obtain ⟨d, hd⟩ := Option.isSome_iff_exists.1 h
  obtain ⟨z, hz, hlt, hc⟩ := digitValue?_range hd
  rw [← Char.ofNat_toNat c, hc]
  exact digits_not_blank z hz d hlt

theorem containsList_iff {pattern cs : List Char} : containsList pattern cs = true ↔ pattern <:+: cs := by
  induction cs with
  | nil => simp [containsList]
  | cons c cs ih => rw [containsList, Bool.or_eq_true, ih, List.isPrefixOf_iff_prefix, List.infix_cons_iff]

theorem contains_iff {pattern text : String} : contains pattern text = true ↔ pattern.toList <:+: text.toList :=
  containsList_iff

theorem isBlankText_ofList (cs : List Char) : isBlankText (String.ofList cs) = cs.all isBlank := by
  rw [isBlankText, String.toList_ofList]

theorem isBlankText_append (s t : String) : isBlankText (s ++ t) = (isBlankText s && isBlankText t) := by
  rw [isBlankText, String.toList_append, List.all_append, ← isBlankText, ← isBlankText]

section Cut

variable {α : Type} {p : α → Bool} {head rest : List α}

theorem of_mem_takeWhile {l : List α} {a : α} (h : a ∈ l.takeWhile p) : p a = true :=
  List.all_eq_true.1 List.all_takeWhile a h

theorem takeWhile_append_of_end (hh : ∀ a ∈ head, p a = true) (hr : ∀ a ∈ rest.head?, p a = false) :
    (head ++ rest).takeWhile p = head := by
  rw [List.takeWhile_append_of_pos hh]
  cases rest with
  | nil => simp
  | cons a rest => simp [hr a (by simp)]

theorem dropWhile_append_of_end (hh : ∀ a ∈ head, p a = true) (hr : ∀ a ∈ rest.head?, p a = false) :
    (head ++ rest).dropWhile p = rest := by
  rw [List.dropWhile_append_of_pos hh]
  cases rest with
  | nil => simp
  | cons a rest => simp [hr a (by simp)]

theorem head?_dropWhile_false (l : List α) : ∀ a ∈ (l.dropWhile p).head?, p a = false := by
  intro a ha
  have h := List.head?_dropWhile_not p l
  rw [Option.mem_def.1 ha] at h
  simpa using h

theorem dropWhile_of_head {l : List α} (h : ∀ a ∈ l.head?, p a = false) : l.dropWhile p = l := by
  cases l with
  | nil => rfl
  | cons a rest => rw [List.dropWhile_cons_of_neg (by simp [h a rfl])]

/-- A trimmed text has nothing left to trim. -/
theorem trimList_trimList (cs : List Char) : trimList (trimList cs) = trimList cs := by
  have hbegin : trimList cs <+: cs.dropWhile isBlank := by
    rw [← List.reverse_suffix, trimList, dropTrailing, List.reverse_reverse]
    exact List.dropWhile_suffix _
  have hfront : (trimList cs).dropWhile isBlank = trimList cs := by
    apply dropWhile_of_head
    intro c hc
    obtain ⟨more, hmore⟩ := hbegin
    apply head?_dropWhile_false cs c
    rw [← hmore, List.head?_append, Option.mem_def.1 hc]
    rfl
  have hback : dropTrailing isBlank (trimList cs) = trimList cs := by
    rw [trimList, dropTrailing, dropTrailing, List.reverse_reverse, dropWhile_of_head (head?_dropWhile_false _)]
  rw [trimList, hfront, hback]

/-- A text without a character stands before or after any place of that character. -/
theorem infix_append_cons {m a b : List α} {x : α} (hx : x ∉ m) (h : m <:+: a ++ x :: b) : m <:+: a ∨ m <:+: b := by
  obtain ⟨s, t, h⟩ := h
  rw [List.append_assoc, List.append_eq_append_iff] at h
  rcases h with ⟨u, rfl, h⟩ | ⟨u, rfl, h⟩
  · rw [List.append_eq_append_iff] at h
    rcases h with ⟨v, rfl, h⟩ | ⟨v, rfl, h⟩
    · exact .inl ⟨s, v, by simp⟩
    · cases v with
      | nil => exact .inl ⟨s, [], by simp⟩
      | cons y v =>
        cases h
        simp at hx
  · cases u with
    | nil =>
      cases m with
      | nil => exact .inl List.nil_infix
      | cons y m =>
        cases h
        simp at hx
    | cons y u =>
      cases h
      exact .inr ⟨u, t, by simp⟩

theorem infix_of_infix_cons {m b : List α} {x : α} (hx : ∀ y ∈ m.head?, y ≠ x) (hm : m ≠ [])
    (h : m <:+: x :: b) : m <:+: b := by
  rw [List.infix_cons_iff] at h
  rcases h with ⟨t, ht⟩ | h
  · cases m with
    | nil => exact (hm rfl).elim
    | cons y m =>
      cases ht
      exact (hx x (by simp) rfl).elim
  · exact h

/-- A text that begins outside a class is kept when the class is dropped at the start. -/
theorem infix_dropWhile {m l : List α} (hm : ∀ a ∈ m.head?, p a = false) (h : m <:+: l) : m <:+: l.dropWhile p := by
  induction l with
  | nil => exact h
  | cons a l ih =>
    rw [List.dropWhile_cons]
    split
    · rename_i ha
      rw [List.infix_cons_iff] at h
      rcases h with ⟨t, ht⟩ | h
      · cases m with
        | nil => exact List.nil_infix
        | cons b m =>
          cases ht
          have hb := hm a (by simp)
          rw [ha] at hb
          cases hb
      · exact ih h
    · exact h

end Cut

/-- Where every item is replaced by at least one, nothing changes just when each is replaced by itself. -/
theorem flatMap_eq_self {α : Type} {f : α → List α} (hf : ∀ a, f a ≠ []) {l : List α} :
    l.flatMap f = l ↔ ∀ a ∈ l, f a = [a] := by
  have hlength (l : List α) : l.length ≤ (l.flatMap f).length := by
    induction l with
    | nil => exact Nat.le_refl 0
    | cons a l ih =>
      have ha := List.length_pos_iff.2 (hf a)
      rw [List.flatMap_cons, List.length_append, List.length_cons]
      omega
  induction l with
  | nil => exact ⟨fun _ _ ha => (List.not_mem_nil ha).elim, fun _ => rfl⟩
  | cons a l ih =>
    rw [List.forall_mem_cons, List.flatMap_cons]
    constructor
    · intro h
      obtain ⟨b, rest, hb⟩ := List.exists_cons_of_ne_nil (hf a)
      rw [hb, List.cons_append, List.cons.injEq] at h
      obtain ⟨rfl, hrest⟩ := h
      have hnil : rest = [] := by
        have hle := hlength l
        have heq := congrArg List.length hrest
        rw [List.length_append] at heq
        exact List.length_eq_zero_iff.1 (by omega)
      rw [hnil] at hb hrest
      exact ⟨hb, ih.1 hrest⟩
    · rintro ⟨ha, hl⟩
      rw [ha, ih.2 hl, List.singleton_append]

section Utf8

theorem charBytes_lt {c : Char} {b : Nat} (h : b ∈ charBytes c) : b < 0x100 := by
  have hvalid : c.toNat < 0xd800 ∨ 0xdfff < c.toNat ∧ c.toNat < 0x110000 := c.valid
  unfold charBytes at h
  extract_lets n at h
  repeat' split at h
  all_goals
    simp only [List.mem_cons, List.not_mem_nil, or_false] at h
    omega

theorem charBytes_ne_nil (c : Char) : charBytes c ≠ [] := by
  unfold charBytes
  extract_lets n
  repeat' split
  all_goals exact List.cons_ne_nil _ _

theorem follow_cons {low high b : Nat} (h : low ≤ b ∧ b ≤ high) (value count : Nat) (rest : List Nat) :
    follow low high value (count + 1) (b :: rest) =
      ((follow 0x80 0xbf (value * 0x40 + (b - 0x80)) count rest).1,
        (follow 0x80 0xbf (value * 0x40 + (b - 0x80)) count rest).2 + 1) := by
  rw [follow, if_pos h]

/-- Bytes that go on a sequence, six bits each. -/
theorem follow_tails {digits : List Nat} (h : ∀ d ∈ digits, d < 0x40) {low high : Nat}
    (hfirst : ∀ d ∈ digits.head?, low ≤ 0x80 + d ∧ 0x80 + d ≤ high) (value : Nat) (rest : List Nat) :
    follow low high value digits.length (digits.map (0x80 + ·) ++ rest) =
      (some (digits.foldl (fun v d => v * 0x40 + d) value), digits.length) := by
  induction digits generalizing low high value with
  | nil => rw [List.length_nil, follow, List.foldl_nil]
  | cons d digits ih =>
    have hrest := ih (fun e he => h e (List.mem_cons_of_mem _ he))
      (fun e he => ⟨Nat.le_add_right _ _, Nat.le_of_lt_succ
        (Nat.add_lt_add_left (h e (List.mem_cons_of_mem _ (List.mem_of_mem_head? he))) 0x80)⟩)
      (value * 0x40 + d)
    rw [List.map_cons, List.cons_append, List.length_cons, follow_cons (hfirst d rfl), Nat.add_sub_cancel_left, hrest,
      List.foldl_cons]

/-- A sequence whose first byte announces what follows is read as its character. -/
theorem charsFrom_lead {c : Char} {b : Nat} {l : Lead} (digits : List Nat) (hb : 0x80 ≤ b) (hl : lead? b = some l)
    (hcount : l.following = digits.length) (h : ∀ d ∈ digits, d < 0x40)
    (hfirst : ∀ d ∈ digits.head?, l.low ≤ 0x80 + d ∧ 0x80 + d ≤ l.high)
    (hvalue : digits.foldl (fun v d => v * 0x40 + d) l.bits = c.toNat) (rest : List Nat) :
    charsFrom 0 (b :: (digits.map (0x80 + ·) ++ rest)) = c :: charsFrom 0 rest := by
  have hskip (skipped : List Nat) : charsFrom skipped.length (skipped ++ rest) = charsFrom 0 rest := by
    induction skipped with
    | nil => rfl
    | cons d skipped ih => rw [List.length_cons, List.cons_append, charsFrom, ih]
  have hchar : firstChar b (digits.map (0x80 + ·) ++ rest) = (c, digits.length) := by
    rw [firstChar, if_neg (Nat.not_lt.2 hb), hl]
    dsimp only
    rw [hcount, follow_tails h hfirst, hvalue]
    dsimp only
    rw [Char.ofNat_toNat]
  have hrest := hskip (digits.map (0x80 + ·))
  rw [List.length_map] at hrest
  rw [charsFrom, hchar]
  exact congrArg (c :: ·) hrest

theorem lead?_two {n : Nat} (hl : 0x80 ≤ n) (hu : n < 0x800) :
    lead? (0xc0 + n / 0x40) = some { following := 1, bits := n / 0x40 } := by
  rw [lead?, if_pos (by omega), Nat.add_sub_cancel_left]

theorem lead?_three {n : Nat} (hl : 0x800 ≤ n) (hu : n < 0x10000) (hv : n < 0xd800 ∨ 0xdfff < n) :
    ∃ l, lead? (0xe0 + n / 0x1000) = some l ∧ l.following = 2 ∧ l.bits = n / 0x1000 ∧
      l.low ≤ 0x80 + n / 0x40 % 0x40 ∧ 0x80 + n / 0x40 % 0x40 ≤ l.high := by
  unfold lead?
  repeat' split
  all_goals first
    | omega
    | exact ⟨_, rfl, rfl, by dsimp only; omega, by dsimp only; omega, by dsimp only; omega⟩

theorem lead?_four {n : Nat} (hl : 0x10000 ≤ n) (hu : n < 0x110000) :
    ∃ l, lead? (0xf0 + n / 0x40000) = some l ∧ l.following = 3 ∧ l.bits = n / 0x40000 ∧
      l.low ≤ 0x80 + n / 0x1000 % 0x40 ∧ 0x80 + n / 0x1000 % 0x40 ≤ l.high := by
  unfold lead?
  repeat' split
  all_goals first
    | omega
    | exact ⟨_, rfl, rfl, by dsimp only; omega, by dsimp only; omega, by dsimp only; omega⟩

theorem charsFrom_charBytes (c : Char) (rest : List Nat) :
    charsFrom 0 (charBytes c ++ rest) = c :: charsFrom 0 rest := by
  have hvalid : c.toNat < 0xd800 ∨ 0xdfff < c.toNat ∧ c.toNat < 0x110000 := c.valid
  unfold charBytes
  extract_lets n
  split
  · rename_i hone
    rw [List.singleton_append, charsFrom, firstChar, if_pos hone, Char.ofNat_toNat]
  split
  · rename_i hone htwo
    refine charsFrom_lead [n % 0x40] (by omega) (lead?_two (by omega) htwo) rfl ?_ ?_ ?_ rest
    · simp; omega
    · simp; omega
    · simp; omega
  split
  · rename_i hone htwo hthree
    obtain ⟨l, hl, hcount, hbits, hlow, hhigh⟩ := lead?_three (n := n) (by omega) hthree (by omega)
    refine charsFrom_lead [n / 0x40 % 0x40, n % 0x40] (by omega) hl hcount ?_ ?_ ?_ rest
    · simp; omega
    · simp; omega
    · simp [hbits]; omega
  · rename_i hone htwo hthree
    obtain ⟨l, hl, hcount, hbits, hlow, hhigh⟩ := lead?_four (n := n) (by omega) (by omega)
    refine charsFrom_lead [n / 0x1000 % 0x40, n / 0x40 % 0x40, n % 0x40] (by omega) hl hcount ?_ ?_ ?_ rest
    · simp; omega
    · simp; omega
    · simp [hbits]; omega

theorem ofBytes_flatMap (cs : List Char) : ofBytes (cs.flatMap charBytes) = cs := by
  rw [ofBytes]
  induction cs with
  | nil => rfl
  | cons c cs ih => rw [List.flatMap_cons, charsFrom_charBytes, ih]

end Utf8

theorem hexValue?_upperHexDigit (n : Nat) : hexValue? (upperHexDigit n) = some (n % 16) := by
  have small : ∀ m < 16, hexValue? (((Nat.toDigits 16 m).getLastD '0').toUpper) = some m := by decide
  exact small (n % 16) (Nat.mod_lt n (by decide))

theorem ne_percent_of_isUnreserved {c : Char} (h : isUnreserved c) : c ≠ '%' := by
  rintro rfl
  revert h
  decide

theorem percentBytes_of_ne {c : Char} (h : c ≠ '%') (rest : List Char) :
    percentBytes 0 (c :: rest) = c.toNat :: percentBytes 0 rest := by
  rw [percentBytes]
  intro a b cs hc
  exact absurd hc h

theorem percentBytes_percentByte {b : Nat} (h : b < 0x100) (rest : List Char) :
    percentBytes 0 (percentByte b ++ rest) = b :: percentBytes 0 rest := by
  change percentBytes 0 ('%' :: upperHexDigit (b / 16) :: upperHexDigit b :: rest) = _
  rw [percentBytes, hexValue?_upperHexDigit, hexValue?_upperHexDigit]
  dsimp only
  rw [percentBytes, percentBytes]
  have hb : b / 16 % 16 * 16 + b % 16 = b := by omega
  rw [hb]

theorem percentBytes_flatMap_percentByte {bs : List Nat} (h : ∀ b ∈ bs, b < 0x100) (rest : List Char) :
    percentBytes 0 (bs.flatMap percentByte ++ rest) = bs ++ percentBytes 0 rest := by
  induction bs with
  | nil => rfl
  | cons b bs ih =>
    rw [List.flatMap_cons, List.append_assoc, percentBytes_percentByte (h b List.mem_cons_self),
      ih fun d hd => h d (List.mem_cons_of_mem _ hd), List.cons_append]

theorem isAscii_of_isUnreserved {c : Char} (h : isUnreserved c) : isAscii c := by
  rw [isUnreserved, Bool.or_eq_true] at h
  obtain h | h := h
  · have hrange := isAlphanum_range h
    rw [isAscii, decide_eq_true_eq]
    omega
  · have small : ∀ d ∈ ['-', '_', '.', '~', '!', '*', '\x27', '(', ')'], isAscii d :=
      forall_mem_of_all (by decide)
    exact small c (List.contains_iff_mem.1 h)

theorem percentBytes_percentChar (c : Char) (rest : List Char) :
    percentBytes 0 (percentChar c ++ rest) = charBytes c ++ percentBytes 0 rest := by
  rw [percentChar]
  split
  · rename_i hu
    have hc : c.toNat < 0x80 := by simpa [isAscii] using isAscii_of_isUnreserved hu
    rw [charBytes, if_pos hc]
    exact percentBytes_of_ne (ne_percent_of_isUnreserved hu) rest
  · exact percentBytes_flatMap_percentByte (fun b hb => charBytes_lt hb) rest

theorem percentBytes_flatMap (cs : List Char) :
    percentBytes 0 (cs.flatMap percentChar) = cs.flatMap charBytes := by
  induction cs with
  | nil => rfl
  | cons c rest ih => rw [List.flatMap_cons, percentBytes_percentChar, List.flatMap_cons, ih]

theorem decodeRuns_ascii {cs : List Char} (h : ∀ c ∈ cs, isAscii c) (run : List Char) :
    decodeRuns run cs = ofBytes (percentBytes 0 (run.reverse ++ cs)) := by
  induction cs generalizing run with
  | nil => rw [decodeRuns, List.append_nil]
  | cons c rest ih =>
    rw [decodeRuns, if_pos (h c List.mem_cons_self), ih (fun d hd => h d (List.mem_cons_of_mem _ hd)),
      List.reverse_cons, List.append_assoc]
    rfl

/-- The characters of a text after encoding. -/
def isPercentSafe (c : Char) : Bool := isUnreserved c || c == '%'

theorem isUnreserved_upperHexDigit (n : Nat) : isUnreserved (upperHexDigit n) := by
  have small : ∀ m < 16, isUnreserved ((Nat.toDigits 16 m).getLastD '0').toUpper := by decide
  exact small (n % 16) (Nat.mod_lt n (by decide))

theorem isPercentSafe_of_mem_percentEncode {c : Char} {s : String} (h : c ∈ (percentEncode s).toList) :
    isPercentSafe c := by
  rw [percentEncode, String.toList_ofList] at h
  obtain ⟨d, -, hc⟩ := List.mem_flatMap.1 h
  rw [percentChar] at hc
  split at hc
  · rename_i hu
    rw [List.mem_singleton.1 hc, isPercentSafe, hu, Bool.true_or]
  · obtain ⟨b, -, hb⟩ := List.mem_flatMap.1 hc
    have hexSafe (n : Nat) : isPercentSafe (upperHexDigit n) := by
      rw [isPercentSafe, isUnreserved_upperHexDigit, Bool.true_or]
    simp only [percentByte, List.mem_cons, List.not_mem_nil, or_false] at hb
    obtain rfl | rfl | rfl := hb
    · rfl
    · exact hexSafe _
    · exact hexSafe _

theorem isAscii_of_isPercentSafe {c : Char} (h : isPercentSafe c) : isAscii c := by
  rw [isPercentSafe, Bool.or_eq_true] at h
  obtain h | h := h
  · exact isAscii_of_isUnreserved h
  · rw [eq_of_beq h]
    rfl

theorem isBlank_of_isPercentSafe {c : Char} (h : isPercentSafe c) : isBlank c = false := by
  have small : ∀ n < 128, isPercentSafe (Char.ofNat n) = true → isBlank (Char.ofNat n) = false := by decide
  have hc : c.toNat < 128 := by simpa [isAscii] using isAscii_of_isPercentSafe h
  have hblank := small c.toNat hc
  rw [Char.ofNat_toNat] at hblank
  exact hblank h

theorem percentDecode_percentEncode (s : String) : percentDecode (percentEncode s) = s := by
  have hsafe : ∀ c ∈ (percentEncode s).toList, isAscii c := fun c hc =>
    isAscii_of_isPercentSafe (isPercentSafe_of_mem_percentEncode hc)
  rw [percentDecode, decodeRuns_ascii hsafe, percentEncode, String.toList_ofList, List.reverse_nil,
    List.nil_append, percentBytes_flatMap, ofBytes_flatMap, String.ofList_toList]

/-- A text that encoding leaves alone. -/
def IsUnreserved (s : String) : Prop := ∀ c ∈ s.toList, isUnreserved c = true

instance (s : String) : Decidable (IsUnreserved s) := List.decidableBAll _ s.toList

theorem percentChar_eq_singleton {c : Char} : percentChar c = [c] ↔ isUnreserved c = true := by
  rw [percentChar]
  split
  · rename_i hu
    exact iff_of_true rfl hu
  · rename_i hu
    refine iff_of_false (fun h => ?_) hu
    -- A byte takes three characters.
    have hlength := congrArg List.length h
    obtain ⟨b, bs, hb⟩ := List.exists_cons_of_ne_nil (charBytes_ne_nil c)
    rw [hb, List.flatMap_cons, List.length_append, List.length_singleton] at hlength
    have hbyte : (percentByte b).length = 3 := rfl
    omega

theorem percentEncode_eq_self {s : String} : percentEncode s = s ↔ IsUnreserved s := by
  have hne (c : Char) : percentChar c ≠ [] := by
    rw [percentChar]
    split
    · exact List.cons_ne_nil _ _
    · obtain ⟨b, bs, hb⟩ := List.exists_cons_of_ne_nil (charBytes_ne_nil c)
      rw [hb, List.flatMap_cons, percentByte]
      exact List.cons_ne_nil _ _
  rw [percentEncode, ← String.toList_inj, String.toList_ofList, flatMap_eq_self hne, IsUnreserved]
  exact forall₂_congr fun c _ => percentChar_eq_singleton

end ConsentBanner.Text
