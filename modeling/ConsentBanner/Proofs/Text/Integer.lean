import ConsentBanner.Proofs.Text
import ConsentBanner.Text.Integer

/-!
Integers come back from their decimal form, which no integer that is read has too long. One or two characters are an
integer in base sixteen if they are a digit or two, or a digit beside a sign or white space.
-/

namespace ConsentBanner.Text

theorem dropTrailing_eq_self {p : Char → Bool} {cs : List Char} (h : ∀ c ∈ cs, p c = false) :
    dropTrailing p cs = cs := by
  have hkeep : cs.reverse.dropWhile p = cs.reverse := by
    cases hr : cs.reverse with
    | nil => rfl
    | cons c rest =>
      have hc : c ∈ cs := List.mem_reverse.1 (hr ▸ List.mem_cons_self)
      rw [List.dropWhile_cons, if_neg (by simp [h c hc])]
  rw [dropTrailing, hkeep, List.reverse_reverse]

theorem trimPadding_eq_self {cs : List Char} (h : ∀ c ∈ cs, isPadding c = false) : trimPadding cs = cs := by
  have hkeep : cs.dropWhile isPadding = cs := by
    cases cs with
    | nil => rfl
    | cons c rest => rw [List.dropWhile_cons, if_neg (by simp [h c List.mem_cons_self])]
  rw [trimPadding, hkeep, dropTrailing_eq_self h]

theorem exists_digitChar_of_isDigit {c : Char} (h : c.isDigit) : ∃ d < 10, c = Nat.digitChar d := by
  have small : ∀ d < 10, Nat.digitChar d = Char.ofNat (48 + d) := by decide
  simp only [Char.isDigit, Bool.and_eq_true, decide_eq_true_eq, ge_iff_le, UInt32.le_iff_toNat_le] at h
  have hle : 48 ≤ c.toNat ∧ c.toNat ≤ 57 := h
  refine ⟨c.toNat - 48, by omega, ?_⟩
  rw [small _ (by omega), Nat.add_sub_cancel' hle.1, Char.ofNat_toNat]

theorem digitValueIn?_digitChar {d : Nat} (h : d < 10) : digitValueIn? 10 (Nat.digitChar d) = some d := by
  have small : ∀ d < 10, digitValueIn? 10 (Nat.digitChar d) = some d := by decide
  exact small d h

theorem isPadding_of_isDigit {c : Char} (h : c.isDigit) : isPadding c = false := by
  have small : ∀ d < 10, isPadding (Nat.digitChar d) = false := by decide
  obtain ⟨d, hd, rfl⟩ := exists_digitChar_of_isDigit h
  exact small d hd

theorem ne_of_isDigit {c d : Char} (h : c.isDigit) (hd : d.isDigit = false) : c ≠ d := by
  rintro rfl
  rw [h] at hd
  cases hd

theorem digitsValue?_digits {cs : List Char} (h : ∀ c ∈ cs, c.isDigit) (acc : Nat) :
    digitsValue? 10 acc cs = some (Nat.ofDigitChars 10 cs acc) := by
  induction cs generalizing acc with
  | nil => rw [digitsValue?, Nat.ofDigitChars_nil]
  | cons c rest ih =>
    have hc := h c List.mem_cons_self
    have hne := ne_of_isDigit hc (rfl : '_'.isDigit = false)
    obtain ⟨d, hd, rfl⟩ := exists_digitChar_of_isDigit hc
    rw [digitsValue?, digitValueIn?_digitChar hd]
    · dsimp only
      rw [ih (fun c hc => h c (List.mem_cons_of_mem _ hc)), Nat.ofDigitChars_cons_digitChar_of_lt_ten hd,
        Nat.mul_comm]
    · exact fun hc => absurd hc hne
    · exact fun _ _ hc => absurd hc hne

theorem numeralValue?_toDigits (n : Nat) : numeralValue? 10 (Nat.toDigits 10 n) = some n := by
  have hdigits : ∀ c ∈ Nat.toDigits 10 n, c.isDigit := fun c hc =>
    Nat.isDigit_of_mem_toDigits (by decide) (by decide) hc
  have hvalue : Nat.ofDigitChars 10 (Nat.toDigits 10 n) 0 = n := Nat.ofDigitChars_ten_toDigits
  cases hcs : Nat.toDigits 10 n with
  | nil => exact absurd hcs Nat.toDigits_ne_nil
  | cons c rest =>
    rw [hcs] at hdigits hvalue
    obtain ⟨d, hd, rfl⟩ := exists_digitChar_of_isDigit (hdigits c List.mem_cons_self)
    rw [Nat.ofDigitChars_cons_digitChar_of_lt_ten hd, Nat.mul_zero, Nat.zero_add] at hvalue
    rw [numeralValue?, digitValueIn?_digitChar hd, Option.bind_some,
      digitsValue?_digits fun c hc => hdigits c (List.mem_cons_of_mem _ hc), hvalue]

theorem dropMark_ten (cs : List Char) : dropMark 10 cs = cs := by
  unfold dropMark
  split
  · rfl
  · rfl

theorem magnitude?_toDigits {n : Nat} (h : (Nat.toDigits 10 n).length ≤ maxDigits) :
    magnitude? 10 (Nat.toDigits 10 n) = some n := by
  have hcount : (Nat.toDigits 10 n).countP (· != '_') ≤ (Nat.toDigits 10 n).length := List.countP_le_length
  rw [magnitude?, dropMark_ten, numeralValue?_toDigits, if_neg]
  rw [Bool.and_eq_true, decide_eq_true_eq, decide_eq_true_eq]
  omega

theorem toList_toString (id : Int) :
    (toString id).toList = if 0 ≤ id then Nat.toDigits 10 id.natAbs else '-' :: Nat.toDigits 10 id.natAbs := by
  rw [Int.toString_eq_repr, Int.repr_eq_if]
  split
  · have habs : id.toNat = id.natAbs := by omega
    rw [Nat.toList_repr, habs]
  · have habs : (-id).toNat = id.natAbs := by omega
    rw [String.toList_append, Nat.toList_repr, habs]
    rfl

/-- Different integers have different decimal forms. -/
theorem toString_injective : Function.Injective (toString : Int → String) := by
  intro m n h
  have hlist := congrArg String.toList h
  rw [toList_toString, toList_toString] at hlist
  have digits {a b : Nat} (hab : Nat.toDigits 10 a = Nat.toDigits 10 b) : a = b := by
    rw [← Nat.ofDigitChars_ten_toDigits (n := a), hab, Nat.ofDigitChars_ten_toDigits]
  have unsigned {a b : Nat} : Nat.toDigits 10 a ≠ '-' :: Nat.toDigits 10 b := by
    intro hab
    have hminus : '-'.isDigit :=
      Nat.isDigit_of_mem_toDigits (by decide) (by decide) (hab ▸ List.mem_cons_self : '-' ∈ Nat.toDigits 10 a)
    cases hminus
  split at hlist
  · split at hlist
    · have habs := digits hlist
      omega
    · exact absurd hlist unsigned
  · split at hlist
    · exact absurd hlist.symm unsigned
    · have habs := digits (List.cons.inj hlist).2
      omega

/-- An integer that is not too long comes back from its decimal form. -/
theorem integer?_toString {id : Int} (h : (Nat.toDigits 10 id.natAbs).length ≤ maxDigits) :
    integer? (toString id) = some id := by
  have hdigits : ∀ c ∈ Nat.toDigits 10 id.natAbs, c.isDigit := fun c hc =>
    Nat.isDigit_of_mem_toDigits (by decide) (by decide) hc
  have hmagnitude := magnitude?_toDigits h
  rw [integer?, toList_toString]
  split
  · rename_i hpos
    have hid : (id.natAbs : Int) = id := by omega
    rw [integerIn?, trimPadding_eq_self fun c hc => isPadding_of_isDigit (hdigits c hc)]
    split
    · rename_i hcs
      have hminus := hdigits '-' (hcs ▸ List.mem_cons_self)
      cases hminus
    · rename_i hcs
      have hplus := hdigits '+' (hcs ▸ List.mem_cons_self)
      cases hplus
    · rw [hmagnitude]
      exact congrArg some hid
  · rename_i hneg
    have hid : -(id.natAbs : Int) = id := by omega
    have htrim : trimPadding ('-' :: Nat.toDigits 10 id.natAbs) = '-' :: Nat.toDigits 10 id.natAbs := by
      apply trimPadding_eq_self
      intro c hc
      obtain rfl | hc := List.mem_cons.1 hc
      · rfl
      · exact isPadding_of_isDigit (hdigits c hc)
    rw [integerIn?, htrim]
    change Option.map (fun n : Int => -n) (magnitude? 10 (Nat.toDigits 10 id.natAbs) >>= fun n => some (n : Int)) = _
    rw [hmagnitude]
    exact congrArg some hid

theorem lt_of_digitValueIn? {base d : Nat} {c : Char} (h : digitValueIn? base c = some d) : d < base := by
  unfold digitValueIn? at h
  split at h
  · split at h
    · cases h
      assumption
    · cases h
  · split at h
    · split at h
      · cases h
        assumption
      · cases h
    · cases h

theorem ne_mark_of_digitValueIn? {base d : Nat} {c : Char} (h : digitValueIn? base c = some d) : c ≠ '_' := by
  rintro rfl
  have hdecimal : digitValue? '_' = none := by decide
  have hhex : hexValue? '_' = none := by decide
  rw [digitValueIn?, hdecimal, hhex] at h
  cases h

/-- Every digit counts once. -/
theorem digitsValue?_lt {acc k n : Nat} {cs : List Char} (h : digitsValue? 10 acc cs = some n)
    (hacc : acc < Nat.pow 10 k) : n < Nat.pow 10 (k + cs.countP (· != '_')) := by
  have next {acc k d : Nat} (hacc : acc < Nat.pow 10 k) (hd : d < 10) : acc * 10 + d < Nat.pow 10 (k + 1) := by
    have hpow : Nat.pow 10 (k + 1) = Nat.pow 10 k * 10 := rfl
    omega
  have counted {c : Char} {rest : List Char} (hc : c ≠ '_') :
      (c :: rest).countP (· != '_') = rest.countP (· != '_') + 1 := List.countP_cons_of_pos (by simpa using hc)
  fun_induction digitsValue? 10 acc cs generalizing k with
  | case1 acc =>
    cases h
    exact hacc
  | case2 acc => cases h
  | case3 acc c rest d hd ih =>
    have hlt := ih h (next hacc (lt_of_digitValueIn? hd))
    rw [List.countP_cons_of_neg (by decide), counted (ne_mark_of_digitValueIn? hd)]
    rwa [Nat.add_right_comm, Nat.add_assoc] at hlt
  | case4 acc c rest hd => cases h
  | case5 acc c rest _ _ d hd ih =>
    have hlt := ih h (next hacc (lt_of_digitValueIn? hd))
    rw [counted (ne_mark_of_digitValueIn? hd)]
    rwa [Nat.add_right_comm, Nat.add_assoc] at hlt
  | case6 => cases h

theorem numeralValue?_lt {n : Nat} {cs : List Char} (h : numeralValue? 10 cs = some n) :
    n < Nat.pow 10 (cs.countP (· != '_')) := by
  cases cs with
  | nil => cases h
  | cons c rest =>
    obtain ⟨d, hd, h⟩ := Option.bind_eq_some_iff.1 h
    have hlt := digitsValue?_lt (k := 1) h (lt_of_digitValueIn? hd)
    rw [List.countP_cons_of_pos (by simpa using ne_mark_of_digitValueIn? hd)]
    rwa [Nat.add_comm] at hlt

theorem magnitude?_short {n : Nat} {cs : List Char} (h : magnitude? 10 cs = some n) :
    (Nat.toDigits 10 n).length ≤ maxDigits := by
  rw [magnitude?, dropMark_ten] at h
  split at h
  · cases h
  · rename_i hcount
    rw [Bool.and_eq_true, decide_eq_true_eq, decide_eq_true_eq] at hcount
    have hlt := numeralValue?_lt h
    have hmarks : cs.countP (· != '_') ≤ maxDigits := by omega
    have hle := Nat.pow_le_pow_right (by decide : 0 < 10) hmarks
    rw [Nat.length_toDigits_le_iff (by decide) (by decide)]
    exact Nat.lt_of_lt_of_le hlt hle

/-- An integer that was read is not too long. -/
theorem integer?_short {s : String} {id : Int} (h : integer? s = some id) :
    (Nat.toDigits 10 id.natAbs).length ≤ maxDigits := by
  have short {cs : List Char} {i : Int} (h : (magnitude? 10 cs >>= fun n => pure (n : Int)) = some i) :
      (Nat.toDigits 10 i.natAbs).length ≤ maxDigits := by
    obtain ⟨n, hn, hi⟩ := Option.bind_eq_some_iff.1 h
    cases hi
    exact magnitude?_short hn
  rw [integer?, integerIn?] at h
  split at h
  · obtain ⟨i, hi, rfl⟩ := Option.map_eq_some_iff.1 h
    rw [Int.natAbs_neg]
    exact short hi
  · obtain ⟨i, hi, rfl⟩ := Option.map_eq_some_iff.1 h
    exact short hi
  · obtain ⟨i, hi, rfl⟩ := Option.map_eq_some_iff.1 h
    exact short hi

/-- A hexadecimal digit is an ASCII digit or one of six letters. -/
theorem hexValue?_range {c : Char} {d : Nat} (h : hexValue? c = some d) : c.toNat < 128 := by
  unfold hexValue? at h
  split at h
  · rename_i hc
    have hle : c.toNat ≤ '9'.toNat := hc.2
    exact Nat.lt_of_le_of_lt hle (by decide)
  · split at h
    · rename_i hc
      have hle : c.toNat ≤ 'f'.toNat := hc.2
      exact Nat.lt_of_le_of_lt hle (by decide)
    · split at h
      · rename_i hc
        have hle : c.toNat ≤ 'F'.toNat := hc.2
        exact Nat.lt_of_le_of_lt hle (by decide)
      · cases h

theorem hexDigits_small : ∀ n < 128, ∀ d, hexValue? (Char.ofNat n) = some d →
    digitValueIn? 16 (Char.ofNat n) = some d ∧ isPadding (Char.ofNat n) = false := by
  decide +kernel

theorem digitValueIn?_of_hexValue? {c : Char} {d : Nat} (h : hexValue? c = some d) : digitValueIn? 16 c = some d := by
  have hlt := hexValue?_range h
  rw [← Char.ofNat_toNat c] at h ⊢
  exact (hexDigits_small c.toNat hlt d h).1

/-- White space is no digit. -/
theorem digitValueIn?_of_isPadding {c : Char} (h : isPadding c = true) : digitValueIn? 16 c = none := by
  cases hd : digitValue? c with
  | some d =>
    have hblank := isBlank_of_isDecimalDigit (Option.isSome_iff_exists.2 ⟨d, hd⟩)
    rw [isPadding, hblank] at h
    cases h
  | none =>
    rw [digitValueIn?, hd]
    dsimp only
    cases hx : hexValue? c with
    | none => rfl
    | some d =>
      have hlt := hexValue?_range hx
      rw [← Char.ofNat_toNat c] at h hx
      rw [(hexDigits_small c.toNat hlt d hx).2] at h
      cases h

theorem magnitude?_sixteen (cs : List Char) : magnitude? 16 cs = numeralValue? 16 (dropMark 16 cs) := by
  simp [magnitude?]

theorem magnitude?_singleton (c : Char) : magnitude? 16 [c] = digitValueIn? 16 c := by
  have hkept : dropMark 16 [c] = [c] := by
    unfold dropMark
    split
    · rename_i heq
      cases heq
    · rfl
  rw [magnitude?_sixteen, hkept, numeralValue?]
  cases digitValueIn? 16 c with
  | none => rfl
  | some d => rfl

theorem digitsValue?_singleton (acc : Nat) (c : Char) :
    digitsValue? 16 acc [c] = (digitValueIn? 16 c).map (acc * 16 + ·) := by
  unfold digitsValue?
  split
  · rename_i heq
    cases heq
  · rename_i heq
    cases heq
    rfl
  · rename_i heq
    cases heq
  · rename_i heq
    cases heq
    cases digitValueIn? 16 c with
    | none => rfl
    | some d => rfl

/-- Two characters are too few for a mark of the base with digits after it. -/
theorem magnitude?_pair (a b : Char) :
    magnitude? 16 [a, b] = (digitValueIn? 16 a).bind fun x => (digitValueIn? 16 b).map (x * 16 + ·) := by
  have hvalue : numeralValue? 16 [a, b] = (digitValueIn? 16 a).bind fun x => (digitValueIn? 16 b).map (x * 16 + ·) := by
    rw [numeralValue?]
    simp only [digitsValue?_singleton]
  rw [magnitude?_sixteen]
  unfold dropMark
  split
  · rename_i letter rest heq
    cases heq
    split
    · rename_i hmark
      have hletter : b = 'x' ∨ b = 'X' := by simpa [baseLetters] using hmark
      obtain rfl | rfl := hletter
      · rfl
      · rfl
    · exact hvalue
  · exact hvalue

/-- White space around one of two characters leaves the other one. -/
theorem trimPadding_pair (a b : Char) : trimPadding [a, b] =
    if isPadding a then if isPadding b then [] else [b] else if isPadding b then [a] else [a, b] := by
  rw [trimPadding, List.dropWhile_cons]
  cases ha : isPadding a with
  | true =>
    rw [if_pos rfl, if_pos rfl, List.dropWhile_cons, List.dropWhile_nil]
    cases hb : isPadding b with
    | true => rfl
    | false => simp [dropTrailing, hb]
  | false =>
    rw [if_neg Bool.false_ne_true, if_neg Bool.false_ne_true]
    cases hb : isPadding b with
    | true => simp [dropTrailing, ha, hb]
    | false => simp [dropTrailing, hb]

theorem integerIn?_of_digit {cs rest : List Char} {c : Char} {d m : Nat} (htrim : trimPadding cs = c :: rest)
    (hc : digitValueIn? 16 c = some d) (hm : magnitude? 16 (c :: rest) = some m) : integerIn? 16 cs = some m := by
  rw [integerIn?, htrim]
  split
  · rename_i heq
    cases heq
    cases hc
  · rename_i heq
    cases heq
    cases hc
  · rw [hm]
    rfl

/-- An integer has a magnitude and at most one sign. -/
theorem integerIn?_eq_some {cs : List Char} {n : Int} (h : integerIn? 16 cs = some n) :
    (∃ digits m, trimPadding cs = '-' :: digits ∧ magnitude? 16 digits = some m ∧ n = -m) ∨
      (∃ digits m, trimPadding cs = '+' :: digits ∧ magnitude? 16 digits = some m ∧ n = m) ∨
      ∃ m : Nat, magnitude? 16 (trimPadding cs) = some m ∧ n = m := by
  have value {digits : List Char} {i : Int} (h : (magnitude? 16 digits >>= fun m => pure (m : Int)) = some i) :
      ∃ m : Nat, magnitude? 16 digits = some m ∧ i = m := by
    obtain ⟨m, hm, hi⟩ := Option.bind_eq_some_iff.1 h
    cases hi
    exact ⟨m, hm, rfl⟩
  rw [integerIn?] at h
  split at h
  · rename_i digits htrim
    obtain ⟨i, hi, rfl⟩ := Option.map_eq_some_iff.1 h
    obtain ⟨m, hm, rfl⟩ := value hi
    exact .inl ⟨digits, m, htrim, hm, rfl⟩
  · rename_i digits htrim
    obtain ⟨i, hi, rfl⟩ := Option.map_eq_some_iff.1 h
    obtain ⟨m, hm, rfl⟩ := value hi
    exact .inr (.inl ⟨digits, m, htrim, hm, rfl⟩)
  · obtain ⟨i, hi, rfl⟩ := Option.map_eq_some_iff.1 h
    obtain ⟨m, hm, rfl⟩ := value hi
    exact .inr (.inr ⟨m, hm, rfl⟩)

/-- One character between white space is an integer if it is a digit. -/
theorem integerIn?_of_trim_single {cs : List Char} {c : Char} {n : Int} (htrim : trimPadding cs = [c]) :
    integerIn? 16 cs = some n ↔ ∃ d : Nat, digitValueIn? 16 c = some d ∧ n = d := by
  constructor
  · intro h
    -- After a sign there would be no digits.
    obtain ⟨digits, m, heq, hm, -⟩ | ⟨digits, m, heq, hm, -⟩ | ⟨m, hm, rfl⟩ := integerIn?_eq_some h
    · cases htrim.symm.trans heq
      cases hm
    · cases htrim.symm.trans heq
      cases hm
    · rw [htrim, magnitude?_singleton] at hm
      exact ⟨m, hm, rfl⟩
  · rintro ⟨d, hd, rfl⟩
    apply integerIn?_of_digit htrim hd
    rw [magnitude?_singleton, hd]

end ConsentBanner.Text
