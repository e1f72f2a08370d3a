import ConsentBanner.Json.Reader
import ConsentBanner.Json.Writer
import ConsentBanner.Proofs.Number.Decimal
import ConsentBanner.Proofs.Text.Integer

/-!
The characters of written numbers. Inside documents numbers are read as they were written, integers as integers and all
others as the same binary number.
-/

namespace ConsentBanner.Json

/-- Digits, signs, points and exponent marks, and the letters of the names that some numbers have. -/
def isNumeral (c : Char) : Bool :=
  c.isDigit || ['-', '+', '.', 'e', 'N', 'a', 'I', 'n', 'f', 'i', 't', 'y'].contains c

theorem forall_isNumeral {p : Char → Prop} (hdigit : ∀ d < 10, p (Nat.digitChar d))
    (hmark : ∀ c ∈ ['-', '+', '.', 'e', 'N', 'a', 'I', 'n', 'f', 'i', 't', 'y'], p c) {c : Char} (h : isNumeral c) :
    p c := by
  rw [isNumeral, Bool.or_eq_true, List.contains_iff_mem] at h
  obtain h | h := h
  · obtain ⟨d, hd, rfl⟩ := Text.exists_digitChar_of_isDigit h
    exact hdigit d hd
  · exact hmark c h

theorem isNumeral_of_isDigit {c : Char} (h : c.isDigit) : isNumeral c := by
  rw [isNumeral, h, Bool.true_or]

theorem isNumeral_of_mem_toDigits {n : Nat} {c : Char} (h : c ∈ Nat.toDigits 10 n) : isNumeral c :=
  isNumeral_of_isDigit (Nat.isDigit_of_mem_toDigits (by decide) (by decide) h)

theorem isNumeral_of_mem_int {n : Int} {c : Char} (h : c ∈ (toString n).toList) : isNumeral c := by
  rw [Text.toList_toString] at h
  split at h
  · exact isNumeral_of_mem_toDigits h
  · obtain rfl | h := List.mem_cons.1 h
    · decide
    · exact isNumeral_of_mem_toDigits h

theorem isNumeral_of_mem_digitText {d : Decimal} {c : Char} (h : c ∈ d.digitText) : isNumeral c := by
  rw [Decimal.digitText] at h
  split at h
  · rw [List.mem_singleton.1 h]
    decide
  · rw [List.mem_reverse] at h
    exact isNumeral_of_mem_toDigits (List.mem_reverse.1 ((List.dropWhile_sublist _).mem h))

theorem isNumeral_of_mem_positional {d : Decimal} {c : Char} (h : c ∈ d.positional) : isNumeral c := by
  have hdigits {c : Char} (h : c ∈ d.digitText) : isNumeral c := isNumeral_of_mem_digitText h
  have hzeros {n : Nat} (h : c ∈ List.replicate n '0') : isNumeral c := by
    rw [List.eq_of_mem_replicate h]
    decide
  rw [Decimal.positional] at h
  split at h
  · rw [List.mem_cons, List.mem_cons, List.mem_append] at h
    obtain rfl | rfl | h | h := h
    · decide
    · decide
    · exact hzeros h
    · exact hdigits h
  · dsimp only at h
    split at h
    · rw [List.mem_append, List.mem_append, List.mem_cons, List.mem_singleton] at h
      obtain (h | h) | rfl | rfl := h
      · exact hdigits h
      · exact hzeros h
      · decide
      · decide
    · rw [List.mem_append, List.mem_cons] at h
      obtain h | rfl | h := h
      · exact hdigits (List.mem_of_mem_take h)
      · decide
      · exact hdigits (List.mem_of_mem_drop h)

theorem isNumeral_of_mem_scientific {d : Decimal} {c : Char} (h : c ∈ d.scientific) : isNumeral c := by
  have hdigits {c : Char} (h : c ∈ d.digitText) : isNumeral c := isNumeral_of_mem_digitText h
  rw [Decimal.scientific, List.mem_append, List.mem_cons, List.mem_cons] at h
  obtain h | rfl | rfl | h := h
  · split at h
    · rename_i hd
      exact hdigits (hd ▸ h)
    · rename_i hd
      rw [List.mem_cons, List.mem_cons] at h
      obtain rfl | rfl | h := h
      · exact hdigits (hd ▸ List.mem_cons_self)
      · decide
      · exact hdigits (hd ▸ List.mem_cons_of_mem _ h)
    · cases h
  · decide
  · split
    · decide
    · decide
  · split at h
    · obtain rfl | h := List.mem_cons.1 h
      · decide
      · exact isNumeral_of_mem_toDigits h
    · exact isNumeral_of_mem_toDigits h

theorem isNumeral_of_mem_double {x : Double} {c : Char} (h : c ∈ writeDouble x) : isNumeral c := by
  have named {name : List Char} (hn : name.all isNumeral = true) (h : c ∈ name) : isNumeral c := List.all_eq_true.1 hn c h
  cases x with
  | nan => exact named (by decide) h
  | infinite negative =>
    cases negative with
    | true => exact named (by decide : "-Infinity".toList.all isNumeral = true) h
    | false => exact named (by decide : "Infinity".toList.all isNumeral = true) h
  | finite negative m q =>
    rw [writeDouble, Double.textList, List.mem_append] at h
    obtain h | h := h
    · split at h
      · exact named (by decide) h
      · cases h
    · split at h
      · exact named (by decide) h
      · rw [Decimal.text] at h
        split at h
        · exact isNumeral_of_mem_positional h
        · exact isNumeral_of_mem_scientific h

/-- What follows a number without going on with it. -/
def Ends (rest : List Char) : Prop :=
  ∀ c ∈ rest.head?, c.isDigit = false ∧ c ≠ '.' ∧ c ≠ 'e' ∧ c ≠ 'E'

/-- Digits before a point: zero, or digits that do not begin with it. -/
structure IsWhole (ds : List Char) : Prop where
  ne : ds ≠ []
  digits : ∀ c ∈ ds, c.isDigit
  zero : ds.head? = some '0' → ds = ['0']

def sign (negative : Bool) : List Char := if negative then ['-'] else []

variable {limit : Option Nat} {negative : Bool} {whole fraction tail rest : List Char}

/-- The sign of a number and the text after it. -/
def splitSign : List Char → Bool × List Char
  | '-' :: rest => (true, rest)
  | rest => (false, rest)

/-- The digits before the point: a zero stands alone. -/
def wholeDigits (digits : List Char) : List Char :=
  match digits with
  | '0' :: _ => ['0']
  | _ => digits.takeWhile Char.isDigit

/-- A number from its digits before the point on. -/
def readTail (limit : Option Nat) (negative : Bool) (whole tail : List Char) : Except ReadError (Json × List Char) :=
  let (fraction, rest) := readFraction tail
  match readExponent rest with
  | some (e, rest) =>
    .ok (.float (.ofDecimal negative (Text.plainValue (whole ++ fraction)) (e - fraction.length)), rest)
  | none =>
    if !fraction.isEmpty then
      .ok (.float (.ofDecimal negative (Text.plainValue (whole ++ fraction)) (-fraction.length)), rest)
    else if limit.any (· < whole.length) then .error .tooManyDigits
    else .ok (.int (if negative then -(Text.plainValue whole : Int) else Text.plainValue whole), tail)

theorem readNumber_eq (limit : Option Nat) (cs : List Char) :
    readNumber limit cs =
      if (wholeDigits (splitSign cs).2).isEmpty then failAt cs
      else readTail limit (splitSign cs).1 (wholeDigits (splitSign cs).2)
        ((splitSign cs).2.drop (wholeDigits (splitSign cs).2).length) := rfl

theorem splitSign_append {c : Char} (hc : c.isDigit) (cs : List Char) :
    splitSign (sign negative ++ c :: cs) = (negative, c :: cs) := by
  cases negative with
  | true => rfl
  | false =>
    change splitSign (c :: cs) = _
    unfold splitSign
    split
    · rename_i heq
      exact absurd (List.cons.inj heq).1 (Text.ne_of_isDigit hc rfl)
    · rfl

theorem wholeDigits_append (hw : IsWhole whole) (ht : ∀ c ∈ tail.head?, c.isDigit = false) :
    wholeDigits (whole ++ tail) = whole := by
  unfold wholeDigits
  split
  · rename_i heq
    obtain ⟨c, ds, rfl⟩ := List.exists_cons_of_ne_nil hw.ne
    rw [hw.zero (congrArg some (List.cons.inj heq).1)]
  · exact Text.takeWhile_append_of_end hw.digits ht

theorem readNumber_whole (hw : IsWhole whole) (ht : ∀ c ∈ tail.head?, c.isDigit = false) :
    readNumber limit (sign negative ++ (whole ++ tail)) = readTail limit negative whole tail := by
  have hsign : splitSign (sign negative ++ (whole ++ tail)) = (negative, whole ++ tail) := by
    obtain ⟨c, ds, rfl⟩ := List.exists_cons_of_ne_nil hw.ne
    exact splitSign_append (hw.digits c List.mem_cons_self) _
  rw [readNumber_eq, hsign]
  dsimp only
  rw [wholeDigits_append hw ht, List.drop_left, if_neg]
  rw [List.isEmpty_iff]
  exact hw.ne

theorem Ends.no_digit (h : Ends rest) : ∀ c ∈ rest.head?, c.isDigit = false := fun c hc => (h c hc).1

theorem Ends.readExponent (h : Ends rest) : readExponent rest = none := by
  cases rest with
  | nil => rfl
  | cons c rest =>
    obtain ⟨-, -, hlower, hupper⟩ := h c rfl
    unfold Json.readExponent
    dsimp only
    rw [if_neg]
    rw [Bool.or_eq_true, beq_iff_eq, beq_iff_eq]
    tauto

theorem readFraction_of_ne (h : ∀ c ∈ rest.head?, c ≠ '.') : readFraction rest = ([], rest) := by
  unfold readFraction
  split
  · exact absurd rfl (h '.' rfl)
  · rfl

theorem readFraction_point (hne : fraction ≠ []) (hf : ∀ c ∈ fraction, c.isDigit)
    (hr : ∀ c ∈ rest.head?, c.isDigit = false) : readFraction ('.' :: (fraction ++ rest)) = (fraction, rest) := by
  obtain ⟨c, ds, rfl⟩ := List.exists_cons_of_ne_nil hne
  have hds : ∀ d ∈ ds, d.isDigit := fun d hd => hf d (List.mem_cons_of_mem _ hd)
  rw [List.cons_append, readFraction, if_pos (hf c List.mem_cons_self), Text.takeWhile_append_of_end hds hr,
    Text.dropWhile_append_of_end hds hr]

theorem readExponent_append {ds : List Char} (hne : ds ≠ []) (hds : ∀ c ∈ ds, c.isDigit)
    (hr : ∀ c ∈ rest.head?, c.isDigit = false) :
    readExponent ('e' :: (if negative then '-' else '+') :: (ds ++ rest)) =
      some (if negative then -(Text.plainValue ds : Int) else Text.plainValue ds, rest) := by
  have htake := Text.takeWhile_append_of_end hds hr
  have hdrop := Text.dropWhile_append_of_end hds hr
  obtain ⟨c, ds, rfl⟩ := List.exists_cons_of_ne_nil hne
  cases negative with
  | true => simp only [readExponent, beq_self_eq_true, Bool.true_or, if_true, htake, hdrop]
  | false => simp only [readExponent, beq_self_eq_true, Bool.true_or, Bool.false_eq_true, if_true, if_false, htake, hdrop]

theorem isWhole_toDigits (n : Nat) : IsWhole (Nat.toDigits 10 n) where
  ne := Nat.toDigits_ne_nil
  digits c hc := Nat.isDigit_of_mem_toDigits (by decide) (by decide) hc
  zero h := by
    obtain rfl | hn := Nat.eq_zero_or_pos n
    · rfl
    · exact absurd h (Decimal.head?_toDigits hn)

theorem isWhole_zero : IsWhole ['0'] := ⟨nofun, Text.forall_mem_of_all (by decide), fun _ => rfl⟩

theorem readNumber_int {n : Int} (hn : ∀ most ∈ limit, (Nat.toDigits 10 n.natAbs).length ≤ most)
    (hrest : Ends rest) :
    readNumber limit ((toString n).toList ++ rest) = .ok (.int n, rest) := by
  have htext : (toString n).toList = sign (decide (n < 0)) ++ Nat.toDigits 10 n.natAbs := by
    rw [Text.toList_toString]
    by_cases h : 0 ≤ n
    · rw [if_pos h, decide_eq_false (by omega)]
      rfl
    · rw [if_neg h, decide_eq_true (by omega)]
      rfl
  have hvalue : Text.plainValue (Nat.toDigits 10 n.natAbs) = n.natAbs := by
    rw [Text.plainValue_eq, Nat.ofDigitChars_ten_toDigits]
  have hshort : ¬ limit.any (· < (Nat.toDigits 10 n.natAbs).length) = true := by
    cases limit with
    | none => exact nofun
    | some most => simpa using hn most rfl
  rw [htext, List.append_assoc, readNumber_whole (isWhole_toDigits _) hrest.no_digit, readTail,
    readFraction_of_ne fun c hc => (hrest c hc).2.1]
  dsimp only
  rw [hrest.readExponent]
  dsimp only
  rw [List.isEmpty_nil, Bool.not_true, if_neg Bool.false_ne_true, if_neg hshort, hvalue]
  by_cases h : n < 0
  · rw [decide_eq_true h, if_pos rfl]
    congr 3
    omega
  · rw [decide_eq_false h, if_neg Bool.false_ne_true]
    congr 3
    omega

/-- A number without its sign that stands for digits and an exponent of ten. -/
def Denotes (text : List Char) (digits : Nat) (e : Int) : Prop :=
  ∀ limit negative rest, Ends rest →
    readNumber limit (sign negative ++ (text ++ rest)) = .ok (.float (.ofDecimal negative digits e), rest)

theorem denotes_point (hw : IsWhole whole) (hne : fraction ≠ []) (hf : ∀ c ∈ fraction, c.isDigit) :
    Denotes (whole ++ '.' :: fraction) (Text.plainValue (whole ++ fraction)) (-fraction.length) := by
  intro limit negative rest hrest
  have hempty : fraction.isEmpty = false := by
    rw [← Bool.not_eq_true, List.isEmpty_iff]
    exact hne
  rw [List.append_assoc, List.cons_append, readNumber_whole hw (by rintro c ⟨⟩; rfl), readTail,
    readFraction_point hne hf hrest.no_digit]
  dsimp only
  rw [hrest.readExponent, hempty]
  rfl

theorem denotes_exponent {ds : List Char} (minus : Bool) (hw : IsWhole whole) (hf : ∀ c ∈ fraction, c.isDigit)
    (hne : ds ≠ []) (hds : ∀ c ∈ ds, c.isDigit) :
    Denotes (whole ++ ((if fraction = [] then [] else '.' :: fraction) ++ 'e' :: (if minus then '-' else '+') :: ds))
      (Text.plainValue (whole ++ fraction))
      ((if minus then -(Text.plainValue ds : Int) else Text.plainValue ds) - fraction.length) := by
  intro limit negative rest hrest
  have hread : readFraction ((if fraction = [] then [] else '.' :: fraction) ++
      'e' :: (if minus then '-' else '+') :: (ds ++ rest)) =
      (fraction, 'e' :: (if minus then '-' else '+') :: (ds ++ rest)) := by
    split
    · rename_i hnil
      rw [hnil, List.nil_append, readFraction_of_ne (by rintro c ⟨⟩; decide)]
    · rename_i hsome
      rw [List.cons_append, readFraction_point hsome hf (by rintro c ⟨⟩; rfl)]
  have htail : ∀ c ∈ ((if fraction = [] then [] else '.' :: fraction) ++
      'e' :: (if minus then '-' else '+') :: (ds ++ rest)).head?, c.isDigit = false := by
    split
    · rintro c ⟨⟩
      rfl
    · rintro c ⟨⟩
      rfl
  rw [List.append_assoc, List.append_assoc, List.cons_append, List.cons_append, readNumber_whole hw htail, readTail, hread]
  dsimp only
  rw [readExponent_append hne hds hrest.no_digit]

theorem isWhole_of_head {ds : List Char} (hne : ds ≠ []) (hdigits : ∀ c ∈ ds, c.isDigit)
    (hhead : ds.head? ≠ some '0') : IsWhole ds := ⟨hne, hdigits, fun h => absurd h hhead⟩

theorem plainValue_zeros (k : Nat) (ds : List Char) :
    Text.plainValue (List.replicate k '0' ++ ds) = Text.plainValue ds := by
  rw [Text.plainValue_eq, Text.plainValue_eq, Nat.ofDigitChars_append, Nat.ofDigitChars_replicate_zero, Nat.mul_zero]

/-- A number without its sign that has a positive value. -/
def HasValue (text : List Char) (y : ℚ) : Prop :=
  ∃ (digits : Nat) (e : Int), 0 < digits ∧ (digits : ℚ) * (10 : ℚ) ^ e = y ∧ Denotes text digits e

theorem exponentText_spec (e : Int) :
    let magnitude := Nat.toDigits 10 e.natAbs
    let ds := if magnitude.length < 2 then '0' :: magnitude else magnitude
    ds ≠ [] ∧ (∀ c ∈ ds, c.isDigit) ∧
      (if decide (e < 0) then -(Text.plainValue ds : Int) else Text.plainValue ds) = e := by
  have hdigits := (isWhole_toDigits e.natAbs).digits
  have hvalue : Text.plainValue (Nat.toDigits 10 e.natAbs) = e.natAbs := by
    rw [Text.plainValue_eq, Nat.ofDigitChars_ten_toDigits]
  have hsigned {n : Nat} (hn : n = e.natAbs) : (if decide (e < 0) then -(n : Int) else n) = e := by
    split
    · rename_i hneg
      have hlt := of_decide_eq_true hneg
      omega
    · rename_i hneg
      have hge := of_decide_eq_false (Bool.eq_false_iff.2 hneg)
      omega
  dsimp only
  split
  · refine ⟨nofun, fun c hc => ?_, hsigned ?_⟩
    · obtain rfl | hc := List.mem_cons.1 hc
      · rfl
      · exact hdigits c hc
    · exact (plainValue_zeros 1 _).trans hvalue
  · exact ⟨Nat.toDigits_ne_nil, hdigits, hsigned hvalue⟩

section

variable {ds : List Char}

theorem forall_isDigit_zeros (k : Nat) : ∀ c ∈ List.replicate k '0', c.isDigit := by
  intro c hc
  rw [List.eq_of_mem_replicate hc]
  rfl

/-- Zeros stand between the point and the digits. -/
theorem hasValue_point_zeros (k : Nat) (hne : ds ≠ []) (hdigits : ∀ c ∈ ds, c.isDigit)
    (hpos : 0 < Text.plainValue ds) :
    HasValue ('0' :: '.' :: (List.replicate k '0' ++ ds))
      (Text.plainValue ds * (10 : ℚ) ^ (-(k : Int) - ds.length)) := by
  have hf : ∀ c ∈ List.replicate k '0' ++ ds, c.isDigit :=
    List.forall_mem_append.2 ⟨forall_isDigit_zeros k, hdigits⟩
  have hdenotes := denotes_point isWhole_zero (by simp [hne]) hf
  have hzeros := plainValue_zeros (k + 1) ds
  rw [List.replicate_succ, List.cons_append] at hzeros
  refine ⟨_, _, ?_, ?_, hdenotes⟩
  · rwa [List.singleton_append, hzeros]
  · rw [List.singleton_append, hzeros, List.length_append, List.length_replicate]
    congr 2
    push_cast
    omega

/-- Zeros stand between the digits and the point. -/
theorem hasValue_zeros_point {k : Nat} (hlength : ds.length ≤ k) (hne : ds ≠ []) (hdigits : ∀ c ∈ ds, c.isDigit)
    (hhead : ds.head? ≠ some '0') (hpos : 0 < Text.plainValue ds) :
    HasValue (ds ++ List.replicate (k - ds.length) '0' ++ ['.', '0'])
      (Text.plainValue ds * (10 : ℚ) ^ ((k : Int) - ds.length)) := by
  have hw : IsWhole (ds ++ List.replicate (k - ds.length) '0') :=
    isWhole_of_head (by simp [hne]) (List.forall_mem_append.2 ⟨hdigits, forall_isDigit_zeros _⟩)
      (by rwa [List.head?_append_of_ne_nil _ hne])
  have hdenotes := denotes_point hw (List.cons_ne_nil '0' []) (forall_isDigit_zeros 1)
  have hzeros : Text.plainValue (ds ++ List.replicate (k - ds.length) '0' ++ ['0']) =
      Text.plainValue ds * 10 ^ (k - ds.length + 1) := by
    rw [← Decimal.plainValue_replicate, List.replicate_succ', List.append_assoc]
  refine ⟨_, _, ?_, ?_, hdenotes⟩
  · rw [hzeros]
    positivity
  · rw [hzeros]
    push_cast
    rw [mul_assoc, ← zpow_natCast, ← zpow_add₀ (by norm_num)]
    congr 2
    push_cast [List.length_singleton]
    omega

/-- The point stands among the digits. -/
theorem hasValue_take_drop {k : Nat} (hk : 0 < k) (hlength : k < ds.length) (hdigits : ∀ c ∈ ds, c.isDigit)
    (hhead : ds.head? ≠ some '0') (hpos : 0 < Text.plainValue ds) :
    HasValue (ds.take k ++ '.' :: ds.drop k) (Text.plainValue ds * (10 : ℚ) ^ ((k : Int) - ds.length)) := by
  have hw : IsWhole (ds.take k) := by
    refine isWhole_of_head ?_ (fun c hc => hdigits c (List.mem_of_mem_take hc)) ?_
    · rw [Ne, List.take_eq_nil_iff, not_or]
      exact ⟨by omega, List.ne_nil_of_length_pos (by omega)⟩
    · rwa [List.head?_take, if_neg (by omega)]
  have hdrop : ds.drop k ≠ [] := by
    rw [Ne, List.drop_eq_nil_iff]
    omega
  have hdenotes := denotes_point hw hdrop fun c hc => hdigits c (List.mem_of_mem_drop hc)
  rw [List.take_append_drop, List.length_drop] at hdenotes
  refine ⟨_, _, hpos, ?_, hdenotes⟩
  congr 2
  omega

end

section

variable {d : Decimal} (hd : 0 < d.digits)

include hd

/-- The digits of a decimal with the point where it belongs. -/
theorem hasValue_positional : HasValue d.positional (Double.decimalValue d) := by
  obtain ⟨hne, hdigits, hhead, hpos, hvalue⟩ := Decimal.digitText_spec hd
  rw [Decimal.positional, ← hvalue]
  generalize d.digitText = ds at *
  dsimp only
  split
  · rename_i hpoint
    obtain ⟨k, hk⟩ := Int.eq_ofNat_of_zero_le (by omega : 0 ≤ -d.point)
    rw [hk, Int.toNat_natCast, show d.point = -(k : Int) by omega]
    exact hasValue_point_zeros k hne hdigits hpos
  · rename_i hpoint
    obtain ⟨k, hk⟩ := Int.eq_ofNat_of_zero_le (by omega : 0 ≤ d.point)
    rw [hk, Int.toNat_natCast]
    split
    · rename_i hlength
      exact hasValue_zeros_point hlength hne hdigits hhead hpos
    · rename_i hlength
      exact hasValue_take_drop (by omega) (by omega) hdigits hhead hpos

/-- One digit of a decimal before the point, and an exponent. -/
theorem hasValue_scientific : HasValue d.scientific (Double.decimalValue d) := by
  obtain ⟨hne, hdigits, hhead, hpos, hvalue⟩ := Decimal.digitText_spec hd
  rw [Decimal.scientific]
  generalize d.digitText = ds at *
  obtain ⟨c, rest, rfl⟩ := List.exists_cons_of_ne_nil hne
  obtain ⟨hexponent, hmark, hvalue'⟩ := exponentText_spec (d.point - 1)
  have hw : IsWhole [c] := isWhole_of_head nofun (fun d hd => hdigits d (by simp_all)) hhead
  have hdenotes := denotes_exponent (decide (d.point - 1 < 0)) hw
    (fun d hd => hdigits d (List.mem_cons_of_mem _ hd)) hexponent hmark
  rw [hvalue', List.singleton_append] at hdenotes
  refine ⟨_, d.point - 1 - rest.length, hpos, ?_, ?_⟩
  · rw [← hvalue, List.length_cons]
    congr 2
    push_cast
    ring
  · simp only [decide_eq_true_eq] at hdenotes
    cases rest with
    | nil => exact hdenotes
    | cons next more =>
      rw [if_neg (List.cons_ne_nil _ _)] at hdenotes
      exact hdenotes

theorem hasValue_text : HasValue d.text (Double.decimalValue d) := by
  rw [Decimal.text]
  split
  · exact hasValue_positional hd
  · exact hasValue_scientific hd

end

theorem readNumber_double {m : Nat} {q : Int} (hn : (Double.finite negative m q).Normal) (hrest : Ends rest) :
    readNumber limit ((Double.finite negative m q).textList ++ rest) = .ok (.float (.finite negative m q), rest) := by
  change readNumber limit (sign negative ++ _ ++ rest) = _
  rw [List.append_assoc]
  split
  · rename_i hzero
    subst hzero
    have hq : q = Double.minExponent := hn.2.2.2.resolve_left (by decide)
    have hdenotes := denotes_point isWhole_zero (List.cons_ne_nil '0' []) isWhole_zero.digits limit negative rest hrest
    rw [hq]
    exact hdenotes
  · rename_i hzero
    obtain ⟨hpos, hround⟩ := Double.rounds_shortest (q := q) (Nat.pos_of_ne_zero hzero) hn.1
    obtain ⟨digits, e, hdigits, hvalue, hdenotes⟩ := hasValue_text hpos
    rw [← hvalue] at hround
    rw [hdenotes limit negative rest hrest, Double.ofDecimal_eq hdigits (Nat.pos_of_ne_zero hzero) hn hround]

/-- What is read as a number begins with a digit or with a sign and a digit. -/
theorem head_of_readNumber {cs : List Char} {r : Json × List Char} (h : readNumber limit cs = .ok r) :
    ∃ negative c ds, Char.isDigit c ∧ cs = sign negative ++ c :: ds := by
  have hwhole : wholeDigits (splitSign cs).2 ≠ [] := by
    intro hnil
    rw [readNumber_eq, hnil] at h
    cases h
  have hcs : cs = sign (splitSign cs).1 ++ (splitSign cs).2 := by
    unfold splitSign
    split <;> rfl
  cases hdigits : (splitSign cs).2 with
  | nil =>
    rw [hdigits] at hwhole
    exact absurd rfl hwhole
  | cons c ds =>
    rw [hdigits] at hcs hwhole
    refine ⟨_, c, ds, ?_, hcs⟩
    by_contra hc
    unfold wholeDigits at hwhole
    split at hwhole
    · rename_i heq
      cases heq
      exact hc rfl
    · rw [List.takeWhile_cons, if_neg hc] at hwhole
      exact hwhole rfl

theorem ends_nil : Ends [] := nofun

end ConsentBanner.Json
