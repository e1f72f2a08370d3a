import ConsentBanner.Proofs.Number.Shortest
import ConsentBanner.Proofs.Text
import ConsentBanner.Proofs.Time.Reader

/-!
Decimals that round to a number are read as it, in whichever digits and exponent they are written.
-/

namespace ConsentBanner

namespace Double

theorem unit_le_ten {k : Int} (hk : 0 ≤ k) : unit (3 * k) ≤ (10 : ℚ) ^ k := by
  rw [unit, zpow_mul]
  exact zpow_le_zpow_left₀ hk (by norm_num) (by norm_num)

theorem ten_le_unit {k : Int} (hk : 0 ≤ k) : (10 : ℚ) ^ (-k) ≤ unit (-(3 * k)) := by
  rw [unit, zpow_neg, zpow_neg]
  exact inv_anti₀ (unit_pos _) (unit_le_ten hk)

/-- Numbers are far below the exponents that are cut short. -/
theorem exponent_le_of_rounds {m digits : Nat} {q e : Int} (hdigits : 0 < digits) (hbits : m < Nat.pow 2 53)
    (hmax : q ≤ maxExponent) (h : Rounds m q (digits * (10 : ℚ) ^ e)) : e ≤ 400 := by
  by_contra hlt
  have hone : (1 : ℚ) ≤ digits := by exact_mod_cast hdigits
  have hpos : (0 : ℚ) < (10 : ℚ) ^ e := zpow_pos (by norm_num) e
  rw [maxExponent] at hmax
  refine lt_irrefl ((10 : ℚ) ^ e) ?_
  calc (10 : ℚ) ^ e ≤ digits * (10 : ℚ) ^ e := le_mul_of_one_le_left hpos.le hone
    _ < unit (q + 53) := h.lt_unit hbits
    _ ≤ unit (3 * 400) := unit_le_iff.2 (by omega)
    _ ≤ (10 : ℚ) ^ (400 : Int) := unit_le_ten (by decide)
    _ ≤ (10 : ℚ) ^ e := zpow_le_zpow_right₀ (by norm_num) (by omega)

theorem unit_le_of_rounds {m : Nat} {q : Int} {y : ℚ} (hm : 0 < m) (hmin : minExponent ≤ q) (h : Rounds m q y) :
    unit (minExponent - 1) ≤ y := by
  have hu := unit_pos (q - 2)
  have hfst := roundingInterval_fst hm (q := q)
  have hone : (1 : ℚ) ≤ m := by exact_mod_cast hm
  calc unit (minExponent - 1) ≤ unit (1 + (q - 2)) := unit_le_iff.2 (by omega)
    _ = 2 * unit (q - 2) := by rw [unit_add, unit, zpow_one]
    _ ≤ (roundingInterval m q).1 * unit (q - 2) := mul_le_mul_of_nonneg_right (by linarith) hu.le
    _ ≤ y := h.between.1

/-- Nor do they come near the least of those. -/
theorem le_exponent_of_rounds {m digits : Nat} {q e : Int} (hm : 0 < m) (hmin : minExponent ≤ q)
    (h : Rounds m q (digits * (10 : ℚ) ^ e)) : -(400 + (digits.log2 : Int)) ≤ e := by
  by_contra hlt
  have hlog := lt_unit_log2 digits
  refine lt_irrefl (unit (minExponent - 1)) ?_
  calc unit (minExponent - 1) ≤ digits * (10 : ℚ) ^ e := unit_le_of_rounds hm hmin h
    _ < unit (digits.log2 + 1) * (10 : ℚ) ^ e := mul_lt_mul_of_pos_right hlog (zpow_pos (by norm_num) e)
    _ ≤ unit (digits.log2 + 1) * unit (-(3 * -e)) := by
      refine mul_le_mul_of_nonneg_left ?_ (unit_pos _).le
      have hten := ten_le_unit (k := -e) (by omega)
      rwa [neg_neg] at hten
    _ = unit (digits.log2 + 1 + -(3 * -e)) := (unit_add _ _).symm
    _ ≤ unit (minExponent - 1) := by
      rw [unit_le_iff, minExponent]
      omega

theorem ofDecimal_eq {negative : Bool} {m digits : Nat} {q e : Int} (hdigits : 0 < digits) (hm : 0 < m)
    (hnormal : (finite negative m q).Normal) (h : Rounds m q (digits * (10 : ℚ) ^ e)) :
    ofDecimal negative digits e = finite negative m q := by
  have hhigh := exponent_le_of_rounds hdigits hnormal.1 hnormal.2.2.1 h
  have hlow := le_exponent_of_rounds hm hnormal.2.1 h
  rw [ofDecimal, if_neg hdigits.ne', if_neg (by omega), if_neg (by omega)]
  split
  · rename_i he
    obtain ⟨k, rfl⟩ := Int.eq_ofNat_of_zero_le he
    refine ofRatio_eq (Nat.mul_pos hdigits (Nat.pow_pos (by decide))) one_pos hm hnormal ?_
    rw [zpow_natCast] at h
    rw [Int.toNat_natCast, Nat.pow_eq]
    push_cast
    rwa [div_one]
  · rename_i he
    obtain ⟨k, hk⟩ := Int.eq_ofNat_of_zero_le (by omega : 0 ≤ -e)
    obtain rfl : e = -(k : Int) := by omega
    refine ofRatio_eq hdigits (Nat.pow_pos (by decide)) hm hnormal ?_
    rw [zpow_neg, zpow_natCast, ← div_eq_mul_inv] at h
    rw [neg_neg, Int.toNat_natCast, Nat.pow_eq]
    push_cast
    exact h

end Double

namespace Decimal

theorem plainValue_replicate (ds : List Char) (k : Nat) :
    Text.plainValue (ds ++ List.replicate k '0') = Text.plainValue ds * 10 ^ k := by
  rw [Text.plainValue_eq, Text.plainValue_eq, Nat.ofDigitChars_append, Nat.ofDigitChars_replicate_zero, Nat.mul_comm]

theorem head?_toDigits {n : Nat} (h : 0 < n) : (Nat.toDigits 10 n).head? ≠ some '0' := by
  induction n using Nat.strongRecOn with
  | ind n ih =>
    rw [Nat.toDigits_eq_if (by decide)]
    split
    · have small : ∀ n < 10, 0 < n → [Nat.digitChar n].head? ≠ some '0' := by decide
      exact small n (by assumption) h
    · rw [List.head?_append_of_ne_nil _ Nat.toDigits_ne_nil]
      exact ih (n / 10) (by omega) (by omega)

/-- The digits of a decimal are followed only by zeros. -/
theorem digitText_append {d : Decimal} (h : 0 < d.digits) :
    d.digitText ≠ [] ∧ ∃ k, Nat.toDigits 10 d.digits = d.digitText ++ List.replicate k '0' := by
  have hsplit := List.takeWhile_append_dropWhile (p := (· == '0')) (l := (Nat.toDigits 10 d.digits).reverse)
  have hzero : ∀ c ∈ (Nat.toDigits 10 d.digits).reverse.takeWhile (· == '0'), c = '0' := fun c hc =>
    eq_of_beq (Text.of_mem_takeWhile (p := (· == '0')) hc)
  have hzeros := List.eq_replicate_iff.2 ⟨rfl, hzero⟩
  rw [hzeros] at hsplit
  generalize ((Nat.toDigits 10 d.digits).reverse.takeWhile (· == '0')).length = k at hsplit
  have hdigits := congrArg List.reverse hsplit
  rw [List.reverse_append, List.reverse_replicate, List.reverse_reverse] at hdigits
  rw [digitText]
  generalize ((Nat.toDigits 10 d.digits).reverse.dropWhile (· == '0')).reverse = ds at *
  cases ds with
  | nil =>
    -- Zeros alone have no positive value.
    have hvalue : Text.plainValue (Nat.toDigits 10 d.digits) = d.digits := by
      rw [Text.plainValue_eq, Nat.ofDigitChars_ten_toDigits]
    rw [← hdigits, plainValue_replicate] at hvalue
    change 0 * _ = _ at hvalue
    omega
  | cons c rest => exact ⟨List.cons_ne_nil _ _, k, hdigits.symm⟩

/-- The digits of a decimal as they are written: they begin with no zero, and have its value. -/
theorem digitText_spec {d : Decimal} (h : 0 < d.digits) :
    d.digitText ≠ [] ∧ (∀ c ∈ d.digitText, c.isDigit) ∧ d.digitText.head? ≠ some '0' ∧
      0 < Text.plainValue d.digitText ∧
      Text.plainValue d.digitText * (10 : ℚ) ^ (d.point - d.digitText.length) = Double.decimalValue d := by
  obtain ⟨hne, k, hdigits⟩ := digitText_append h
  have hvalue : Text.plainValue (Nat.toDigits 10 d.digits) = d.digits := by
    rw [Text.plainValue_eq, Nat.ofDigitChars_ten_toDigits]
  have hhead := head?_toDigits h
  have hcount : Double.digitCount d.digits = d.digitText.length + k := by
    rw [Double.digitCount, hdigits, List.length_append, List.length_replicate]
  rw [hdigits, plainValue_replicate] at hvalue
  rw [hdigits, List.head?_append_of_ne_nil _ hne] at hhead
  refine ⟨hne, fun c hc => ?_, hhead, Nat.pos_of_ne_zero fun hzero => ?_, ?_⟩
  · refine Nat.isDigit_of_mem_toDigits (b := 10) (n := d.digits) (by decide) (by decide) ?_
    rw [hdigits]
    exact List.mem_append_left _ hc
  · rw [hzero] at hvalue
    omega
  · rw [Double.decimalValue, hcount]
    have hcast : (d.digits : ℚ) = Text.plainValue d.digitText * 10 ^ k := by exact_mod_cast hvalue.symm
    rw [hcast, mul_assoc, ← zpow_natCast, ← zpow_add₀ (by norm_num)]
    congr 2
    push_cast
    ring

end Decimal

end ConsentBanner
