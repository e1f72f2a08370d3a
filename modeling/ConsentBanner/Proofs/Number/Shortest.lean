import ConsentBanner.Proofs.Number.Rounding
import Mathlib.Data.Nat.Cast.Order.Field

/-!
The shortest decimal of a number rounds to it. A grid of seventeen digits always has such a point, because its
steps are shorter than the interval of the number.
-/

namespace ConsentBanner.Double

theorem zpow_mul_pow_toNat {b : ℚ} (hb : b ≠ 0) (e : Int) : b ^ e * b ^ (-e).toNat = b ^ e.toNat := by
  rw [← zpow_natCast, ← zpow_natCast, ← zpow_add₀ hb]
  congr 1
  omega

/-- Both sides are compared after they have been multiplied by the same powers of two and ten. -/
theorem roundsTo_iff (m : Nat) (q : Int) (c : Nat) (e : Int) :
    roundsTo m q c e = true ↔ Rounds m q (c * (10 : ℚ) ^ e) := by
  have hk : (0 : ℚ) < 2 ^ (2 - q).toNat * 10 ^ (-e).toNat := by positivity
  have htwo (a : Nat) : (a : ℚ) * unit (q - 2) * (2 ^ (2 - q).toNat * 10 ^ (-e).toNat) =
      ((a * Nat.pow 2 (q - 2).toNat * Nat.pow 10 (-e).toNat : Nat) : ℚ) := by
    have h := zpow_mul_pow_toNat (two_ne_zero : (2 : ℚ) ≠ 0) (q - 2)
    rw [neg_sub] at h
    simp only [Nat.pow_eq]
    push_cast
    rw [← h]
    ring
  have hten : (c : ℚ) * (10 : ℚ) ^ e * (2 ^ (2 - q).toNat * 10 ^ (-e).toNat) =
      ((c * Nat.pow 2 (2 - q).toNat * Nat.pow 10 e.toNat : Nat) : ℚ) := by
    have h := zpow_mul_pow_toNat (by norm_num : (10 : ℚ) ≠ 0) e
    simp only [Nat.pow_eq]
    push_cast
    rw [← h]
    ring
  have hlow (a : Nat) : (a : ℚ) * unit (q - 2) ≤ c * (10 : ℚ) ^ e ↔
      a * Nat.pow 2 (q - 2).toNat * Nat.pow 10 (-e).toNat ≤ c * Nat.pow 2 (2 - q).toNat * Nat.pow 10 e.toNat := by
    rw [← mul_le_mul_iff_left₀ hk, htwo, hten, Nat.cast_le]
  have hhigh (a : Nat) : (c : ℚ) * (10 : ℚ) ^ e ≤ a * unit (q - 2) ↔
      c * Nat.pow 2 (2 - q).toNat * Nat.pow 10 e.toNat ≤ a * Nat.pow 2 (q - 2).toNat * Nat.pow 10 (-e).toNat := by
    rw [← mul_le_mul_iff_left₀ hk, htwo, hten, Nat.cast_le]
  rw [roundsTo, Rounds]
  dsimp only
  split
  · rw [Bool.and_eq_true, decide_eq_true_eq, decide_eq_true_eq, hlow, hhigh]
  · rw [Bool.and_eq_true, decide_eq_true_eq, decide_eq_true_eq, ← not_le, ← not_le, ← hhigh, ← hlow, not_le, not_le]

theorem le_digitCount (n : Nat) (h : 0 < n) : 10 ^ (digitCount n - 1) ≤ n := by
  have hpos : 0 < digitCount n := Nat.length_toDigits_pos
  by_cases hone : digitCount n = 1
  · rw [hone]
    omega
  · have hiff := Nat.length_toDigits_le_iff (b := 10) (n := n) (k := digitCount n - 1) (by decide) (by omega)
    by_contra hlt
    have hle := hiff.2 (by omega)
    change digitCount n ≤ _ at hle
    omega

theorem lt_digitCount (n : Nat) : n < 10 ^ digitCount n :=
  (Nat.length_toDigits_le_iff (by decide) Nat.length_toDigits_pos).1 le_rfl

theorem digitCount_eq {n k : Nat} (hlow : 10 ^ k ≤ n) (hhigh : n < 10 ^ (k + 1)) : digitCount n = k + 1 := by
  have hle : digitCount n ≤ k + 1 := (Nat.length_toDigits_le_iff (by decide) (by omega)).2 hhigh
  have hlt := lt_of_le_of_lt hlow (lt_digitCount n)
  rw [Nat.pow_lt_pow_iff_right (by decide)] at hlt
  omega

/-- The decimal point of a quotient stands after its first digit. -/
theorem decimalPoint_spec {num den : Nat} (hnum : 0 < num) (hden : 0 < den) :
    (10 : ℚ) ^ (decimalPoint num den - 1) ≤ num / den ∧ (num : ℚ) / den < (10 : ℚ) ^ decimalPoint num den := by
  have hnum' : (0 : ℚ) < num := by exact_mod_cast hnum
  have hden' : (0 : ℚ) < den := by exact_mod_cast hden
  rw [decimalPoint]
  split
  · rename_i hle
    have hfloor : 0 < num / den := Nat.div_pos hle hden
    have hlow := le_digitCount _ hfloor
    have hhigh := lt_digitCount (num / den)
    have hpos : 0 < digitCount (num / den) := Nat.length_toDigits_pos
    generalize digitCount (num / den) = k at *
    rw [Nat.le_div_iff_mul_le hden] at hlow
    rw [Nat.div_lt_iff_lt_mul hden] at hhigh
    rw [show (k : Int) - 1 = ((k - 1 : Nat) : Int) by omega, zpow_natCast, zpow_natCast, le_div_iff₀ hden',
      div_lt_iff₀ hden']
    exact ⟨by exact_mod_cast hlow, by exact_mod_cast hhigh⟩
  · rename_i hlt
    -- The ceiling of the inverse, less one, lies between the same powers as the inverse itself.
    have hsplit : (den + num - 1) / num - 1 = (den - 1) / num := by
      rw [show den + num - 1 = den - 1 + num by omega, Nat.add_div_right _ hnum]
      rfl
    dsimp only
    rw [hsplit]
    have hfloor : 0 < (den - 1) / num := Nat.div_pos (by omega) hnum
    have hlow := le_digitCount _ hfloor
    have hhigh := lt_digitCount ((den - 1) / num)
    have hpos : 0 < digitCount ((den - 1) / num) := Nat.length_toDigits_pos
    generalize digitCount ((den - 1) / num) = k at *
    rw [Nat.le_div_iff_mul_le hnum] at hlow
    rw [Nat.div_lt_iff_lt_mul hnum] at hhigh
    have hlow' : 10 ^ (k - 1) * num < den := by omega
    have hhigh' : den ≤ 10 ^ k * num := by omega
    have hinv : (0 : ℚ) < den / num := div_pos hden' hnum'
    rw [show 1 - (k : Int) - 1 = -(k : Int) by ring, show 1 - (k : Int) = -((k - 1 : Nat) : Int) by omega, zpow_neg,
      zpow_neg, zpow_natCast, zpow_natCast, ← inv_div (den : ℚ), inv_le_inv₀ (by positivity) hinv,
      inv_lt_inv₀ hinv (by positivity), div_le_iff₀ hnum', lt_div_iff₀ hnum']
    exact ⟨by exact_mod_cast hhigh', by exact_mod_cast hlow'⟩

theorem Rounds.of_lt {m : Nat} {q : Int} {y : ℚ} (hlow : (roundingInterval m q).1 * unit (q - 2) < y)
    (hhigh : y < (roundingInterval m q).2 * unit (q - 2)) : Rounds m q y := by
  rw [Rounds]
  split
  · exact ⟨hlow.le, hhigh.le⟩
  · exact ⟨hlow, hhigh⟩

/-- Half of a unit above a number rounds down to it. -/
theorem Rounds.above {m : Nat} {q : Int} {y : ℚ} (hm : 0 < m) (hlow : m * unit q ≤ y)
    (hhigh : y < m * unit q + unit q / 2) : Rounds m q y := by
  have hu := unit_pos (q - 2)
  rw [unit_eq_four] at hlow hhigh
  refine .of_lt (lt_of_lt_of_le ?_ hlow) (hhigh.trans_eq ?_)
  · have hlt : (roundingInterval m q).1 < 4 * m := by
      rw [roundingInterval]
      dsimp only
      split <;> omega
    have hcast : ((roundingInterval m q).1 : ℚ) < 4 * m := by exact_mod_cast hlt
    calc ((roundingInterval m q).1 : ℚ) * unit (q - 2) < 4 * m * unit (q - 2) := mul_lt_mul_of_pos_right hcast hu
      _ = m * (4 * unit (q - 2)) := by ring
  · rw [roundingInterval_snd]
    ring

/-- Half of a unit below a number rounds up to it, unless the units become smaller there. -/
theorem Rounds.beneath {m : Nat} {q : Int} {y : ℚ} (hm : 0 < m) (hbits : m ≠ Nat.pow 2 52)
    (hlow : m * unit q - unit q / 2 < y) (hhigh : y ≤ m * unit q) : Rounds m q y := by
  have hu := unit_pos (q - 2)
  rw [unit_eq_four] at hlow hhigh
  refine .of_lt (lt_of_eq_of_lt ?_ hlow) (hhigh.trans_lt ?_)
  · have hcast : ((4 * m - 2 : Nat) : ℚ) = 4 * m - 2 := by
      rw [Nat.cast_sub (by omega)]
      push_cast
      ring
    rw [roundingInterval, if_neg fun h => hbits h.1, hcast]
    ring
  · rw [roundingInterval_snd]
    calc (m : ℚ) * (4 * unit (q - 2)) < m * (4 * unit (q - 2)) + 2 * unit (q - 2) := by linarith
      _ = (4 * m + 2) * unit (q - 2) := by ring

theorem ratio_eq (m : Nat) (q : Int) : ((ratio m q).1 : ℚ) / (ratio m q).2 = m * unit q := by
  rw [ratio, shifted_ratio, unit, unit, zpow_neg, Nat.cast_one, div_one, div_inv_eq_mul]

theorem roundHalfEven_eq_or (num den : Nat) :
    roundHalfEven num den = num / den ∨ roundHalfEven num den = num / den + 1 := by
  rw [roundHalfEven]
  split
  · exact .inl rfl
  split
  · exact .inr rfl
  · omega

theorem steps_ratio (num den : Nat) (e : Int) :
    let steps := if 0 ≤ e then (num, den * Nat.pow 10 e.toNat) else (num * Nat.pow 10 (-e).toNat, den)
    (steps.1 : ℚ) / steps.2 = num / den / (10 : ℚ) ^ e := by
  dsimp only
  split
  · rename_i he
    obtain ⟨k, rfl⟩ := Int.eq_ofNat_of_zero_le he
    rw [zpow_natCast, Int.toNat_natCast, Nat.pow_eq]
    push_cast
    rw [div_div]
  · rename_i he
    obtain ⟨k, hk⟩ := Int.eq_ofNat_of_zero_le (by omega : 0 ≤ -e)
    obtain rfl : e = -(k : Int) := by omega
    rw [zpow_neg, zpow_natCast, neg_neg, Int.toNat_natCast, Nat.pow_eq]
    push_cast
    rw [div_inv_eq_mul, div_mul_eq_mul_div]

theorem onGrid?_eq (m : Nat) (q point : Int) (digits : Nat) :
    ∃ num den : Nat, 0 < den ∧ (num : ℚ) / den = m * unit q / (10 : ℚ) ^ (point - digits) ∧
      onGrid? m q point digits =
        match roundsTo m q (num / den) (point - digits), roundsTo m q (num / den + 1) (point - digits) with
        | true, true => some (roundHalfEven num den)
        | true, false => some (num / den)
        | false, true => some (num / den + 1)
        | false, false => none := by
  have hratio := steps_ratio (ratio m q).1 (ratio m q).2 (point - digits)
  have hden : 0 < (ratio m q).2 := shifted_pos one_pos (-q)
  rw [ratio_eq] at hratio
  refine ⟨_, _, ?_, hratio, rfl⟩
  split
  · exact Nat.mul_pos hden (Nat.pow_pos (by decide))
  · exact hden

theorem below_le {num den : Nat} {step y : ℚ} (hstep : 0 < step) (hratio : (num : ℚ) / den = y / step) :
    ((num / den : Nat) : ℚ) * step ≤ y := by
  rw [← le_div_iff₀ hstep, ← hratio]
  exact Nat.cast_div_le

theorem lt_above {num den : Nat} {step y : ℚ} (hden : 0 < den) (hstep : 0 < step)
    (hratio : (num : ℚ) / den = y / step) : y < ((num / den : Nat) + 1 : ℚ) * step := by
  rw [← div_lt_iff₀ hstep, ← hratio, div_lt_iff₀ (by exact_mod_cast hden)]
  exact_mod_cast Nat.lt_mul_of_div_lt (Nat.lt_succ_self _) hden

/-- A point that a grid offers rounds to the number, and is at most one step away from it. -/
theorem onGrid?_some {m c : Nat} {q point : Int} {digits : Nat} (h : onGrid? m q point digits = some c) :
    Rounds m q (c * (10 : ℚ) ^ (point - digits)) ∧
      m * unit q < (c + 1) * (10 : ℚ) ^ (point - digits) ∧ (c - 1) * (10 : ℚ) ^ (point - digits) ≤ m * unit q := by
  obtain ⟨num, den, hden, hratio, hgrid⟩ := onGrid?_eq m q point digits
  have hstep : (0 : ℚ) < (10 : ℚ) ^ (point - digits) := zpow_pos (by norm_num) _
  have hlow := below_le hstep hratio
  have hhigh := lt_above hden hstep hratio
  have hpoint : (c = num / den ∨ c = num / den + 1) ∧ roundsTo m q c (point - digits) = true := by
    rw [hgrid] at h
    split at h
    · rename_i hbelow habove
      obtain rfl := Option.some.inj h
      obtain hround | hround := roundHalfEven_eq_or num den
      · rw [hround]
        exact ⟨.inl rfl, hbelow⟩
      · rw [hround]
        exact ⟨.inr rfl, habove⟩
    · rename_i hbelow habove
      obtain rfl := Option.some.inj h
      exact ⟨.inl rfl, hbelow⟩
    · rename_i hbelow habove
      obtain rfl := Option.some.inj h
      exact ⟨.inr rfl, habove⟩
    · cases h
  refine ⟨(roundsTo_iff m q c _).1 hpoint.2, ?_⟩
  obtain rfl | rfl := hpoint.1
  · constructor
    · exact hhigh
    · linarith
  · push_cast
    constructor
    · linarith
    · linarith

/-- A grid offers a point where it has one that rounds to the number next to it. -/
theorem onGrid?_isSome {m : Nat} {q point : Int} {digits : Nat}
    (h : ∀ c : Nat, c * (10 : ℚ) ^ (point - digits) ≤ m * unit q →
      m * unit q < (c + 1) * (10 : ℚ) ^ (point - digits) →
      Rounds m q (c * (10 : ℚ) ^ (point - digits)) ∨ Rounds m q ((c + 1 : Nat) * (10 : ℚ) ^ (point - digits))) :
    (onGrid? m q point digits).isSome := by
  obtain ⟨num, den, hden, hratio, hgrid⟩ := onGrid?_eq m q point digits
  have hstep : (0 : ℚ) < (10 : ℚ) ^ (point - digits) := zpow_pos (by norm_num) _
  have hround := h (num / den) (below_le hstep hratio) (lt_above hden hstep hratio)
  rw [← roundsTo_iff, ← roundsTo_iff] at hround
  rw [hgrid]
  split
  · rfl
  · rfl
  · rfl
  · rename_i hbelow habove
    rw [hbelow, habove] at hround
    obtain hround | hround := hround <;> cases hround

/-- Steps that are shorter than the interval of a number meet it. -/
theorem onGrid?_of_short {m : Nat} {q point : Int} {digits : Nat} (hm : 0 < m) (hbits : m < Nat.pow 2 53)
    (hshort : (10 : ℚ) ^ (point - digits) * 10 ^ 16 ≤ m * unit q) : (onGrid? m q point digits).isSome := by
  have hu := unit_pos q
  have hm53 : (m : ℚ) ≤ 2 ^ 53 := by exact_mod_cast hbits.le
  refine onGrid?_isSome fun c hlow hhigh => ?_
  generalize (10 : ℚ) ^ (point - digits) = step at *
  by_cases hnear : ((c + 1 : Nat) : ℚ) * step < m * unit q + unit q / 2
  · refine .inr (.above hm ?_ hnear)
    push_cast
    exact hhigh.le
  · push_cast at hnear
    refine .inl (.beneath hm ?_ ?_ hlow)
    · -- The steps around a power of two are shorter than half of a unit.
      rintro rfl
      norm_num at hshort hnear hlow
      nlinarith
    · nlinarith

theorem firstGrid_spec {m : Nat} {q point : Int} {remaining digits : Nat}
    (h : (onGrid? m q point (digits + remaining)).isSome) :
    onGrid? m q point (firstGrid m q point remaining digits).2 = some (firstGrid m q point remaining digits).1 ∧
      digits ≤ (firstGrid m q point remaining digits).2 := by
  induction remaining generalizing digits with
  | zero =>
    obtain ⟨c, hc⟩ := Option.isSome_iff_exists.1 h
    rw [Nat.add_zero] at hc
    rw [firstGrid, hc]
    exact ⟨rfl, le_rfl⟩
  | succ remaining ih =>
    rw [firstGrid]
    split
    · rename_i c hc
      exact ⟨hc, le_rfl⟩
    · rw [show digits + (remaining + 1) = digits + 1 + remaining by omega] at h
      obtain ⟨hgrid, hle⟩ := ih h
      exact ⟨hgrid, by omega⟩

/-- The point of a grid next to a number has as many digits as the grid, or it is the power of ten at its end. -/
theorem pow_le_onGrid {point : Int} {c digits : Nat} {y : ℚ} (hone : 1 ≤ digits)
    (hlow : (10 : ℚ) ^ (point - 1) ≤ y) (hhigh : y < (10 : ℚ) ^ point)
    (habove : y < (c + 1) * (10 : ℚ) ^ (point - digits)) (hbelow : (c - 1) * (10 : ℚ) ^ (point - digits) ≤ y) :
    10 ^ (digits - 1) ≤ c ∧ c ≤ 10 ^ digits := by
  have hstep : (0 : ℚ) < (10 : ℚ) ^ (point - digits) := zpow_pos (by norm_num) _
  have hpow (k : Nat) : (10 : ℚ) ^ (point - digits + k) = (10 ^ k : Nat) * (10 : ℚ) ^ (point - digits) := by
    rw [zpow_add₀ (by norm_num), zpow_natCast, mul_comm]
    push_cast
    rfl
  constructor
  · rw [show point - 1 = point - digits + (digits - 1 : Nat) by omega, hpow] at hlow
    have hlt := lt_of_mul_lt_mul_right (hlow.trans_lt habove) hstep.le
    exact Nat.lt_succ_iff.1 (by exact_mod_cast hlt)
  · rw [show point = point - digits + (digits : Nat) by ring, hpow] at hhigh
    have hlt := lt_of_mul_lt_mul_right (hbelow.trans_lt hhigh) hstep.le
    exact Nat.lt_succ_iff.1 (by exact_mod_cast sub_lt_iff_lt_add.1 hlt)

/-- Only the power of ten at the end of a grid has one digit more than the grid. -/
theorem digitCount_of_ne {c digits : Nat} (hone : 1 ≤ digits) (hleast : 10 ^ (digits - 1) ≤ c) (hmost : c ≤ 10 ^ digits)
    (hcount : digitCount c ≠ digits) : digitCount c = digits + 1 := by
  have hten : c = 10 ^ digits := by
    refine le_antisymm hmost ?_
    by_contra hlt
    have heq := digitCount_eq hleast (by rw [Nat.sub_add_cancel hone]; omega)
    omega
  exact digitCount_eq hten.ge (by rw [hten]; exact Nat.pow_lt_pow_right (by decide) (by omega))

/-- The value of a decimal. -/
def decimalValue (d : Decimal) : ℚ := d.digits * (10 : ℚ) ^ (d.point - digitCount d.digits)

/-- The shortest decimal of a positive number is positive and rounds to the number. -/
theorem rounds_shortest {m : Nat} {q : Int} (hm : 0 < m) (hbits : m < Nat.pow 2 53) :
    0 < (shortest m q).digits ∧ Rounds m q (decimalValue (shortest m q)) := by
  have hden : 0 < (ratio m q).2 := shifted_pos one_pos (-q)
  have hpos : (0 : ℚ) < m * unit q := mul_pos (by exact_mod_cast hm) (unit_pos q)
  have hratio := ratio_eq m q
  have hnum : 0 < (ratio m q).1 := by
    refine Nat.pos_of_ne_zero fun h => ?_
    rw [h, Nat.cast_zero, zero_div] at hratio
    exact hpos.ne hratio
  obtain ⟨hlow, hhigh⟩ := decimalPoint_spec hnum hden
  rw [hratio] at hlow hhigh
  have hshortest : shortest m q =
      let grid := firstGrid m q (decimalPoint (ratio m q).1 (ratio m q).2) 16 1
      { digits := grid.1
        point := if digitCount grid.1 = grid.2 then decimalPoint (ratio m q).1 (ratio m q).2
          else decimalPoint (ratio m q).1 (ratio m q).2 + 1 } := rfl
  rw [hshortest, decimalValue]
  generalize decimalPoint (ratio m q).1 (ratio m q).2 = point at *
  have hgrid : (onGrid? m q point (1 + 16)).isSome := by
    refine onGrid?_of_short hm hbits ?_
    refine le_trans (le_of_eq ?_) hlow
    rw [← zpow_natCast (10 : ℚ) 16, ← zpow_add₀ (by norm_num)]
    congr 1
    push_cast
    ring
  obtain ⟨hsome, hone⟩ := firstGrid_spec hgrid
  generalize firstGrid m q point 16 1 = grid at *
  obtain ⟨c, digits⟩ := grid
  obtain ⟨hround, habove, hbelow⟩ := onGrid?_some hsome
  dsimp only at *
  obtain ⟨hleast, hmost⟩ := pow_le_onGrid hone hlow hhigh habove hbelow
  refine ⟨lt_of_lt_of_le (by positivity) hleast, ?_⟩
  split
  · rename_i hcount
    rwa [hcount]
  · rename_i hcount
    rw [digitCount_of_ne hone hleast hmost hcount]
    push_cast
    rwa [add_sub_add_right_eq_sub]

end ConsentBanner.Double
