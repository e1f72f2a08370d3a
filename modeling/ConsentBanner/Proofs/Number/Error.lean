import ConsentBanner.Proofs.Number.Rounding

/-!
How far a binary number is from what it was rounded from, and so from what was computed exactly.
-/

namespace ConsentBanner.Double

theorem roundHalfEven_error {num den : Nat} (hden : 0 < den) :
    |(roundHalfEven num den : ℚ) - num / den| ≤ 1 / 2 := by
  have hdiv := Nat.div_add_mod num den
  have hmod := Nat.mod_lt num hden
  have hden' : (0 : ℚ) < den := by exact_mod_cast hden
  have hnear : 2 * (roundHalfEven num den * den) ≤ 2 * num + den ∧
      2 * num ≤ 2 * (roundHalfEven num den * den) + den := by
    rw [roundHalfEven]
    rw [Nat.mul_comm den] at hdiv
    generalize num / den = floor at *
    generalize num % den = rest at *
    have hparity : floor % 2 = 0 ∨ floor % 2 = 1 := Nat.mod_two_eq_zero_or_one floor
    split
    · omega
    · split
      · rw [Nat.add_mul]
        omega
      · obtain heven | hodd := hparity
        · rw [heven, Nat.add_zero]
          omega
        · rw [hodd, Nat.add_mul]
          omega
  generalize roundHalfEven num den = r at *
  have hlow : (2 * (r * den) : ℚ) ≤ 2 * num + den := by exact_mod_cast hnear.1
  have hhigh : (2 * num : ℚ) ≤ 2 * (r * den) + den := by exact_mod_cast hnear.2
  have hratio : (num : ℚ) = num / den * den := (div_mul_cancel₀ _ hden'.ne').symm
  generalize (num : ℚ) / den = y at *
  rw [hratio] at hlow hhigh
  rw [abs_le]
  constructor
  · by_contra hlt
    nlinarith
  · by_contra hlt
    nlinarith

/-- Half a step of the grid is small beside a number that fills the grid, or it is half a step of the least grid. -/
theorem half_unit_le {y : ℚ} {q : Int} (hy : 0 ≤ y) (hfull : unit (q + 52) ≤ y ∨ q = minExponent) :
    unit q * (1 / 2) ≤ y * unit (-53) + unit (-1075) := by
  obtain hfull | rfl := hfull
  · have hhalf : unit q * (1 / 2) = unit (q + 52) * unit (-53) := by
      rw [← unit_add, show q + 52 + -53 = q + -1 by ring, unit_add]
      norm_num [unit]
    have hscaled := mul_le_mul_of_nonneg_right hfull (unit_pos (-53)).le
    have hleast := unit_pos (-1075)
    linarith
  · have hleast : unit minExponent * (1 / 2) = unit (-1075) := by
      rw [show (-1075 : Int) = minExponent + -1 by decide, unit_add]
      norm_num [unit]
    have hscaled := mul_nonneg hy (unit_pos (-53)).le
    linarith

/-- On a grid that suits the quotient, the nearest point is off by at most half a step. -/
theorem roundHalfEven_shifted {num den : Nat} {q : Int} (hden : 0 < den)
    (hfull : unit (q + 52) ≤ (num : ℚ) / den ∨ q = minExponent) :
    |(roundHalfEven (shifted num den q).1 (shifted num den q).2 : ℚ) * unit q - (num : ℚ) / den| ≤
      num / den * unit (-53) + unit (-1075) := by
  have hpos : 0 < (shifted num den q).2 := shifted_pos hden q
  have herror := @roundHalfEven_error (shifted num den q).1 _ hpos
  have hratio : 0 ≤ (num : ℚ) / den := div_nonneg (Nat.cast_nonneg _) (Nat.cast_nonneg _)
  rw [shifted_ratio] at herror
  generalize (num : ℚ) / den = y at *
  generalize roundHalfEven (shifted num den q).1 (shifted num den q).2 = r at *
  have hu := unit_pos q
  calc |(r : ℚ) * unit q - y| = |(r : ℚ) - y / unit q| * unit q := by
        rw [← abs_of_pos hu, ← abs_mul, abs_of_pos hu, sub_mul, div_mul_cancel₀ _ hu.ne']
    _ ≤ unit q * (1 / 2) := by
        rw [mul_comm]
        exact mul_le_mul_of_nonneg_left herror hu.le
    _ ≤ y * unit (-53) + unit (-1075) := half_unit_le hratio hfull

/-- A quotient within the range is rounded to a number that is off by at most one part in two to the 53rd, or by half the
least grid. -/
theorem ofRatio_error {num den : Nat} (negative : Bool) (hden : 0 < den) (hhigh : (num : ℚ) / den < unit 1000) :
    ∃ m q, ofRatio negative num den = finite negative m q ∧ minExponent ≤ q ∧
      |m * unit q - (num : ℚ) / den| ≤ num / den * unit (-53) + unit (-1075) := by
  obtain rfl | hnum := Nat.eq_zero_or_pos num
  · refine ⟨0, minExponent, by rw [ofRatio, if_pos rfl], le_rfl, ?_⟩
    rw [Nat.cast_zero, zero_mul, zero_div, sub_zero, abs_zero, zero_mul, zero_add]
    exact (unit_pos _).le
  obtain ⟨hmin, -, hfull⟩ := gridExponent_spec hnum hden
  have hnear := roundHalfEven_shifted hden hfull
  rw [ofRatio, if_neg hnum.ne']
  generalize (num : ℚ) / den = y at *
  generalize gridExponent num den = q at *
  have hq : q < 960 := by
    obtain hfull | rfl := hfull
    · have hlt := hfull.trans_lt hhigh
      rw [← not_le, unit_le_iff, not_le] at hlt
      omega
    · decide
  dsimp only
  generalize roundHalfEven (shifted num den q).1 (shifted num den q).2 = r at *
  rw [maxExponent]
  split
  · -- A mantissa of one bit too many is halved on the next coarser grid.
    rename_i hr
    refine ⟨Nat.pow 2 52, q + 1, if_neg (by omega), by omega, ?_⟩
    have hsame : ((Nat.pow 2 52 : Nat) : ℚ) * unit (q + 1) = r * unit q := by
      rw [hr, unit_add]
      norm_num [unit]
      ring
    rwa [hsame]
  · exact ⟨r, q, if_neg (by omega), hmin, hnear⟩

/-- The integer part is the last integer before the number, counted away from zero. -/
theorem truncate?_spec (negative : Bool) (m : Nat) (q : Int) :
    ∃ n : Nat, (finite negative m q).truncate? = some (if negative then -(n : Int) else n) ∧
      (n : ℚ) ≤ m * unit q ∧ m * unit q < n + 1 := by
  by_cases hq : 0 ≤ q
  · obtain ⟨k, rfl⟩ := Int.eq_ofNat_of_zero_le hq
    simp only [truncate?, if_pos hq]
    refine ⟨_, rfl, ?_, ?_⟩
    · rw [unit_natCast, Int.toNat_natCast, Nat.pow_eq]
      push_cast
      exact le_rfl
    · rw [unit_natCast, Int.toNat_natCast, Nat.pow_eq]
      push_cast
      exact lt_add_one _
  · obtain ⟨k, hk⟩ := Int.eq_ofNat_of_zero_le (by omega : 0 ≤ -q)
    obtain rfl : q = -(k : Int) := by omega
    have hpow : (0 : ℚ) < 2 ^ k := by positivity
    simp only [truncate?, if_neg hq]
    refine ⟨_, rfl, ?_, ?_⟩
    · rw [neg_neg, Int.toNat_natCast, Nat.pow_eq, unit, zpow_neg, zpow_natCast, ← div_eq_mul_inv, le_div_iff₀ hpow]
      exact_mod_cast Nat.div_mul_le_self m (2 ^ k)
    · rw [neg_neg, Int.toNat_natCast, Nat.pow_eq, unit, zpow_neg, zpow_natCast, ← div_eq_mul_inv, div_lt_iff₀ hpow]
      exact_mod_cast Nat.lt_mul_of_div_lt (Nat.lt_succ_self _) (Nat.two_pow_pos k)

/-- The value of a sign. -/
def sign (negative : Bool) : ℚ := if negative then -1 else 1

theorem abs_sign (negative : Bool) : |sign negative| = 1 := by
  cases negative with
  | false => exact abs_one
  | true => exact (abs_neg 1).trans abs_one

theorem sign_mul_natAbs (n : Int) : sign (n < 0) * n.natAbs = n := by
  rw [Nat.cast_natAbs, Int.cast_abs, sign]
  split
  · rename_i h
    rw [abs_of_neg (by exact_mod_cast of_decide_eq_true h), neg_one_mul, neg_neg]
  · rename_i h
    rw [abs_of_nonneg (by exact_mod_cast not_lt.1 fun hn => h (decide_eq_true hn)), one_mul]

theorem scaled_eq (negative : Bool) (m : Nat) {q : Int} (hq : minExponent ≤ q) :
    (scaled negative m q : ℚ) / (Nat.pow 2 (-minExponent).toNat : Nat) = sign negative * (m * unit q) := by
  obtain ⟨k, hk⟩ := Int.eq_ofNat_of_zero_le (by omega : 0 ≤ q - minExponent)
  have hunit : unit q = 2 ^ k / 2 ^ (-minExponent).toNat := by
    rw [← unit_natCast, ← unit_natCast, ← zpow_sub₀ (by norm_num), ← hk, Int.toNat_of_nonneg (by decide)]
    congr 1
    ring
  rw [scaled, hk, Int.toNat_natCast, Nat.pow_eq, Nat.pow_eq, hunit, sign]
  cases negative with
  | false =>
    rw [if_neg (by simp), if_neg (by simp)]
    push_cast
    ring
  | true =>
    rw [if_pos rfl, if_pos rfl]
    push_cast
    ring

/-- A finite number, on a grid that there is, whose value is at most so far from a given one. -/
inductive Near (y error : ℚ) : Double → Prop where
  | intro {negative : Bool} {m : Nat} {q : Int} (hq : minExponent ≤ q)
      (h : |sign negative * (m * unit q) - y| ≤ error) : Near y error (finite negative m q)

namespace Near

variable {x w : Double} {y z error error' : ℚ}

theorem mono (h : Near y error x) (hle : error ≤ error') : Near y error' x := by
  cases h with
  | intro hq h => exact .intro hq (h.trans hle)

theorem ofRatio {negative : Bool} {num den : Nat} (hden : 0 < den) (hy : sign negative * ((num : ℚ) / den) = y)
    (hhigh : |y| < unit 1000) : Near y (|y| * unit (-53) + unit (-1075)) (ofRatio negative num den) := by
  have hratio : 0 ≤ (num : ℚ) / den := div_nonneg (Nat.cast_nonneg _) (Nat.cast_nonneg _)
  have habs : |y| = (num : ℚ) / den := by rw [← hy, abs_mul, abs_sign, one_mul, abs_of_nonneg hratio]
  rw [habs] at hhigh ⊢
  obtain ⟨m, q, hx, hq, herror⟩ := ofRatio_error negative hden hhigh
  rw [hx]
  refine .intro hq ?_
  rwa [← hy, ← mul_sub, abs_mul, abs_sign, one_mul]

/-- What is rounded from a number that is itself not exact. -/
theorem shift {bound : ℚ} (hx : Near z (|z| * unit (-53) + unit (-1075)) x) (hexact : |z - y| ≤ error)
    (hsize : |z| ≤ bound) : Near y (error + (bound * unit (-53) + unit (-1075))) x := by
  cases hx with | @intro a m q hq hx =>
  refine .intro hq ((abs_sub_le _ z _).trans ?_)
  have hrounding := mul_le_mul_of_nonneg_right hsize (unit_pos (-53)).le
  linarith

theorem ofIntRatio (n : Int) {den : Nat} (hden : 0 < den) (hhigh : |(n : ℚ) / den| < unit 1000) :
    Near (n / den) (|(n : ℚ) / den| * unit (-53) + unit (-1075)) (ofIntRatio n den) := by
  refine ofRatio hden ?_ hhigh
  rw [← mul_div_assoc, sign_mul_natAbs]

/-- A sum is off by what its parts are off, and by its own rounding. -/
theorem add (hx : Near y error x) (hw : Near z error' w) {bound : ℚ}
    (hbound : |y| + error + (|z| + error') ≤ bound) (hhigh : bound < unit 1000) :
    Near (y + z) (error + error' + (bound * unit (-53) + unit (-1075))) (x.add w) := by
  cases hx with | @intro a m q hq hx =>
  cases hw with | @intro b n r hr hw =>
  have hsum : ((scaled a m q + scaled b n r : Int) : ℚ) / (Nat.pow 2 (-minExponent).toNat : Nat) =
      sign a * (m * unit q) + sign b * (n * unit r) := by
    rw [Int.cast_add, add_div, scaled_eq a m hq, scaled_eq b n hr]
  generalize sign a * (m * unit q) = u at *
  generalize sign b * (n * unit r) = v at *
  have hexact : |u + v - (y + z)| ≤ error + error' := by
    rw [add_sub_add_comm]
    exact (abs_add_le _ _).trans (add_le_add hx hw)
  have hsize : |u + v| ≤ bound := by
    have hu := abs_sub_abs_le_abs_sub u y
    have hv := abs_sub_abs_le_abs_sub v z
    have huv := abs_add_le u v
    linarith
  have hrounded : Near (u + v) (|u + v| * unit (-53) + unit (-1075)) ((finite a m q).add (finite b n r)) := by
    rw [Double.add]
    split
    · rename_i hzero
      rw [hzero, Int.cast_zero, zero_div] at hsum
      refine .intro le_rfl ?_
      rw [← hsum, Nat.cast_zero, zero_mul, mul_zero, sub_zero, abs_zero, zero_mul, zero_add]
      exact (unit_pos _).le
    · rw [← hsum] at hsize ⊢
      have hden (k : Nat) : 0 < Nat.pow 2 k := Nat.two_pow_pos k
      exact .ofIntRatio _ (hden _) (hsize.trans_lt hhigh)
  exact hrounded.shift hexact hsize

/-- A product with an exact number is off by as many times as much, and by its own rounding. -/
theorem mul_exact (hx : Near y error x) {n : Nat} {r : Int} {factor : ℚ} (hfactor : (n : ℚ) * unit r = factor)
    {bound : ℚ} (hbound : (|y| + error) * factor ≤ bound) (hhigh : bound < unit 1000) :
    Near (y * factor) (error * factor + (bound * unit (-53) + unit (-1075))) (x.mul (finite false n r)) := by
  cases hx with | @intro a m q hq hx =>
  have hnonneg : 0 ≤ factor := by
    rw [← hfactor]
    exact mul_nonneg (Nat.cast_nonneg _) (unit_pos r).le
  have hproduct : sign (a != false) * (((shifted (m * n) 1 (-(q + r))).1 : ℚ) / (shifted (m * n) 1 (-(q + r))).2) =
      sign a * (m * unit q) * factor := by
    rw [shifted_ratio, unit, zpow_neg, div_inv_eq_mul, ← unit, unit_add, ← hfactor, Bool.bne_false]
    push_cast
    ring
  generalize sign a * (m * unit q) = u at *
  have hexact : |u * factor - y * factor| ≤ error * factor := by
    rw [← sub_mul, abs_mul, abs_of_nonneg hnonneg]
    exact mul_le_mul_of_nonneg_right hx hnonneg
  have hsize : |u * factor| ≤ bound := by
    have hu := abs_sub_abs_le_abs_sub u y
    rw [abs_mul, abs_of_nonneg hnonneg]
    exact (mul_le_mul_of_nonneg_right (by linarith) hnonneg).trans hbound
  have hrounded : Near (u * factor) (|u * factor| * unit (-53) + unit (-1075)) ((finite a m q).mul (finite false n r)) :=
    .ofRatio (shifted_pos one_pos _) hproduct (hsize.trans_lt hhigh)
  exact hrounded.shift hexact hsize

/-- Whole thousandths, cut off, of what is near to a number of thousandths. -/
theorem truncate? (hx : Near y error x) {n : Int} (hn : 1000 * y = n) (herror : error ≤ 1 / 4) :
    ∃ k, x.truncate? = some k ∧ (k - n.tdiv 1000).natAbs ≤ 1 := by
  cases hx with | @intro a m q hq hx =>
  obtain ⟨k, htruncate, hle, hlt⟩ := truncate?_spec a m q
  obtain ⟨hlow, hhigh⟩ := abs_le.1 (hx.trans herror)
  generalize (m : ℚ) * unit q = v at *
  refine ⟨_, htruncate, ?_⟩
  cases a with
  | false =>
    rw [sign, if_neg (by simp), one_mul] at hlow hhigh
    have hbelow : (1000 * k : ℚ) ≤ n + 250 := by linarith
    have habove : (n : ℚ) < 1000 * k + 1250 := by linarith
    norm_cast at hbelow habove
    rw [if_neg (by simp), Int.tdiv_eq_ediv, (by decide : Int.sign 1000 = 1)]
    split
    · omega
    · omega
  | true =>
    rw [sign, if_pos rfl, neg_one_mul] at hlow hhigh
    have hbelow : (1000 * k : ℚ) ≤ -n + 250 := by linarith
    have habove : -(n : ℚ) < 1000 * k + 1250 := by linarith
    norm_cast at hbelow habove
    rw [if_pos rfl, Int.tdiv_eq_ediv, (by decide : Int.sign 1000 = 1)]
    split
    · omega
    · omega

end Near

end ConsentBanner.Double
