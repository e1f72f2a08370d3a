import ConsentBanner.Number.Shortest
import Mathlib.Algebra.Order.Field.Power
import Mathlib.Data.Rat.Cast.Order
import Mathlib.Tactic.FieldSimp
import Mathlib.Tactic.Linarith
import Mathlib.Tactic.Ring

/-!
What rounds to a binary number: every quotient in its interval, on whichever grid it is looked for.
-/

namespace ConsentBanner.Double

/-- The power of two of a grid. -/
abbrev unit (q : Int) : ℚ := (2 : ℚ) ^ q

theorem unit_pos (q : Int) : 0 < unit q := zpow_pos (by norm_num) q

theorem unit_add (a b : Int) : unit (a + b) = unit a * unit b := zpow_add₀ (by norm_num) a b

theorem unit_natCast (k : Nat) : unit k = 2 ^ k := zpow_natCast 2 k

theorem unit_le_iff {a b : Int} : unit a ≤ unit b ↔ a ≤ b := zpow_le_zpow_iff_right₀ (by norm_num)

theorem unit_eq_four (q : Int) : unit q = 4 * unit (q - 2) := by
  rw [show q = 2 + (q - 2) by ring, unit_add]
  norm_num [unit]

theorem shifted_pos {num den : Nat} (h : 0 < den) (q : Int) : 0 < (shifted num den q).2 := by
  rw [shifted]
  split
  · exact Nat.mul_pos h (Nat.pow_pos (by decide))
  · exact h

theorem shifted_ratio (num den : Nat) (q : Int) :
    ((shifted num den q).1 : ℚ) / (shifted num den q).2 = num / den / unit q := by
  rw [shifted]
  split
  · rename_i hq
    obtain ⟨k, rfl⟩ := Int.eq_ofNat_of_zero_le hq
    rw [unit_natCast, Int.toNat_natCast, Nat.pow_eq]
    push_cast
    rw [div_div]
  · rename_i hq
    obtain ⟨k, hk⟩ := Int.eq_ofNat_of_zero_le (by omega : 0 ≤ -q)
    obtain rfl : q = -(k : Int) := by omega
    rw [unit, zpow_neg, zpow_natCast, neg_neg, Int.toNat_natCast, Nat.pow_eq]
    push_cast
    rw [div_inv_eq_mul, div_mul_eq_mul_div]

theorem roundHalfEven_eq {num den m : Nat} (hlow : 2 * (m * den) ≤ 2 * num + den)
    (hhigh : 2 * num ≤ 2 * (m * den) + den)
    (heven : 2 * (m * den) = 2 * num + den ∨ 2 * num = 2 * (m * den) + den → m % 2 = 0) (hden : 0 < den) :
    roundHalfEven num den = m := by
  have hdiv := Nat.div_add_mod num den
  have hmod := Nat.mod_lt num hden
  rw [Nat.mul_comm den] at hdiv
  have hm : m = num / den ∨ m = num / den + 1 := by
    have hfloor : num / den ≤ m := by
      by_contra hlt
      have hmul := Nat.mul_le_mul_right den (by omega : m + 1 ≤ num / den)
      rw [Nat.add_mul, Nat.one_mul] at hmul
      omega
    have hceil : m ≤ num / den + 1 := by
      by_contra hlt
      have hmul := Nat.mul_le_mul_right den (by omega : num / den + 2 ≤ m)
      rw [Nat.add_mul] at hmul
      omega
    omega
  rw [roundHalfEven]
  generalize num / den = floor at *
  generalize num % den = rest at *
  obtain rfl | rfl := hm
  · split
    · rfl
    split
    · omega
    · omega
  · rw [Nat.add_mul, Nat.one_mul] at hlow hhigh heven
    split
    · omega
    split
    · rfl
    · omega

theorem unit_log2_le {n : Nat} (h : 0 < n) : unit n.log2 ≤ n := by
  rw [unit_natCast]
  exact_mod_cast Nat.log2_self_le (by omega : n ≠ 0)

theorem lt_unit_log2 (n : Nat) : (n : ℚ) < unit (n.log2 + 1) := by
  have h : ((n.log2 : Int) + 1) = ((n.log2 + 1 : Nat) : Int) := by push_cast; rfl
  rw [h, unit_natCast]
  exact_mod_cast Nat.lt_log2_self

theorem ratio_lt_unit {num den : Nat} (hden : 0 < den) : (num : ℚ) / den < unit ((num.log2 : Int) - den.log2 + 1) := by
  have hden' : (0 : ℚ) < den := by exact_mod_cast hden
  rw [div_lt_iff₀ hden']
  have hsum : (num.log2 : Int) + 1 = ((num.log2 : Int) - den.log2 + 1) + den.log2 := by ring
  calc (num : ℚ) < unit (num.log2 + 1) := lt_unit_log2 num
    _ = unit ((num.log2 : Int) - den.log2 + 1) * unit den.log2 := by rw [hsum, unit_add]
    _ ≤ unit ((num.log2 : Int) - den.log2 + 1) * den :=
      mul_le_mul_of_nonneg_left (unit_log2_le hden) (unit_pos _).le

theorem unit_lt_ratio {num den : Nat} (hnum : 0 < num) (hden : 0 < den) :
    unit ((num.log2 : Int) - den.log2 - 1) < (num : ℚ) / den := by
  have hden' : (0 : ℚ) < den := by exact_mod_cast hden
  rw [lt_div_iff₀ hden']
  have hsum : (num.log2 : Int) = ((num.log2 : Int) - den.log2 - 1) + (den.log2 + 1) := by ring
  calc unit ((num.log2 : Int) - den.log2 - 1) * den
      < unit ((num.log2 : Int) - den.log2 - 1) * unit (den.log2 + 1) :=
      mul_lt_mul_of_pos_left (lt_unit_log2 den) (unit_pos _)
    _ = unit num.log2 := by rw [← unit_add, ← hsum]
    _ ≤ num := unit_log2_le hnum

theorem le_shifted_iff {num den : Nat} (hden : 0 < den) (q : Int) :
    Nat.pow 2 53 ≤ (shifted num den q).1 / (shifted num den q).2 ↔ unit (q + 53) ≤ (num : ℚ) / den := by
  have hpos : 0 < (shifted num den q).2 := shifted_pos hden q
  have hpos' : (0 : ℚ) < (shifted num den q).2 := by exact_mod_cast hpos
  have h53 : unit (q + 53) = ((Nat.pow 2 53 : Nat) : ℚ) * unit q := by
    rw [unit_add, mul_comm]
    norm_num [unit]
  rw [Nat.le_div_iff_mul_le hpos, h53, ← le_div_iff₀ (unit_pos q), ← shifted_ratio, le_div_iff₀ hpos']
  exact_mod_cast Iff.rfl

/-- The grid around a quotient: its numbers there have 53 bits, or it is the finest of all. -/
theorem gridExponent_spec {num den : Nat} (hnum : 0 < num) (hden : 0 < den) :
    minExponent ≤ gridExponent num den ∧ (num : ℚ) / den < unit (gridExponent num den + 53) ∧
      (unit (gridExponent num den + 52) ≤ (num : ℚ) / den ∨ gridExponent num den = minExponent) := by
  have hlow := unit_lt_ratio hnum hden
  have hhigh : (num : ℚ) / den < unit ((num.log2 : Int) - den.log2 + 1) := ratio_lt_unit hden
  have hiff := @le_shifted_iff num den hden (max ((num.log2 : Int) - den.log2 - 53) minExponent)
  rw [gridExponent]
  dsimp only
  generalize hstart : max ((num.log2 : Int) - den.log2 - 53) minExponent = start at *
  have hle : (num.log2 : Int) - den.log2 - 53 ≤ start ∧ minExponent ≤ start := by omega
  split
  · rename_i hbits
    rw [hiff] at hbits
    refine ⟨by omega, ?_, .inl ?_⟩
    · refine hhigh.trans_le (unit_le_iff.2 ?_)
      omega
    · rwa [show start + 1 + 52 = start + 53 by ring]
  · rename_i hbits
    rw [hiff, not_le] at hbits
    refine ⟨hle.2, hbits, ?_⟩
    by_cases hmin : start = minExponent
    · exact .inr hmin
    · have heq : start + 52 = (num.log2 : Int) - den.log2 - 1 := by omega
      rw [heq]
      exact .inl hlow.le

theorem gridExponent_eq {num den : Nat} (hnum : 0 < num) (hden : 0 < den) {q : Int} (hmin : minExponent ≤ q)
    (hhigh : (num : ℚ) / den < unit (q + 53)) (hlow : unit (q + 52) ≤ (num : ℚ) / den ∨ q = minExponent) :
    gridExponent num den = q := by
  obtain ⟨hmin', hhigh', hlow'⟩ := gridExponent_spec hnum hden
  have lt {a b : Int} (h : unit (a + 52) ≤ (num : ℚ) / den) (h' : (num : ℚ) / den < unit (b + 53)) : a ≤ b := by
    have hlt := h.trans_lt h'
    rw [← not_le, unit_le_iff] at hlt
    omega
  generalize gridExponent num den = g at *
  obtain hlow | rfl := hlow
  · have hle := lt hlow hhigh'
    obtain hlow' | rfl := hlow'
    · have hge := lt hlow' hhigh
      omega
    · omega
  · obtain hlow' | rfl := hlow'
    · have hge := lt hlow' hhigh
      omega
    · rfl

/-- A value in the interval of a number; its ends belong to an even mantissa. -/
def Rounds (m : Nat) (q : Int) (y : ℚ) : Prop :=
  if m % 2 = 0 then
    (roundingInterval m q).1 * unit (q - 2) ≤ y ∧ y ≤ (roundingInterval m q).2 * unit (q - 2)
  else (roundingInterval m q).1 * unit (q - 2) < y ∧ y < (roundingInterval m q).2 * unit (q - 2)

namespace Rounds

variable {m : Nat} {q : Int} {y : ℚ}

theorem between (h : Rounds m q y) :
    (roundingInterval m q).1 * unit (q - 2) ≤ y ∧ y ≤ (roundingInterval m q).2 * unit (q - 2) := by
  rw [Rounds] at h
  split at h
  · exact h
  · exact ⟨h.1.le, h.2.le⟩

theorem even_of_eq (h : Rounds m q y)
    (he : y = (roundingInterval m q).1 * unit (q - 2) ∨ y = (roundingInterval m q).2 * unit (q - 2)) : m % 2 = 0 := by
  rw [Rounds] at h
  split at h
  · assumption
  · obtain he | he := he
    · exact absurd h.1 (by rw [he]; exact lt_irrefl _)
    · exact absurd h.2 (by rw [he]; exact lt_irrefl _)

end Rounds

theorem roundHalfEven_of_ratio {num den m : Nat} {t : ℚ} (hden : 0 < den) (ht : (num : ℚ) / den = t)
    (hlow : m - 1 / 2 ≤ t) (hhigh : t ≤ m + 1 / 2) (heven : t = m - 1 / 2 ∨ t = m + 1 / 2 → m % 2 = 0) :
    roundHalfEven num den = m := by
  have hden' : (0 : ℚ) < den := by exact_mod_cast hden
  have hnum : (num : ℚ) = t * den := (div_eq_iff hden'.ne').1 ht
  have hbelow : (2 * (m * den) : ℚ) ≤ 2 * num + den := by
    rw [hnum]
    nlinarith [mul_le_mul_of_nonneg_right hlow hden'.le]
  have habove : (2 * num : ℚ) ≤ 2 * (m * den) + den := by
    rw [hnum]
    nlinarith [mul_le_mul_of_nonneg_right hhigh hden'.le]
  refine roundHalfEven_eq (by exact_mod_cast hbelow) (by exact_mod_cast habove) (fun h => heven ?_) hden
  obtain h | h := h
  · left
    have hq : (2 * (m * den) : ℚ) = 2 * num + den := by exact_mod_cast h
    rw [hnum] at hq
    have hcancel : (t - (m - 1 / 2)) * den = 0 := by linarith
    exact sub_eq_zero.1 ((mul_eq_zero.1 hcancel).resolve_right hden'.ne')
  · right
    have hq : (2 * num : ℚ) = 2 * (m * den) + den := by exact_mod_cast h
    rw [hnum] at hq
    have hcancel : (t - (m + 1 / 2)) * den = 0 := by linarith
    exact sub_eq_zero.1 ((mul_eq_zero.1 hcancel).resolve_right hden'.ne')

theorem roundingInterval_fst {m : Nat} {q : Int} (hm : 0 < m) : (4 * m - 2 : ℚ) ≤ (roundingInterval m q).1 := by
  have hle : 4 * m - 2 ≤ (roundingInterval m q).1 := by
    rw [roundingInterval]
    dsimp only
    split
    · omega
    · omega
  have hcast : ((4 * m - 2 : Nat) : ℚ) = 4 * m - 2 := by
    rw [Nat.cast_sub (by omega)]
    push_cast
    ring
  rw [← hcast]
  exact_mod_cast hle

theorem roundingInterval_snd (m : Nat) (q : Int) : ((roundingInterval m q).2 : ℚ) = 4 * m + 2 := by
  rw [roundingInterval]
  push_cast
  ring

/-- On its own grid a number is the nearest to every value in its interval. -/
theorem Rounds.roundHalfEven {num den m : Nat} {q : Int} (hden : 0 < den) (hm : 0 < m)
    (h : Rounds m q ((num : ℚ) / den)) : roundHalfEven (shifted num den q).1 (shifted num den q).2 = m := by
  have hu := unit_pos (q - 2)
  have hq := unit_eq_four q
  obtain ⟨hlow, hhigh⟩ := h.between
  have heven := h.even_of_eq
  have hfst := roundingInterval_fst hm (q := q)
  rw [roundingInterval_snd] at hhigh heven
  have hratio := shifted_ratio num den q
  generalize (num : ℚ) / den = y at *
  have hy : y = y / unit q * (4 * unit (q - 2)) := by
    rw [← hq, div_mul_cancel₀ _ (unit_pos q).ne']
  generalize y / unit q = t at *
  generalize unit (q - 2) = u at *
  generalize ((roundingInterval m q).1 : ℚ) = low at *
  have hbelow : (4 * m - 2) * u ≤ t * (4 * u) := by
    rw [← hy]
    exact (mul_le_mul_of_nonneg_right hfst hu.le).trans hlow
  have hlow' : m - 1 / 2 ≤ t := by
    by_contra hlt
    nlinarith
  have hhigh' : t ≤ m + 1 / 2 := by
    by_contra hlt
    nlinarith
  refine roundHalfEven_of_ratio (shifted_pos hden q) hratio hlow' hhigh' fun he => heven ?_
  obtain rfl | rfl := he
  · left
    refine le_antisymm ?_ hlow
    rw [hy]
    nlinarith
  · right
    rw [hy]
    ring

/-- Below the numbers of 53 bits on its grid there is only the interval of the least of them, whose lower quarter is
rounded on the next finer grid. -/
theorem Rounds.below {m : Nat} {q : Int} {y : ℚ} (h : Rounds m q y) (hm : Nat.pow 2 52 ≤ m) (hmin : minExponent < q)
    (hy : y < unit (q + 52)) : m = Nat.pow 2 52 ∧ (Nat.pow 2 54 - 1 : ℚ) * unit (q - 2) ≤ y := by
  have hu := unit_pos (q - 2)
  have hq : unit (q + 52) = (Nat.pow 2 54 : Nat) * unit (q - 2) := by
    rw [show q + 52 = 54 + (q - 2) by ring, unit_add]
    norm_num [unit]
  obtain ⟨hlow, -⟩ := h.between
  have hpos : 0 < m := lt_of_lt_of_le (by decide) hm
  have hfst := roundingInterval_fst hpos (q := q)
  have hle : (m : ℚ) ≤ (Nat.pow 2 52 : Nat) := by
    have hlt : (4 * m - 2 : ℚ) * unit (q - 2) < (Nat.pow 2 54 : Nat) * unit (q - 2) := by
      rw [← hq]
      exact ((mul_le_mul_of_nonneg_right hfst hu.le).trans hlow).trans_lt hy
    have hcancel := lt_of_mul_lt_mul_right hlt hu.le
    have hnat : 4 * m < Nat.pow 2 54 + 2 := by
      have hcast : (4 * m : ℚ) < (Nat.pow 2 54 : Nat) + 2 := by linarith
      exact_mod_cast hcast
    have hpow : Nat.pow 2 54 = 4 * Nat.pow 2 52 := by decide
    exact_mod_cast (by omega : m ≤ Nat.pow 2 52)
  have heq : m = Nat.pow 2 52 := le_antisymm (by exact_mod_cast hle) hm
  refine ⟨heq, ?_⟩
  have hinterval : (roundingInterval m q).1 = Nat.pow 2 54 - 1 := by
    rw [roundingInterval, heq]
    dsimp only
    rw [if_pos ⟨rfl, hmin⟩]
  rw [hinterval] at hlow
  have hcast : ((Nat.pow 2 54 - 1 : Nat) : ℚ) = Nat.pow 2 54 - 1 := by norm_num
  rwa [hcast] at hlow

/-- A value just below the numbers of 53 bits on a grid is rounded up to the least of them. -/
theorem roundHalfEven_finer {num den : Nat} {q : Int} (hden : 0 < den)
    (hlow : (Nat.pow 2 54 - 1 : ℚ) * unit (q - 2) ≤ (num : ℚ) / den) (hhigh : (num : ℚ) / den < unit (q + 52)) :
    roundHalfEven (shifted num den (q - 1)).1 (shifted num den (q - 1)).2 = Nat.pow 2 53 := by
  have hu := unit_pos (q - 2)
  have hfine : unit (q - 1) = 2 * unit (q - 2) := by
    rw [show q - 1 = 1 + (q - 2) by ring, unit_add]
    norm_num [unit]
  have hq : unit (q + 52) = Nat.pow 2 54 * unit (q - 2) := by
    rw [show q + 52 = 54 + (q - 2) by ring, unit_add]
    norm_num [unit]
  have hcast : ((Nat.pow 2 53 : Nat) : ℚ) = Nat.pow 2 53 := by norm_num
  have hpow : (Nat.pow 2 54 : ℚ) = 2 * Nat.pow 2 53 := by norm_num
  refine roundHalfEven_of_ratio (shifted_pos hden (q - 1)) (shifted_ratio num den (q - 1)) ?_ ?_ fun _ => rfl
  · rw [hcast, hfine, le_div_iff₀ (by linarith)]
    calc (Nat.pow 2 53 - 1 / 2 : ℚ) * (2 * unit (q - 2)) = (Nat.pow 2 54 - 1) * unit (q - 2) := by
          rw [hpow]
          ring
      _ ≤ num / den := hlow
  · rw [hcast, hfine, div_le_iff₀ (by linarith)]
    calc (num : ℚ) / den ≤ Nat.pow 2 54 * unit (q - 2) := by
          rw [← hq]
          exact hhigh.le
      _ ≤ (Nat.pow 2 53 + 1 / 2 : ℚ) * (2 * unit (q - 2)) := by
          rw [hpow]
          linarith

/-- No value in the interval of a number lies beyond its grid. -/
theorem Rounds.lt_unit {m : Nat} {q : Int} {y : ℚ} (h : Rounds m q y) (hm : m < Nat.pow 2 53) : y < unit (q + 53) := by
  have hu := unit_pos (q - 2)
  have hq : unit (q + 53) = (Nat.pow 2 55 : Nat) * unit (q - 2) := by
    rw [show q + 53 = 55 + (q - 2) by ring, unit_add]
    norm_num [unit]
  have hlt : ((4 * m + 2 : Nat) : ℚ) < (Nat.pow 2 55 : Nat) := by
    have hpow : Nat.pow 2 55 = 4 * Nat.pow 2 53 := by decide
    exact_mod_cast (by omega : 4 * m + 2 < Nat.pow 2 55)
  calc y ≤ (4 * m + 2 : Nat) * unit (q - 2) := h.between.2
    _ < unit (q + 53) := by
      rw [hq]
      exact mul_lt_mul_of_pos_right hlt hu

/-- Every value in the interval of a number is rounded to it. -/
theorem ofRatio_eq {negative : Bool} {num den m : Nat} {q : Int} (hnum : 0 < num) (hden : 0 < den) (hm : 0 < m)
    (hnormal : (finite negative m q).Normal) (h : Rounds m q ((num : ℚ) / den)) :
    ofRatio negative num den = finite negative m q := by
  obtain ⟨hbits, hmin, hmax, hfull⟩ := hnormal
  rw [ofRatio, if_neg hnum.ne']
  by_cases hgrid : unit (q + 52) ≤ (num : ℚ) / den ∨ q = minExponent
  · -- The grid of the value is that of the number.
    rw [gridExponent_eq hnum hden hmin (h.lt_unit hbits) hgrid]
    dsimp only
    rw [h.roundHalfEven hden hm, if_neg hbits.ne]
    dsimp only
    rw [if_neg (by omega)]
  · -- The value lies below the least number of 53 bits, and is rounded up to it on the next finer grid.
    rw [not_or, not_le] at hgrid
    obtain ⟨hbelow, hne⟩ := hgrid
    obtain ⟨rfl, hlow⟩ := h.below (hfull.resolve_right hne) (by omega) hbelow
    have hgrid : gridExponent num den = q - 1 := by
      refine gridExponent_eq hnum hden (by omega) ?_ (.inl ?_)
      · rwa [show q - 1 + 53 = q + 52 by ring]
      · have hu := unit_pos (q - 2)
        have hq : unit (q - 1 + 52) = Nat.pow 2 53 * unit (q - 2) := by
          rw [show q - 1 + 52 = 53 + (q - 2) by ring, unit_add]
          norm_num [unit]
        rw [hq]
        have hle : (Nat.pow 2 53 : ℚ) ≤ Nat.pow 2 54 - 1 := by norm_num
        exact (mul_le_mul_of_nonneg_right hle hu.le).trans hlow
    rw [hgrid]
    dsimp only
    rw [roundHalfEven_finer hden hlow hbelow, if_pos rfl]
    dsimp only
    rw [if_neg (by omega), show q - 1 + 1 = q by ring]

end ConsentBanner.Double
