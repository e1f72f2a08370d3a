/-!
Binary floating point numbers of 53 bits, in exact arithmetic. A finite number is a mantissa times a
power of two in the one normal form that rounding produces, so equal numbers of one sign are equal values.
-/

namespace ConsentBanner

/-- A binary64 number. -/
inductive Double where
  | nan
  | infinite (negative : Bool)
  | finite (negative : Bool) (mantissa : Nat) (exponent : Int)
deriving DecidableEq, Repr, Inhabited

namespace Double

/-- The least exponent, that of the subnormal numbers. -/
def minExponent : Int := -1074

/-- The greatest exponent of a finite number. -/
def maxExponent : Int := 971

/-- The normal form: a mantissa of exactly 53 bits, or a shorter one at the least exponent. -/
def Normal : Double → Prop
  | finite _ m q =>
    m < Nat.pow 2 53 ∧ minExponent ≤ q ∧ q ≤ maxExponent ∧ (Nat.pow 2 52 ≤ m ∨ q = minExponent)
  | _ => True

def zero : Double := finite false 0 minExponent

/-- The nearest integer to `num / den`, a half going to the even neighbour. -/
def roundHalfEven (num den : Nat) : Nat :=
  let floor := num / den
  let twice := 2 * (num % den)
  if twice < den then floor
  else if den < twice then floor + 1
  else floor + floor % 2

/-- Numerator and denominator of `num / den` divided by a power of two. -/
def shifted (num den : Nat) (q : Int) : Nat × Nat :=
  if 0 ≤ q then (num, den * Nat.pow 2 q.toNat) else (num * Nat.pow 2 (-q).toNat, den)

/-- The exponent of the binary64 grid around a positive quotient. -/
def gridExponent (num den : Nat) : Int :=
  let start := max ((num.log2 : Int) - den.log2 - 53) minExponent
  let (n, d) := shifted num den start
  if Nat.pow 2 53 ≤ n / d then start + 1 else start

/-- The nearest number to `num / den`, a tie going to the even mantissa. -/
def ofRatio (negative : Bool) (num den : Nat) : Double :=
  if num = 0 then finite negative 0 minExponent
  else
    let q := gridExponent num den
    let (n, d) := shifted num den q
    let m := roundHalfEven n d
    let (m, q) := if m = Nat.pow 2 53 then (Nat.pow 2 52, q + 1) else (m, q)
    if maxExponent < q then infinite negative else finite negative m q

/-- The nearest number to `digits · 10 ^ exponent`. Exponents far outside the range are cut short. -/
def ofDecimal (negative : Bool) (digits : Nat) (exponent : Int) : Double :=
  if digits = 0 then finite negative 0 minExponent
  else if 400 < exponent then infinite negative
  else if exponent < -(400 + (digits.log2 : Int)) then finite negative 0 minExponent
  else if 0 ≤ exponent then ofRatio negative (digits * Nat.pow 10 exponent.toNat) 1
  else ofRatio negative digits (Nat.pow 10 (-exponent).toNat)

/-- The nearest number to an integer, infinite beyond the range. -/
def ofInt (n : Int) : Double := ofRatio (n < 0) n.natAbs 1

/-- The nearest number to a quotient of integers with a positive denominator. -/
def ofIntRatio (n : Int) (den : Nat) : Double := ofRatio (n < 0) n.natAbs den

def isFinite : Double → Bool
  | finite .. => true
  | _ => false

def isNaN : Double → Bool
  | nan => true
  | _ => false

/-- Both zeros. -/
def isZero : Double → Bool
  | finite _ 0 _ => true
  | _ => false

/-- A finite number times `2 ^ 1074`, which is an integer. -/
def scaled (negative : Bool) (m : Nat) (q : Int) : Int :=
  let magnitude : Int := (m * Nat.pow 2 (q - minExponent).toNat : Nat)
  if negative then -magnitude else magnitude

/-- The order of numbers; none beside a NaN. Both zeros are equal. -/
def compare? : Double → Double → Option Ordering
  | nan, _ => none
  | _, nan => none
  | infinite a, infinite b => some (if a == b then .eq else if a then .lt else .gt)
  | infinite a, finite .. => some (if a then .lt else .gt)
  | finite .., infinite b => some (if b then .gt else .lt)
  | finite a m q, finite b n r => some (compare (scaled a m q) (scaled b n r))

/-- The order of a number and an integer, without rounding the integer. -/
def compareInt? : Double → Int → Option Ordering
  | nan, _ => none
  | infinite a, _ => some (if a then .lt else .gt)
  | finite a m q, n => some (compare (scaled a m q) (n * (Nat.pow 2 (-minExponent).toNat : Int)))

def neg : Double → Double
  | nan => nan
  | infinite a => infinite !a
  | finite a m q => finite (!a) m q

/-- The integer part, towards zero; none of infinities and NaN. -/
def truncate? : Double → Option Int
  | finite a m q =>
    let magnitude : Nat := if 0 ≤ q then m * Nat.pow 2 q.toNat else m / Nat.pow 2 (-q).toNat
    some (if a then -(magnitude : Int) else magnitude)
  | _ => none

/-- The greatest integer that is not above the number; none of infinities and NaN. -/
def floor? : Double → Option Int
  | finite a m q =>
    let (num, den) := shifted m 1 (-q)
    let magnitude : Int := num
    some ((if a then -magnitude else magnitude) / den)
  | _ => none

/-- The part after the point, without its sign. -/
def fraction : Double → Double
  | finite _ m q =>
    let (num, den) := shifted m 1 (-q)
    ofRatio false (num % den) den
  | _ => zero

/-- Whether the number is a finite integer. -/
def isIntegral (x : Double) : Bool :=
  match x.truncate? with
  | some n => x.compareInt? n == some .eq
  | none => false

/-- The exact sum rounded once. Only two negative zeros have a negative zero for their sum. -/
def add : Double → Double → Double
  | finite a m q, finite b n r =>
    let sum := scaled a m q + scaled b n r
    if sum = 0 then finite (a && b) 0 minExponent
    else ofIntRatio sum (Nat.pow 2 (-minExponent).toNat)
  | nan, _ => nan
  | _, nan => nan
  | infinite a, infinite b => if a = b then infinite a else nan
  | infinite a, finite .. => infinite a
  | finite .., infinite b => infinite b

/-- The number divided by an integer, rounded once. -/
def divNat : Double → Nat → Double
  | finite a m q, den =>
    let (num, den') := shifted m 1 (-q)
    ofRatio a num (den' * den)
  | x, _ => x

/-- The exact product rounded once. -/
def mul : Double → Double → Double
  | finite a m q, finite b n r =>
    let (num, den) := shifted (m * n) 1 (-(q + r))
    ofRatio (a != b) num den
  | nan, _ => nan
  | _, nan => nan
  | infinite a, infinite b => infinite (a != b)
  | infinite a, finite b n _ => if n = 0 then nan else infinite (a != b)
  | finite a m _, infinite b => if m = 0 then nan else infinite (a != b)

/-- The nearest integer, a half going to the even neighbour. -/
def round? : Double → Option Int
  | finite a m q =>
    let (num, den) := shifted m 1 (-q)
    let magnitude := roundHalfEven num den
    some (if a then -(magnitude : Int) else magnitude)
  | _ => none

/-- The nearest integer, a half going away from zero. -/
def roundHalfAway? : Double → Option Int
  | finite a m q =>
    let (num, den) := shifted m 1 (-q)
    let magnitude : Nat := (2 * num + den) / (2 * den)
    some (if a then -(magnitude : Int) else magnitude)
  | _ => none

end Double

end ConsentBanner
