import ConsentBanner.Number.Double

/-!
The shortest decimal that reads back: of all decimals with the fewest digits inside the interval that
rounds to a number, the one nearest to it. Written positionally for moderate exponents.
-/

namespace ConsentBanner

/-- A positive decimal `0.d₁d₂… · 10 ^ point` whose digits are those of `digits`. -/
structure Decimal where
  digits : Nat
  point : Int
deriving DecidableEq, Repr

namespace Double

/-- The number of decimal digits of a natural number. -/
def digitCount (n : Nat) : Nat := (Nat.toDigits 10 n).length

/-- The position `k` of the decimal point: `10 ^ (k - 1) ≤ num / den < 10 ^ k`. -/
def decimalPoint (num den : Nat) : Int :=
  if den ≤ num then digitCount (num / den)
  else
    let ceiling := (den + num - 1) / num
    1 - (digitCount (ceiling - 1) : Int)

/-- The value of a finite number as a quotient. -/
def ratio (m : Nat) (q : Int) : Nat × Nat := shifted m 1 (-q)

/-- The bounds, in quarters of the last place, of the reals that round to a number. -/
def roundingInterval (m : Nat) (q : Int) : Nat × Nat :=
  (4 * m - (if m = Nat.pow 2 52 ∧ minExponent < q then 1 else 2), 4 * m + 2)

/-- Whether `c · 10 ^ e` rounds to the number; the bounds belong to an even mantissa. -/
def roundsTo (m : Nat) (q : Int) (c : Nat) (e : Int) : Bool :=
  let (low, high) := roundingInterval m q
  let scale (a : Nat) (twos tens : Int) : Nat := a * Nat.pow 2 twos.toNat * Nat.pow 10 tens.toNat
  let candidate := scale c (2 - q) e
  let low := scale low (q - 2) (-e)
  let high := scale high (q - 2) (-e)
  if m % 2 = 0 then low ≤ candidate && candidate ≤ high else low < candidate && candidate < high

/-- The grid point of a given number of digits that rounds to the number, the nearer of two. -/
def onGrid? (m : Nat) (q : Int) (point : Int) (digits : Nat) : Option Nat :=
  let e := point - digits
  let (num, den) := ratio m q
  let (num, den) :=
    if 0 ≤ e then (num, den * Nat.pow 10 e.toNat) else (num * Nat.pow 10 (-e).toNat, den)
  let below := num / den
  match roundsTo m q below e, roundsTo m q (below + 1) e with
  | true, true => some (roundHalfEven num den)
  | true, false => some below
  | false, true => some (below + 1)
  | false, false => none

/-- The first grid that has a point, from the given number of digits on. -/
def firstGrid (m : Nat) (q : Int) (point : Int) : (remaining digits : Nat) → Nat × Nat
  | 0, digits => ((onGrid? m q point digits).getD 0, digits)
  | remaining + 1, digits =>
    match onGrid? m q point digits with
    | some c => (c, digits)
    | none => firstGrid m q point remaining (digits + 1)

/-- The shortest decimal of a positive number. -/
def shortest (m : Nat) (q : Int) : Decimal :=
  let (num, den) := ratio m q
  let point := decimalPoint num den
  let (c, digits) := firstGrid m q point 16 1
  { digits := c, point := if digitCount c = digits then point else point + 1 }

end Double

namespace Decimal

/-- The digits without the zeros at the end. -/
def digitText (d : Decimal) : List Char :=
  match ((Nat.toDigits 10 d.digits).reverse.dropWhile (· == '0')).reverse with
  | [] => ['0']
  | ds => ds

/-- Point positions that are written without an exponent. -/
def isPositional (d : Decimal) : Bool := -4 < d.point && d.point ≤ 16

def positional (d : Decimal) : List Char :=
  let ds := d.digitText
  if d.point ≤ 0 then '0' :: '.' :: (List.replicate (-d.point).toNat '0' ++ ds)
  else
    let k := d.point.toNat
    if ds.length ≤ k then ds ++ List.replicate (k - ds.length) '0' ++ ['.', '0']
    else ds.take k ++ '.' :: ds.drop k

/-- One digit before the point, a signed exponent of at least two digits. -/
def scientific (d : Decimal) : List Char :=
  let fraction :=
    match d.digitText with
    | c :: [] => [c]
    | c :: rest => c :: '.' :: rest
    | [] => []
  let e := d.point - 1
  let magnitude := Nat.toDigits 10 e.natAbs
  let magnitude := if magnitude.length < 2 then '0' :: magnitude else magnitude
  fraction ++ 'e' :: (if e < 0 then '-' else '+') :: magnitude

def text (d : Decimal) : List Char := if d.isPositional then d.positional else d.scientific

end Decimal

namespace Double

/-- The shortest text that reads back as the number, always with a point or an exponent. -/
def textList : Double → List Char
  | nan => "nan".toList
  | infinite negative => (if negative then "-inf" else "inf").toList
  | finite negative m q =>
    (if negative then ['-'] else []) ++ (if m = 0 then "0.0".toList else (shortest m q).text)

def text (x : Double) : String := String.ofList x.textList

end Double

end ConsentBanner
