import ConsentBanner.Fault
import ConsentBanner.Json.Basic
import ConsentBanner.Number.Shortest

/-!
Numbers of a document, which stay integers when they were written as such.
-/

namespace ConsentBanner

/-- An integer or a floating point number. -/
inductive Number where
  | int (n : Int)
  | float (x : Double)
deriving DecidableEq, Repr, Inhabited

namespace Number

def json : Number → Json
  | int n => .int n
  | float x => .float x

def ofJson? : Json → Option Number
  | .int n => some (int n)
  | .float x => some (float x)
  | _ => none

/-- The order against an integer; none for NaN. -/
def compareInt? : Number → Int → Option Ordering
  | int n, m => some (compare n m)
  | float x, m => x.compareInt? m

/-- Whether a number is at most an integer, which NaN never is. -/
def atMost (x : Number) (n : Int) : Bool :=
  match x.compareInt? n with
  | some .lt | some .eq => true
  | _ => false

/-- Whether a number is greater than an integer, which NaN never is. -/
def exceeds (x : Number) (n : Int) : Bool := x.compareInt? n == some .gt

/-- The nearest floating point number, which an integer beyond the range does not have. -/
def toDouble? : Number → Except Fault Double
  | int n => if (Double.ofInt n).isFinite then .ok (Double.ofInt n) else .error .overflow
  | float x => .ok x

/-- The sum, which is an integer when both numbers are. -/
def plus : Number → Number → Except Fault Number
  | int n, int m => .ok (int (n + m))
  | x, y => do return float ((← x.toDouble?).add (← y.toDouble?))

def neg : Number → Number
  | int n => int (-n)
  | float x => float x.neg

/-- The difference, which is an integer when both numbers are. -/
def minus (x y : Number) : Except Fault Number := x.plus y.neg

/-- The order of two numbers whatever their kinds; none beside a NaN. -/
def compare? : Number → Number → Option Ordering
  | x, int m => x.compareInt? m
  | int n, float y => (y.compareInt? n).map Ordering.swap
  | float x, float y => x.compare? y

/-- A thousand times a number. -/
def thousandfold : Number → Number
  | int n => int (n * 1000)
  | float x => float (x.mul (Double.ofInt 1000))

/-- The number that a value counts as, truth values included. -/
def ofScalar? : Json → Option Number
  | .bool b => some (int (if b then 1 else 0))
  | v => ofJson? v

def isNegative (x : Number) : Bool := x.compareInt? 0 == some .lt

def isZero : Number → Bool
  | int n => n == 0
  | float x => x.isZero

def toDouble : Number → Double
  | int n => Double.ofInt n
  | float x => x

/-- The integer part, towards zero; none of infinities and NaN. -/
def truncate? : Number → Option Int
  | int n => some n
  | float x => x.truncate?

def text : Number → String
  | int n => toString n
  | float x => x.text

end Number

end ConsentBanner
