import ConsentBanner.Text.Blank

/-!
Decimal digits of every script, the numerals written with them, and integers written as texts: outer white space, one
sign, digits with single underscores between them, and in bases other than ten an optional mark in front. Only base ten
limits the number of digits.
-/

namespace ConsentBanner.Text

/-- The zero of each run of ten decimal digits. -/
def digitZeros : List Nat := [
  48, 1632, 1776, 1984, 2406, 2534, 2662, 2790, 2918, 3046, 3174, 3302, 3430, 3558, 3664, 3792,
  3872, 4160, 4240, 6112, 6160, 6470, 6608, 6784, 6800, 6992, 7088, 7232, 7248, 42528, 43216,
  43264, 43472, 43504, 43600, 44016, 65296, 66720, 68912, 69734, 69872, 69942, 70096, 70384,
  70736, 70864, 71248, 71360, 71472, 71904, 72016, 72784, 73040, 73120, 92768, 92864, 93008,
  120782, 120792, 120802, 120812, 120822, 123200, 123632, 125264, 130032]

/-- The value of a decimal digit of any script. -/
def digitValue? (c : Char) : Option Nat :=
  (digitZeros.find? fun z => z ≤ c.toNat && c.toNat < z + 10).map (c.toNat - ·)

def isDecimalDigit (c : Char) : Bool := (digitValue? c).isSome

/-- The value of an ASCII hexadecimal digit. -/
def hexValue? (c : Char) : Option Nat :=
  if '0' ≤ c ∧ c ≤ '9' then some (c.toNat - '0'.toNat)
  else if 'a' ≤ c ∧ c ≤ 'f' then some (c.toNat - 'a'.toNat + 10)
  else if 'A' ≤ c ∧ c ≤ 'F' then some (c.toNat - 'A'.toNat + 10)
  else none

def isHexDigit (c : Char) : Bool := (hexValue? c).isSome

/-- The value of a digit in a base of at most sixteen, in any script for the decimal part. -/
def digitValueIn? (base : Nat) (c : Char) : Option Nat :=
  match digitValue? c with
  | some d => if d < base then some d else none
  | none =>
    match hexValue? c with
    | some d => if d < base then some d else none
    | none => none

/-- The value of ASCII digits, most significant first. -/
def plainValue (ds : List Char) : Nat := ds.foldl (fun n c => n * 10 + (c.toNat - '0'.toNat)) 0

/-- Decimal numerals of more digits than this are not read. -/
def maxDigits : Nat := 4300

/-- Reads digits with single underscores between them; the accumulator holds the digits before. -/
def digitsValue? (base acc : Nat) : List Char → Option Nat
  | [] => some acc
  | ['_'] => none
  | '_' :: c :: rest =>
    match digitValueIn? base c with
    | some d => digitsValue? base (acc * base + d) rest
    | none => none
  | c :: rest =>
    match digitValueIn? base c with
    | some d => digitsValue? base (acc * base + d) rest
    | none => none

/-- A numeral: digits of the base with single underscores between them and none at the ends. -/
def numeralValue? (base : Nat) : List Char → Option Nat
  | [] => none
  | c :: rest => (digitValueIn? base c).bind fun d => digitsValue? base d rest

/-- The lower and the upper letter of the mark of a base. -/
def baseLetters : Nat → List Char
  | 2 => ['b', 'B']
  | 8 => ['o', 'O']
  | 16 => ['x', 'X']
  | _ => []

/-- The digits after the mark of their base, when there is one. -/
def dropMark (base : Nat) : List Char → List Char
  | '0' :: letter :: rest =>
    if (baseLetters base).contains letter then
      match rest with
      | '_' :: rest => rest
      | rest => rest
    else '0' :: letter :: rest
  | cs => cs

/-- The magnitude of an unsigned numeral, whose digits are limited in number in base ten. -/
def magnitude? (base : Nat) (cs : List Char) : Option Nat :=
  if base = 10 && maxDigits < cs.countP (· != '_') then none else numeralValue? base (dropMark base cs)

def integerIn? (base : Nat) (cs : List Char) : Option Int :=
  match trimPadding cs with
  | '-' :: digits => (magnitude? base digits).map fun n => -(n : Int)
  | '+' :: digits => (magnitude? base digits).map fun n => (n : Int)
  | digits => (magnitude? base digits).map fun n => (n : Int)

/-- The integer that a text denotes in base ten. -/
def integer? (s : String) : Option Int := integerIn? 10 s.toList

end ConsentBanner.Text
