import ConsentBanner.Number.Double
import ConsentBanner.Text.Blank
import ConsentBanner.Text.Case
import ConsentBanner.Text.Integer
import ConsentBanner.Text.Search

/-!
Numbers written as texts where a document may hold either: ASCII digits with single underscores among them,
between outer white space.
-/

namespace ConsentBanner.Numeral

/-- The text without its underscores, which may stand only inside and one at a time. -/
def dropUnderscores? (cs : List Char) : Option (List Char) :=
  if cs.contains '_' && cs.head? != some '_' && cs.getLast? != some '_' && !Text.containsList ['_', '_'] cs then
    some (cs.filter (· != '_'))
  else none

/-- The text before a fraction of at least one zero and no other digit. -/
def dropZeroFraction (cs : List Char) : List Char :=
  match cs.dropWhile (· != '.') with
  | '.' :: '0' :: zeros => if zeros.all (· == '0') then cs.takeWhile (· != '.') else cs
  | _ => cs

/-- The text after zeros in front and the underscores among them; it begins with a digit or a minus sign. -/
def dropLeadingZeros? (cs : List Char) : Option (List Char) :=
  let starts (c : Char) : Bool := c == '-' || ('1' ≤ c && c ≤ '9')
  match cs with
  | '0' :: rest =>
    match rest.dropWhile fun c => c == '0' || c == '_' with
    | [] => if cs.getLast? == some '0' then some ['0'] else none
    | c :: rest => if starts c then some (c :: rest) else none
  | c :: rest => if starts c then some (c :: rest) else none
  | [] => none

/-- The text after a plus sign, which no minus sign may follow. -/
def dropPlus? (cs : List Char) : Option (List Char) :=
  match cs with
  | '+' :: '-' :: _ => none
  | '+' :: rest => some rest
  | cs => some cs

/-- Why a text is no integer. -/
inductive Unreadable where
  | malformed
  | tooLong
deriving DecidableEq, Repr

/-- Zero, or digits that do not begin with it, after an optional minus sign. The length, in which the sign
counts, is limited, and a text that is too long is called so whatever follows its digits. -/
def plainInteger (cs : List Char) : Except Unreadable Int :=
  let (negative, digits) :=
    match cs with
    | '-' :: digits => (true, digits)
    | digits => (false, digits)
  let run := digits.takeWhile Char.isDigit
  match digits with
  | ['0'] => .ok 0
  | '0' :: _ | [] => .error .malformed
  | _ =>
    if Text.maxDigits < run.length + (if negative then 1 else 0) then .error .tooLong
    else if run.length < digits.length then .error .malformed
    else .ok (if negative then -(Text.plainValue run : Int) else Text.plainValue run)

/-- The integer of a text: a sign, zeros, digits, and at most a fraction of zeros. A minus sign may stand
after the zeros. -/
def integer (s : String) : Except Unreadable Int :=
  match (dropPlus? (Text.trimPadding s.toList)).bind fun cs => dropLeadingZeros? (dropZeroFraction cs) with
  | none => .error .malformed
  | some cs => plainInteger ((dropUnderscores? cs).getD cs)

/-- Digits before and after the point, and an exponent. -/
def unsignedDecimal? (negative : Bool) (cs : List Char) : Option Double :=
  let whole := cs.takeWhile Char.isDigit
  let (fraction, rest) :=
    match cs.dropWhile Char.isDigit with
    | '.' :: rest => (rest.takeWhile Char.isDigit, rest.dropWhile Char.isDigit)
    | rest => ([], rest)
  let make (e : Int) : Double :=
    Double.ofDecimal negative (Text.plainValue (whole ++ fraction)) (e - fraction.length)
  if whole.isEmpty && fraction.isEmpty then none
  else
    match rest with
    | [] => some (make 0)
    | e :: rest =>
      if e == 'e' || e == 'E' then
        let (minus, digits) :=
          match rest with
          | '-' :: ds => (true, ds)
          | '+' :: ds => (false, ds)
          | ds => (false, ds)
        if digits.isEmpty || !digits.all Char.isDigit then none
        else some (make (if minus then -(Text.plainValue digits : Int) else Text.plainValue digits))
      else none

def unsigned? (negative : Bool) (cs : List Char) : Option Double :=
  let word := Text.lowerAscii (String.ofList cs)
  if word == "inf" || word == "infinity" then some (.infinite negative)
  else if word == "nan" then some .nan
  else unsignedDecimal? negative cs

/-- A number in decimal or by name, without anything around it. -/
def plainDecimal? (cs : List Char) : Option Double :=
  match cs with
  | '-' :: rest => unsigned? true rest
  | '+' :: rest => unsigned? false rest
  | rest => unsigned? false rest

/-- An ASCII digit in place of one of another script. -/
def asciiDigit (c : Char) : Char :=
  match Text.digitValue? c with
  | some d => Char.ofNat ('0'.toNat + d)
  | none => c

/-- The number of a text without underscores, in digits of any script. -/
def decimalInAnyScript? (cs : List Char) : Option Double := plainDecimal? ((Text.trimPadding cs).map asciiDigit)

/-- The number of a text. Underscores are read only where there is no outer white space. -/
def decimal? (s : String) : Option Double :=
  match plainDecimal? (Text.trimPadding s.toList) with
  | some x => some x
  | none => (dropUnderscores? s.toList).bind plainDecimal?

end ConsentBanner.Numeral
