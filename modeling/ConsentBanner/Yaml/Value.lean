import ConsentBanner.Fault
import ConsentBanner.Json.Basic
import ConsentBanner.Number.Numeral
import ConsentBanner.Text.Case
import ConsentBanner.Text.Integer
import ConsentBanner.Text.Utf8
import ConsentBanner.Yaml.Kind

/-!
The values of scalars of each kind. A tag may give a kind to any text, so each kind has texts that are no value
of it, beside those that have its form and still have none.
-/

namespace ConsentBanner.Yaml

/-- A sign before a number, true for minus, and the text after it, which without a sign cannot be empty. -/
def signedText? (cs : List Char) : Except Fault (Bool × List Char) :=
  if cs.isEmpty then .error .pastEnd else .ok (signed cs)

/-- The integers of the parts of a text in base sixty. -/
def sixtiesInteger? (cs : List Char) : Option Int :=
  (Text.splitList ':' cs).foldlM (fun n part => (Text.integerIn? 10 part).map (n * 60 + ·)) 0

/-- The integer without its sign. A zero in front is the sign of base eight. -/
def magnitude? : List Char → Option Int
  | ['0'] => some 0
  | '0' :: 'b' :: ds => Text.integerIn? 2 ds
  | '0' :: 'x' :: ds => Text.integerIn? 16 ds
  | '0' :: ds => Text.integerIn? 8 ('0' :: ds)
  | cs => if cs.contains ':' then sixtiesInteger? cs else Text.integerIn? 10 cs

/-- An integer, in which underscores do not count. -/
def integer (text : String) : Except Fault Int := do
  let (negative, cs) ← signedText? (text.toList.filter (· != '_'))
  if cs.isEmpty then throw .pastEnd
  match magnitude? cs with
  | some n => return if negative then -n else n
  | none => throw .badValue

/-- The sum of the parts of a text in base sixty, the last part first; `base` is the weight of that part. -/
def sixtiesSum (sum : Double) (base : Nat) : List (List Char) → Except Fault Double
  | [] => .ok sum
  | part :: rest =>
    match Numeral.decimalInAnyScript? part with
    | none => .error .badValue
    | some x =>
      let weight := Double.ofInt base
      if weight.isFinite then sixtiesSum (sum.add (x.mul weight)) (base * 60) rest else .error .overflow

/-- A number, in which underscores and case do not count. -/
def number (text : String) : Except Fault Double := do
  let (negative, cs) ← signedText? (Text.lower (String.ofList (text.toList.filter (· != '_')))).toList
  let x ←
    if cs == ['.', 'i', 'n', 'f'] then .ok (.infinite false)
    else if cs == ['.', 'n', 'a', 'n'] then .ok .nan
    else if cs.contains ':' then sixtiesSum .zero 1 (Text.splitList ':' cs).reverse
    else (Numeral.decimalInAnyScript? cs).elim (.error .badValue) .ok
  return if negative then x.neg else x

def truth (text : String) : Except Fault Bool :=
  let word := Text.lower text
  if ["yes", "true", "on"].contains word then .ok true
  else if ["no", "false", "off"].contains word then .ok false
  else .error .missingKey

/-- The first six digits after the point, with zeros after them. -/
def microseconds (fraction : List Char) : Nat :=
  let ds := fraction.take 6
  Text.plainValue ds * Nat.pow 10 (6 - ds.length)

/-- The time of day of its parts, when there is such a time. -/
def ClockParts.time? (c : ClockParts) : Option TimeOfDay :=
  if h : c.hour < 24 ∧ c.minute < 60 ∧ c.second < 60 ∧ microseconds c.fraction < 1000000 then
    some ⟨c.hour, c.minute, c.second, microseconds c.fraction, h.1, h.2.1, h.2.2.1, h.2.2.2⟩
  else none

/-- A day, or a moment on a clock that is less than a day ahead or behind. -/
def TimeParts.json? (t : TimeParts) : Option Json := do
  let date ← Date.ofParts? t.year t.month t.day
  match t.clock with
  | none => return .date date
  | some c =>
    let time ← c.time?
    if c.zone.any fun minutes => 1440 ≤ minutes.natAbs then none
    return .moment ⟨date, time, c.zone⟩

def instant (text : String) : Except Fault Json :=
  match timeParts? (dropLineEnd text.toList) with
  | none => .error .lacksParts
  | some t => t.json?.elim (.error .badValue) .ok

/-- The value of a scalar of a kind. -/
def Kind.scalar (text : String) : Kind → Except Fault Json
  | .null => .ok .null
  | .bool => (truth text).map .bool
  | .int => (integer text).map .int
  | .float => (number text).map .float
  | .text => .ok (.str text)
  | .bytes => (Text.Base64.decode? text.toList).elim (.error .unreadable) fun bs => .ok (.bytes bs)
  | .time => instant text
  | _ => .error .unreadable

end ConsentBanner.Yaml
