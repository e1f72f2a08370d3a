import ConsentBanner.Text.Integer
import ConsentBanner.Text.Search

/-!
The kinds of nodes, which tags name and which plain scalars have by their form: words and numerals of YAML 1.1,
also numerals in base two, eight, sixteen and sixty, and times; everything else is text.
-/

namespace ConsentBanner.Yaml

inductive Kind where
  | null
  | bool
  | int
  | float
  | text
  | bytes
  | time
  | sequence
  | mapping
  | set
  /-- A sequence of mappings with one entry each. -/
  | pairs
  /-- The key that brings in the entries of other mappings. -/
  | merge
  /-- The key of the value that stands for a mapping. -/
  | value
deriving DecidableEq, Repr

/-- The kinds by the ends of their tags. -/
def Kind.names : List (String × Kind) := [
  ("null", .null), ("bool", .bool), ("int", .int), ("float", .float), ("str", .text), ("binary", .bytes),
  ("timestamp", .time), ("seq", .sequence), ("map", .mapping), ("set", .set), ("omap", .pairs),
  ("pairs", .pairs), ("merge", .merge), ("value", .value)]

/-- The kind that a tag names. -/
def Kind.ofTag? (tag : String) : Option Kind :=
  (Text.after? "tag:yaml.org,2002:".toList tag.toList).bind fun name => names.lookup (String.ofList name)

/-- A sign, true for minus, and the characters after it. -/
def signed : List Char → Bool × List Char
  | '-' :: rest => (true, rest)
  | '+' :: rest => (false, rest)
  | rest => (false, rest)

/-- Digits among which underscores may stand; the first is a digit. -/
def isNumeral : List Char → Bool
  | [] => false
  | d :: rest => d.isDigit && rest.all fun c => c.isDigit || c == '_'

/-- A numeral below sixty after the first place of a number in base sixty. -/
def isSixtieth : List Char → Bool
  | [a] => a.isDigit
  | [a, b] => '0' ≤ a && a ≤ '5' && b.isDigit
  | _ => false

/-- A numeral and numerals below sixty. -/
def isSixties (cs : List Char) : Bool :=
  match Text.splitList ':' cs with
  | first :: second :: rest => isNumeral first && (second :: rest).all isSixtieth
  | _ => false

/-- Digits of a base and underscores, at least one of the two. -/
def isDigitsIn (base : Nat) (cs : List Char) : Bool :=
  !cs.isEmpty && cs.all fun c => c == '_' || (Text.hexValue? c).any (· < base)

def isInteger (cs : List Char) : Bool :=
  match (signed cs).2 with
  | ['0'] => true
  | '0' :: 'b' :: ds => isDigitsIn 2 ds
  | '0' :: 'x' :: ds => isDigitsIn 16 ds
  | '0' :: ds => isDigitsIn 8 ds
  | cs => isNumeral cs || isSixties cs

/-- Nothing, or an exponent, which needs its sign. -/
def isExponent : List Char → Bool
  | [] => true
  | e :: s :: ds => (e == 'e' || e == 'E') && (s == '-' || s == '+') && !ds.isEmpty && ds.all Char.isDigit
  | _ => false

/-- A number with a point. Without digits before the point it needs some after it and has no sign. -/
def isDecimal (cs : List Char) : Bool :=
  let isPart (c : Char) : Bool := c.isDigit || c == '_'
  match Text.cutList '.' (signed cs).2 with
  | (_, none) => false
  | ([], some rest) => cs.head? == some '.' && isNumeral (rest.takeWhile isPart) && isExponent (rest.dropWhile isPart)
  | (whole, some rest) =>
    if isNumeral whole then isExponent (rest.dropWhile isPart) else isSixties whole && rest.all isPart

/-- The names of what is no finite number. -/
def limits : List String := [
  ".inf", ".Inf", ".INF", "+.inf", "+.Inf", "+.INF", "-.inf", "-.Inf", "-.INF", ".nan", ".NaN", ".NAN"]

def truths : List String := [
  "yes", "Yes", "YES", "true", "True", "TRUE", "on", "On", "ON", "no", "No", "NO", "false", "False", "FALSE",
  "off", "Off", "OFF"]

def nulls : List String := ["", "~", "null", "Null", "NULL"]

/-- Between so many digits, and the text after them. -/
def digits? (least most : Nat) (cs : List Char) : Option (Nat × List Char) :=
  let ds := (cs.take most).takeWhile Char.isDigit
  if ds.length < least then none else some (Text.plainValue ds, cs.drop ds.length)

def mark? (c : Char) : List Char → Option (List Char)
  | [] => none
  | d :: rest => if d == c then some rest else none

/-- The parts of a time of day. -/
structure ClockParts where
  hour : Nat
  minute : Nat
  second : Nat
  /-- The digits after the point. -/
  fraction : List Char
  /-- Minutes ahead of universal time. -/
  zone : Option Int
deriving DecidableEq, Repr

/-- The parts of a time; whether they make one is not said. -/
structure TimeParts where
  year : Nat
  month : Nat
  day : Nat
  clock : Option ClockParts
deriving DecidableEq, Repr

def isBlank (c : Char) : Bool := c == ' ' || c == '\t'

/-- The offset of a clock, if any, at the end of a time. -/
def zone? (cs : List Char) : Option (Option Int) :=
  match cs.dropWhile isBlank with
  | [] => if cs.isEmpty then some none else none
  | ['Z'] => some (some 0)
  | s :: rest => do
    if s != '+' && s != '-' then none
    let (hours, rest) ← digits? 1 2 rest
    let minutes ←
      match rest with
      | [] => some 0
      | rest => do
        let (minutes, rest) ← digits? 2 2 (← mark? ':' rest)
        if rest.isEmpty then some minutes else none
    let offset : Int := (hours * 60 + minutes : Nat)
    return some (if s == '-' then -offset else offset)

/-- The time of day after a date. -/
def clock? (cs : List Char) : Option ClockParts := do
  let rest ← match cs with
    | 'T' :: rest => some rest
    | 't' :: rest => some rest
    | c :: rest => if isBlank c then some (rest.dropWhile isBlank) else none
    | [] => none
  let (hour, rest) ← digits? 1 2 rest
  let (minute, rest) ← digits? 2 2 (← mark? ':' rest)
  let (second, rest) ← digits? 2 2 (← mark? ':' rest)
  let (fraction, rest) := match rest with
    | '.' :: rest => (rest.takeWhile Char.isDigit, rest.dropWhile Char.isDigit)
    | rest => ([], rest)
  return ⟨hour, minute, second, fraction, ← zone? rest⟩

/-- The parts of a date, with or without a time of day. -/
def timeParts? (cs : List Char) : Option TimeParts := do
  let (year, rest) ← digits? 4 4 cs
  let (month, rest) ← digits? 1 2 (← mark? '-' rest)
  let (day, rest) ← digits? 1 2 (← mark? '-' rest)
  if rest.isEmpty then return ⟨year, month, day, none⟩ else return ⟨year, month, day, ← clock? rest⟩

/-- A date alone has all its digits. -/
def isTime (cs : List Char) : Bool :=
  match timeParts? cs with
  | some t => t.clock.isSome || cs.length == 10
  | none => false

/-- The text without one line end after it. -/
def dropLineEnd (cs : List Char) : List Char :=
  match cs.reverse with
  | '\n' :: c :: rest => (c :: rest).reverse
  | _ => cs

/-- The kind of a plain scalar. A line end after it does not count. -/
def Kind.ofPlain (s : String) : Kind :=
  let cs := dropLineEnd s.toList
  let s := String.ofList cs
  if truths.contains s then .bool
  else if limits.contains s || isDecimal cs then .float
  else if isInteger cs then .int
  else if s == "<<" then .merge
  else if nulls.contains s then .null
  else if isTime cs then .time
  else if s == "=" then .value
  else .text

end ConsentBanner.Yaml
