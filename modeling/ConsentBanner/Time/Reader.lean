import ConsentBanner.Schema
import ConsentBanner.Time.Moment

/-!
Reading moments: dates with a time and an offset, dates alone, and numbers of seconds or milliseconds.
-/

namespace ConsentBanner.Moment

/-- Why a text is no moment. -/
inductive Unreadable where
  | tooShort
  | extraCharacters
  | yearCharacter
  | monthCharacter
  | dayCharacter
  | dateSeparator
  | monthRange
  | dayRange
  | beforeRange
  | afterRange
  | yearZero
  | undefined
deriving DecidableEq, Repr

def Unreadable.reason : Unreadable → String
  | tooShort => "input is too short"
  | extraCharacters => "unexpected extra characters at the end of the input"
  | yearCharacter => "invalid character in year"
  | monthCharacter => "invalid character in month"
  | dayCharacter => "invalid character in day"
  | dateSeparator => "invalid date separator, expected `-`"
  | monthRange => "month value is outside expected range of 1-12"
  | dayRange => "day value is outside expected range"
  | beforeRange => "dates before 0000 are not supported as unix timestamps"
  | afterRange => "dates after 9999 are not supported as unix timestamps"
  | yearZero => "year 0 is out of range"
  | undefined => "NaN values not permitted"

/-- The number of a run of digits. -/
def digits? (cs : List Char) : Option Nat :=
  if !cs.isEmpty && cs.all Char.isDigit then some (Text.plainValue cs) else none

/-- A field of fixed width at the start of a text, and the text after it. -/
def fixed? (width : Nat) (cs : List Char) : Option (Nat × List Char) :=
  let head := cs.take width
  if head.length = width then (digits? head).map fun n => (n, cs.drop width) else none

/-- A day of the years 0 to 9999, of which year 0 is in no calendar. -/
structure RawDate where
  year : Nat
  month : Nat
  day : Nat
deriving DecidableEq, Repr

def RawDate.date (d : RawDate) : Except Unreadable Date :=
  match Date.ofParts? d.year d.month d.day with
  | some d => .ok d
  | none => .error .yearZero

/-- The date at the start of a text and the text after it. The text has to have ten bytes. -/
def datePart (cs : List Char) : Except Unreadable (RawDate × List Char) := do
  if (String.ofList cs).utf8ByteSize < 10 then throw .tooShort
  let some (year, cs) := fixed? 4 cs | throw .yearCharacter
  let '-' :: cs := cs | throw .dateSeparator
  let some (month, cs) := fixed? 2 cs | throw .monthCharacter
  let '-' :: cs := cs | throw .dateSeparator
  let some (day, cs) := fixed? 2 cs | throw .dayCharacter
  if month < 1 || 12 < month then throw .monthRange
  if day < 1 || daysInMonth year month < day then throw .dayRange
  return (⟨year, month, day⟩, cs)

/-- The microseconds of a fraction, of which more than six digits are cut short. -/
def fractionMicros (digits : List Char) : Nat :=
  Text.plainValue (digits.take 6 ++ List.replicate (6 - digits.length) '0')

/-- The seconds and microseconds at the start of a text, when there are any, and the text after them. -/
def secondsPart? (cs : List Char) : Option (Nat × Nat × List Char) :=
  match cs with
  | ':' :: cs =>
    match fixed? 2 cs with
    | none => none
    | some (second, point :: cs) =>
      if point == '.' || point == ',' then
        let digits := cs.takeWhile Char.isDigit
        if digits.isEmpty then none else some (second, fractionMicros digits, cs.dropWhile Char.isDigit)
      else some (second, 0, point :: cs)
    | some (second, []) => some (second, 0, [])
  | cs => some (0, 0, cs)

/-- The text after a colon, which may be left out. -/
def afterColon : List Char → List Char
  | ':' :: cs => cs
  | cs => cs

/-- The offset that a whole text gives: none, universal time, or hours and minutes. -/
def zonePart? (cs : List Char) : Option (Option Int) :=
  match cs with
  | [] => some none
  | ['Z'] | ['z'] => some (some 0)
  | sign :: cs =>
    if sign == '+' || sign == '-' || sign == '\u2212' then
      match fixed? 2 cs with
      | none => none
      | some (hours, cs) =>
        match fixed? 2 (afterColon cs) with
        | some (minutes, []) =>
          let total : Int := hours * 60 + minutes
          if minutes < 60 && hours < 24 then some (some (if sign == '+' then total else -total)) else none
        | _ => none
    else none

/-- The time of the day and offset that a whole text gives. -/
def timePart? (cs : List Char) : Option (TimeOfDay × Option Int) := do
  let (hour, cs) ← fixed? 2 cs
  let ':' :: cs := cs | none
  let (minute, cs) ← fixed? 2 cs
  let (second, micro, cs) ← secondsPart? cs
  let zone ← zonePart? cs
  if h : hour < 24 ∧ minute < 60 ∧ second < 60 ∧ micro < 1000000 then
    return (⟨hour, minute, second, micro, h.1, h.2.1, h.2.2.1, h.2.2.2⟩, zone)
  else none

/-- A date, a separator and a time. -/
def ofDateTime? (cs : List Char) : Option (Except Unreadable Moment) := do
  let (d, cs) ← (datePart cs).toOption
  let separator :: cs := cs | none
  if !(['T', 't', ' ', '_'].contains separator) then none
  let (t, zone) ← timePart? cs
  return d.date.map fun d => ⟨d, t, zone⟩

/-- A number beyond this counts milliseconds. -/
def secondsLimit : Nat := 20000000000

/-- The moment of a number of microseconds. -/
def ofMicros (total : Int) : Except Unreadable Moment :=
  let seconds := total / 1000000
  if seconds < -62167219200 then .error .beforeRange
  else if 253402300799 < seconds then .error .afterRange
  else
    match ofEpochMicros? total with
    | some m => .ok m
    | none => .error .yearZero

/-- The moment of a number of seconds, or milliseconds when it is large. -/
def ofTimestamp (n : Int) : Except Unreadable Moment :=
  ofMicros (if n.natAbs ≤ secondsLimit then n * 1000000 else n * 1000)

/-- The moment of a floating point number of seconds, or milliseconds when it is large: its whole seconds from
below, and what is left in microseconds. -/
def ofDouble (x : Double) : Except Unreadable Moment :=
  match x with
  | .nan => .error .undefined
  | .infinite negative => .error (if negative then .beforeRange else .afterRange)
  | x =>
    let isLarge := x.compareInt? secondsLimit == some .gt || x.compareInt? (-secondsLimit) == some .lt
    let seconds := if isLarge then x.divNat 1000 else x
    let whole := seconds.floor?.getD 0
    let rest := (seconds.add (Double.ofInt (-whole))).mul (Double.ofInt 1000000)
    ofMicros (whole * 1000000 + rest.roundHalfAway?.getD 0)

/-- A text that writes a number. -/
inductive Timestamp where
  | whole (n : Int)
  | decimal (x : Double)

/-- The number of a text: an integer of 64 bits, or a decimal with a point. -/
def timestamp? (cs : List Char) : Option Timestamp :=
  let (negative, digits) := match cs with
    | '-' :: cs => (true, cs)
    | '+' :: cs => (false, cs)
    | cs => (false, cs)
  match digits.dropWhile Char.isDigit with
  | [] =>
    match digits? digits with
    | some n =>
      let n : Int := if negative then -n else n
      if Reader.fitsWord n then some (.whole n) else none
    | none => none
  | '.' :: _ => (Numeral.unsignedDecimal? negative digits).map .decimal
  | _ => none

/-- A date alone, at midnight. -/
def ofDate (cs : List Char) : Except Unreadable Moment := do
  let (d, rest) ← datePart cs
  if rest.isEmpty then return ⟨← d.date, .midnight, none⟩ else throw .extraCharacters

/-- The moment of a text. A decimal beyond the calendar counts as a date that is none. -/
def ofText (cs : List Char) : Except Unreadable Moment :=
  match ofDateTime? cs with
  | some m => m
  | none =>
    match timestamp? cs with
    | some (.whole n) => ofTimestamp n
    | some (.decimal x) =>
      match ofDouble x with
      | .error .beforeRange | .error .afterRange => ofDate cs
      | m => m
    | none => ofDate cs

def checkedNumber : Except Unreadable Moment → Checked Moment
  | .ok m => .valid m
  | .error e => .reject (.unreadableDateTime e.reason)

/-- The moment of a text or a number. Integers that are no machine words are read as floating point numbers,
where they are in range. -/
def read : Reader Moment
  | .str s =>
    match ofText s.toList with
    | .ok m => .valid m
    | .error .yearZero => checkedNumber (.error .yearZero)
    | .error e => .reject (.unreadableDate e.reason)
  | .int n =>
    if Reader.fitsWord n then checkedNumber (ofTimestamp n)
    else if (Double.ofInt n).isFinite then checkedNumber (ofDouble (Double.ofInt n))
    else .reject .notDateTime
  | .float x => checkedNumber (ofDouble x)
  | _ => .reject .notDateTime

end ConsentBanner.Moment
