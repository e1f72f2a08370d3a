import ConsentBanner.Fault
import ConsentBanner.Number.Double

/-!
Days of the Gregorian calendar, from year 1 to year 9999. Moments: a day, a time of the day to the microsecond,
and how far the clock is ahead of universal time, if that is known. As items of lists and objects both are told
by their parts.
-/

namespace ConsentBanner

def isLeapYear (year : Nat) : Bool := year % 4 == 0 && (year % 100 != 0 || year % 400 == 0)

def daysInMonth (year month : Nat) : Nat :=
  if month == 2 then (if isLeapYear year then 29 else 28)
  else if month == 4 || month == 6 || month == 9 || month == 11 then 30
  else 31

/-- A day of the calendar. -/
structure Date where
  year : Nat
  month : Nat
  day : Nat
  year_bounds : 1 ≤ year ∧ year ≤ 9999
  month_bounds : 1 ≤ month ∧ month ≤ 12
  day_bounds : 1 ≤ day ∧ day ≤ daysInMonth year month
deriving DecidableEq, Repr

namespace Date

def ofParts? (year month day : Nat) : Option Date :=
  if h : (1 ≤ year ∧ year ≤ 9999) ∧ (1 ≤ month ∧ month ≤ 12) ∧ (1 ≤ day ∧ day ≤ daysInMonth year month) then
    some ⟨year, month, day, h.1, h.2.1, h.2.2⟩
  else none

/-- The number of days from the first day of 1970. Years are counted from March, so that a leap day is
the last day of its year. -/
def dayNumber (d : Date) : Int :=
  let y : Int := if d.month ≤ 2 then (d.year : Int) - 1 else d.year
  let m : Int := if d.month ≤ 2 then (d.month : Int) + 9 else (d.month : Int) - 3
  let dayOfYear := (153 * m + 2) / 5 + d.day - 1
  365 * y + y / 4 - y / 100 + y / 400 + dayOfYear - 719468

/-- The day with a given number, when it is in the calendar. -/
def ofDayNumber? (n : Int) : Option Date :=
  let z := n + 719468
  let era := z / 146097
  let dayOfEra := z % 146097
  let yearOfEra := (dayOfEra - dayOfEra / 1460 + dayOfEra / 36524 - dayOfEra / 146096) / 365
  let dayOfYear := dayOfEra - (365 * yearOfEra + yearOfEra / 4 - yearOfEra / 100)
  let m := (5 * dayOfYear + 2) / 153
  let day := dayOfYear - (153 * m + 2) / 5 + 1
  let month := if m < 10 then m + 3 else m - 9
  let year := yearOfEra + era * 400 + (if month ≤ 2 then 1 else 0)
  if 0 < year then ofParts? year.toNat month.toNat day.toNat else none

/-- The place of a day in its week, which begins on Monday. -/
def weekday (d : Date) : Nat := ((d.dayNumber + 3) % 7).toNat

end Date

structure TimeOfDay where
  hour : Nat
  minute : Nat
  second : Nat
  micro : Nat
  hour_lt : hour < 24
  minute_lt : minute < 60
  second_lt : second < 60
  micro_lt : micro < 1000000
deriving DecidableEq, Repr

namespace TimeOfDay

def midnight : TimeOfDay := ⟨0, 0, 0, 0, by decide, by decide, by decide, by decide⟩

def microsPerDay : Nat := 86400000000

/-- The time a number of microseconds after midnight; whole days are left out. -/
def ofMicros (n : Nat) : TimeOfDay where
  hour := n / 3600000000 % 24
  minute := n / 60000000 % 60
  second := n / 1000000 % 60
  micro := n % 1000000
  hour_lt := Nat.mod_lt _ (by decide)
  minute_lt := Nat.mod_lt _ (by decide)
  second_lt := Nat.mod_lt _ (by decide)
  micro_lt := Nat.mod_lt _ (by decide)

def toMicros (t : TimeOfDay) : Nat := ((t.hour * 60 + t.minute) * 60 + t.second) * 1000000 + t.micro

end TimeOfDay

structure Moment where
  date : Date
  time : TimeOfDay
  /-- Minutes ahead of universal time. -/
  zone : Option Int := none
deriving DecidableEq, Repr

/-- A number with zeros in front, up to a width. -/
def paddedNat (width n : Nat) : String :=
  let digits := (toString n).toList
  String.ofList (List.replicate (width - digits.length) '0' ++ digits)

/-- The written form of a day. -/
def Date.text (d : Date) : String :=
  paddedNat 4 d.year ++ "-" ++ paddedNat 2 d.month ++ "-" ++ paddedNat 2 d.day

namespace Moment

/-- The offset of a clock, in hours and minutes. -/
def zoneText (minutes : Int) : String :=
  (if minutes < 0 then "-" else "+") ++ paddedNat 2 (minutes.natAbs / 60) ++ ":" ++
    paddedNat 2 (minutes.natAbs % 60)

/-- The written form, with something between the day and the time: a fraction only when it is not zero, an
offset only when it is known. -/
def textWith (separator : String) (m : Moment) : String :=
  m.date.text ++ separator ++
    paddedNat 2 m.time.hour ++ ":" ++ paddedNat 2 m.time.minute ++ ":" ++ paddedNat 2 m.time.second ++
    (if m.time.micro = 0 then "" else "." ++ paddedNat 6 m.time.micro) ++
    (match m.zone with
      | some z => zoneText z
      | none => "")

def text (m : Moment) : String := m.textWith "T"

/-- Microseconds since the start of 1970 in universal time, which a clock of unknown offset shows. -/
def epochMicros (m : Moment) : Int :=
  m.date.dayNumber * TimeOfDay.microsPerDay + m.time.toMicros - m.zone.getD 0 * 60000000

/-- Whether two clocks show the same moment; one of unknown offset shows none that another does. -/
def same (a b : Moment) : Bool := a.zone.isSome == b.zone.isSome && a.epochMicros == b.epochMicros

/-- The moment in universal time, when it is in the calendar. -/
def ofEpochMicros? (n : Int) : Option Moment :=
  (Date.ofDayNumber? (n / TimeOfDay.microsPerDay)).map fun d =>
    ⟨d, TimeOfDay.ofMicros (n % TimeOfDay.microsPerDay).toNat, some 0⟩

/-- Seconds since the start of 1970. A clock of unknown offset is taken for local time: its whole seconds are
looked up, for which the day before has to be in the calendar too, and the fraction is added to them. -/
def epochSeconds (m : Moment) : Except Fault Double :=
  match m.zone with
  | some _ => .ok (Double.ofIntRatio m.epochMicros 1000000)
  | none =>
    if (Date.ofDayNumber? (m.date.dayNumber - 1)).isNone then .error .badValue
    else
      .ok ((Double.ofInt (m.epochMicros / 1000000)).add (Double.ofIntRatio m.time.micro 1000000))

/-- Whole milliseconds since the start of 1970, by way of a floating point number of seconds. -/
def epochMillis (m : Moment) : Except Fault Int := do
  return (((← m.epochSeconds).mul (Double.ofInt 1000)).truncate?).getD 0

/-- The microseconds of a number of seconds, rounded to even. -/
def microsOfSeconds? (x : Double) : Option Int :=
  match x.truncate?, (x.fraction.mul (Double.ofInt 1000000)).round? with
  | some seconds, some micros =>
    some (seconds * 1000000 + (if x.compareInt? 0 == some .lt then -micros else micros))
  | _, _ => none

/-- Whether a clock whose years are 32 bits wide, counted from 1900, can show a second of universal time. -/
def inClockRange (second : Int) : Bool := -67768040609740800 ≤ second && second < 67768036191676800

def dayNames : List String := ["Mon", "Tue", "Wed", "Thu", "Fri", "Sat", "Sun"]

def monthNames : List String :=
  ["Jan", "Feb", "Mar", "Apr", "May", "Jun", "Jul", "Aug", "Sep", "Oct", "Nov", "Dec"]

/-- The form in which cookies expire. -/
def cookieText (m : Moment) : String :=
  dayNames.getD m.date.weekday "" ++ ", " ++ paddedNat 2 m.date.day ++ " " ++
    monthNames.getD (m.date.month - 1) "" ++ " " ++ toString m.date.year ++ " " ++ paddedNat 2 m.time.hour ++
    ":" ++ paddedNat 2 m.time.minute ++ ":" ++ paddedNat 2 m.time.second ++ " GMT"

end Moment

/-- Numbers with commas between them. -/
def partsText (parts : List Nat) : String := String.intercalate ", " (parts.map toString)

/-- A day by its parts. -/
def Date.partsText (d : Date) : String := ConsentBanner.partsText [d.year, d.month, d.day]

def Date.nestedText (d : Date) : String := "datetime.date(" ++ d.partsText ++ ")"

/-- A span of time by its days, which carry the sign, and its seconds. -/
def spanText (minutes : Int) : String :=
  let days := minutes / 1440
  let seconds := minutes % 1440 * 60
  let parts := (if days == 0 then [] else ["days=" ++ toString days]) ++
    (if seconds == 0 then [] else ["seconds=" ++ toString seconds])
  "datetime.timedelta(" ++ (if parts.isEmpty then "0" else String.intercalate ", " parts) ++ ")"

namespace Moment

def zoneNestedText (minutes : Int) : String :=
  if minutes == 0 then "datetime.timezone.utc" else "datetime.timezone(" ++ spanText minutes ++ ")"

/-- A moment by its parts, of which seconds and microseconds are left out at the end when they are zero. -/
def nestedText (m : Moment) : String :=
  let fine :=
    if m.time.micro ≠ 0 then [m.time.second, m.time.micro]
    else if m.time.second ≠ 0 then [m.time.second]
    else []
  "datetime.datetime(" ++ m.date.partsText ++ ", " ++ partsText ([m.time.hour, m.time.minute] ++ fine) ++
    (match m.zone with
      | some z => ", tzinfo=" ++ zoneNestedText z
      | none => "") ++ ")"

/-- The form of documents, in which universal time has a letter for its offset. -/
def documentText (m : Moment) : String :=
  if m.zone == some 0 then { m with zone := none }.text ++ "Z" else m.text

end Moment

end ConsentBanner
