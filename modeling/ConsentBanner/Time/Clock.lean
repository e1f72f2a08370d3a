import ConsentBanner.Number.Basic
import ConsentBanner.Time.Moment

/-!
Moments told by numbers: what a clock in milliseconds shows, and what it shows a number of days later.
-/

namespace ConsentBanner.Moment

/-- A thousandth of a number. -/
def thousandth : Number → Double
  | .int n => Double.ofIntRatio n 1000
  | .float x => x.divNat 1000

/-- The moment that a clock in milliseconds shows. -/
def ofMillis (ms : Number) : Except Fault Moment :=
  match microsOfSeconds? (thousandth ms) with
  | none => .error (if thousandth ms == .nan then .badValue else .overflow)
  | some micros =>
    if Nat.pow 2 63 ≤ micros.natAbs / 1000000 then .error .overflow
    else if !inClockRange (micros / 1000000) then .error .clockRange
    else
      match ofEpochMicros? micros with
      | some m => .ok m
      | none => .error .badValue

/-- The microseconds of a number of days: those of the whole days, and those of the fraction rounded to
even. -/
def microsOfDays : Number → Except Fault Int
  | .int n => .ok (n * TimeOfDay.microsPerDay)
  | .float x =>
    match x.truncate?, (x.fraction.mul (Double.ofInt TimeOfDay.microsPerDay)).round? with
    | some whole, some micros =>
      .ok (whole * TimeOfDay.microsPerDay + (if x.compareInt? 0 == some .lt then -micros else micros))
    | _, _ => .error (if x == .nan then .badValue else .overflow)

/-- What the same clock shows a number of days later. -/
def addDays (m : Moment) (days : Number) : Except Fault Moment := do
  let micros := m.date.dayNumber * TimeOfDay.microsPerDay + m.time.toMicros + (← microsOfDays days)
  match Date.ofDayNumber? (micros / TimeOfDay.microsPerDay) with
  | some d => return { m with date := d, time := .ofMicros (micros % TimeOfDay.microsPerDay).toNat }
  | none => .error .overflow

end ConsentBanner.Moment
