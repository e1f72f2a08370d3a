/-!
Faults: the ways in which an operation stops without an answer of its own.
-/

namespace ConsentBanner

/-- Why an operation stopped. -/
inductive Fault where
  /-- Fields or parts were asked of a value that has none. -/
  | lacksParts
  /-- An operation met a value of a kind that it does not take. -/
  | wrongKind
  /-- A value of the right kind is outside what the operation accepts. -/
  | badValue
  /-- A key is missing. -/
  | missingKey
  /-- A place beyond the end of a text was asked for. -/
  | pastEnd
  /-- A number is too large for what it counts. -/
  | overflow
  /-- A time is beyond the years that a clock can count. -/
  | clockRange
  /-- A listener failed. -/
  | listenerFailed
  /-- A file is missing. -/
  | missingFile
  /-- A text is no document. -/
  | unreadable
deriving DecidableEq, Repr

end ConsentBanner
