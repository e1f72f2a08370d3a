import ConsentBanner.Text.Integer
import ConsentBanner.Validation.Component

/-!
Checks of the layout of a raw template.
-/

namespace ConsentBanner.Validation

/-- The value of the digits at the start of a text, which are limited in number. -/
def leadingNatural? (cs : List Char) : Except Fault (Option Nat) :=
  let digits := cs.takeWhile Text.isDecimalDigit
  if Text.maxDigits < digits.length then .error .badValue else .ok (Text.numeralValue? 10 digits)

/-- The integer at the start of a text, after white space. -/
def leadingInteger? (cs : List Char) : Except Fault (Option Int) :=
  match cs.dropWhile Text.isBlank with
  | '-' :: rest => (leadingNatural? rest).map (·.map fun (n : Nat) => -(n : Int))
  | rest => (leadingNatural? rest).map (·.map fun (n : Nat) => (n : Int))

/-- The integer part of a length such as `480` or `"600px"`, if it has one. -/
def leadingLength? : Json → Except Fault (Option Int)
  | .int n => .ok (some n)
  | .float .nan => .error .badValue
  | .float (.infinite _) => .error .overflow
  | .float x => .ok x.truncate?
  | .str s => leadingInteger? s.toList
  | _ => .ok none

def exceeds (limit : Int) (length : Option Int) : Bool :=
  match length with
  | some n => limit < n
  | none => false

def checkDevice (limits : Limits) (d : Device) (block : List (String × Json)) :
    Except Fault (List Complaint) := do
  let kind ← isNameOf LayoutKind ((Fields.get? "type" block).getD .null)
  let anchor ← isNameOf Anchor ((Fields.get? "position" block).getD .null)
  let width ← leadingLength? ((Fields.get? "width" block).getD .null)
  let height ← leadingLength? ((Fields.get? "height" block).getD .null)
  return (if kind then [] else [.layoutKind d]) ++ (if anchor then [] else [.layoutAnchor d]) ++
    (if exceeds limits.maxWidth width then [.tooWide d limits.maxWidth] else []) ++
    (if exceeds limits.maxHeight height then [.tooHigh d limits.maxHeight] else [])

def checkDevices (limits : Limits) (layout : List (String × Json)) :
    List Device → Except Fault (List Complaint)
  | [] => .ok []
  | d :: rest => do
    let here ←
      match (Fields.get? (Named.name d) layout).getD .null with
      | .null => pure []
      | .obj block => checkDevice limits d block
      | _ => pure [.deviceNotObject d]
    return here ++ (← checkDevices limits layout rest)

def checkLayout (limits : Limits) : Json → Except Fault (List Complaint)
  | .obj layout =>
    match Fields.get? "desktop" layout with
    | some (.obj _) => checkDevices limits layout Named.all
    | _ => .ok [.desktopNotObject]
  | _ => .ok [.layoutNotObject]

end ConsentBanner.Validation
