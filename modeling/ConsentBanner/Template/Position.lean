import ConsentBanner.Fault
import ConsentBanner.Template.Basic

/-!
Offsets as percentages: every numeric offset of a component, at any depth, becomes a percentage text.
-/

namespace ConsentBanner.Template

/-- The percentage text of a number. -/
def percentage : Json → Json
  | .int n => .str (toString n ++ "%")
  | .float x =>
    if x.isIntegral then
      match x.truncate? with
      | some n => .str (toString n ++ "%")
      | none => .str (x.text ++ "%")
    else .str (x.text ++ "%")
  | v => v

/-- The offsets of one device. -/
def normalizeOffsets (values : List (String × Json)) : List (String × Json) :=
  values.map fun (k, v) => if Named.isName Side k then (k, percentage v) else (k, v)

/-- The blocks of a position, one per device. -/
def normalizeBlock : String × Json → String × Json
  | (device, .obj values) =>
    if Named.isName Device device then (device, .obj (normalizeOffsets values)) else (device, .obj values)
  | entry => entry

def normalizePosition : Json → Json
  | .obj blocks => .obj (blocks.map normalizeBlock)
  | v => v

mutual

def normalizeComponent : Json → Json
  | .obj fields => .obj (normalizeFields fields)
  | v => v

def normalizeFields : List (String × Json) → List (String × Json)
  | [] => []
  | (k, v) :: rest =>
    (if k == "position" then (k, normalizePosition v)
      else if k == "children" then (k, normalizeChildren v)
      else (k, v)) :: normalizeFields rest

def normalizeChildren : Json → Json
  | .arr items => .arr (normalizeComponents items)
  | v => v

def normalizeComponents : List Json → List Json
  | [] => []
  | c :: rest => normalizeComponent c :: normalizeComponents rest

end

/-- The template with its offsets as percentages. A template that is no object has no parts, and components
that are no collection cannot be gone through. -/
def normalizePositions : Json → Except Fault Json
  | .obj fields =>
    match Fields.get? "components" fields with
    | some (.arr items) => .ok (.obj (Fields.set "components" (.arr (normalizeComponents items)) fields))
    | some (.int n) => if n == 0 then .ok (.obj fields) else .error .wrongKind
    | some (.float x) => if x.isZero then .ok (.obj fields) else .error .wrongKind
    | some (.bool b) => if b then .error .wrongKind else .ok (.obj fields)
    | some (.date _) | some (.moment _) => .error .wrongKind
    | _ => .ok (.obj fields)
  | _ => .error .lacksParts

end ConsentBanner.Template
