import ConsentBanner.Template.Position
import ConsentBanner.Validation.Component
import ConsentBanner.Validation.Layout
import ConsentBanner.Validation.Theme

/-!
Validation of raw templates: all complaints, in the order layout, components, theme, settings, actions. Components are
checked in document order; those below the nesting limit are not looked at, and only the first of them is complained about.
-/

namespace ConsentBanner.Validation

/-- What is known after some of the components. -/
structure Walk where
  complaints : List Complaint := []
  /-- The identifiers that are taken. -/
  seen : List Json := []
  /-- The actions of the components that were looked at. -/
  actions : List Json := []
  tooDeep : Bool := false
deriving Repr

namespace Walk

def complain (w : Walk) (c : Complaint) : Walk := { w with complaints := w.complaints ++ [c] }

/-- The walk after a component below the nesting limit. -/
def passDeep (limit : Int) (w : Walk) : Walk :=
  if w.tooDeep then w else { w.complain (.tooDeep limit) with tooDeep := true }

/-- The walk after the fields of a component, its children still ahead. -/
def enter (limits : Limits) (path : Path) (fields : List (String × Json)) (w : Walk) : Except Fault Walk := do
  let (complaints, seen) ← checkComponent limits path w.seen fields
  return { w with complaints := w.complaints ++ complaints, seen := seen, actions := w.actions ++ [actionOf fields] }

end Walk

mutual

def walk (limits : Limits) (path : Path) : Json → Walk → Except Fault Walk
  | .obj fields, w =>
    if limits.maxNesting < path.depth then .ok (w.passDeep limits.maxNesting)
    else do walkChildrenOf limits path fields (← w.enter limits path fields)
  | _, w =>
    if limits.maxNesting < path.depth then .ok (w.passDeep limits.maxNesting)
    else .ok (w.complain (.notComponent path))

/-- The walk through the children among the fields of a component. -/
def walkChildrenOf (limits : Limits) (path : Path) : List (String × Json) → Walk → Except Fault Walk
  | [], w => .ok w
  | (k, v) :: rest, w =>
    if k == "children" then walkChildren limits path v w else walkChildrenOf limits path rest w

def walkChildren (limits : Limits) (path : Path) : Json → Walk → Except Fault Walk
  | .null, w => .ok w
  | .arr items, w => walkItems limits path 0 items w
  | _, w => .ok (w.complain (.childrenNotList path))

/-- The walk through the children from the given place on. -/
def walkItems (limits : Limits) (path : Path) : (place : Nat) → List Json → Walk → Except Fault Walk
  | _, [], w => .ok w
  | i, v :: rest, w => do walkItems limits path (i + 1) rest (← walk limits (path.child i) v w)

end

/-- The walk through the roots from the given place on. -/
def walkRoots (limits : Limits) : (place : Nat) → List Json → Walk → Except Fault Walk
  | _, [], w => .ok w
  | i, v :: rest, w => do walkRoots limits (i + 1) rest (← walk limits ⟨i, []⟩ v w)

/-- The complaints about the components and the actions of those that were looked at. -/
def checkForest (limits : Limits) : Json → Except Fault (List Complaint × List Json)
  | .arr [] => .ok ([.noComponents], [])
  | .arr items => do
    let w ← walkRoots limits 0 items {}
    let many := if limits.maxComponents < w.actions.length then [.tooMany limits.maxComponents] else []
    return (w.complaints ++ many, w.actions)
  | _ => .ok ([.componentsNotList], [])

/-- A banner can be accepted and rejected. -/
def checkActions (actions : List Json) : List Complaint :=
  [ActionKind.acceptAll, ActionKind.rejectAll].filterMap fun a =>
    if actions.any (Json.same (.str (Named.name a))) then none else some (.noAction a)

/-- The complaints about a raw template. -/
def complaints (limits : Limits) : Json → Except Fault (List Complaint)
  | .obj fields => do
    let layout ← checkLayout limits ((Fields.get? "layout" fields).getD .null)
    let (components, actions) ← checkForest limits ((Fields.get? "components" fields).getD .null)
    let theme := checkTheme ((Fields.get? "theme" fields).getD .null)
    let settings ← checkSettings ((Fields.get? "settings" fields).getD .null)
    if !actions.all Json.isScalar then throw .wrongKind
    return layout ++ components ++ theme ++ settings ++ checkActions actions
  | _ => .ok [.notTemplate]

/-- The complaints about a template once its offsets are percentages. -/
def normalizedComplaints (limits : Limits) (template : Json) : Except Fault (List Complaint) :=
  match template with
  | .obj _ => do complaints limits (← Template.normalizePositions template)
  | _ => .ok [.notTemplate]

end ConsentBanner.Validation
