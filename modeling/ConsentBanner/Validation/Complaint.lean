import ConsentBanner.Json.Display
import ConsentBanner.Template.Basic

/-!
Complaints about a template, each with its wording.
-/

namespace ConsentBanner.Validation

/-- The way to a component: its root's place in the forest, then places among children. -/
structure Path where
  root : Nat
  steps : List Nat := []
deriving DecidableEq, Repr

namespace Path

def depth (p : Path) : Nat := p.steps.length

def child (p : Path) (i : Nat) : Path := { p with steps := p.steps ++ [i] }

def text (p : Path) : String :=
  "components[" ++ toString p.root ++ "]" ++
    String.join (p.steps.map fun i => ".children[" ++ toString i ++ "]")

end Path

/-- What a template breaks. -/
inductive Complaint where
  | notTemplate
  | layoutNotObject
  | desktopNotObject
  | deviceNotObject (device : Device)
  | layoutKind (device : Device)
  | layoutAnchor (device : Device)
  | tooWide (device : Device) (limit : Int)
  | tooHigh (device : Device) (limit : Int)
  | componentsNotList
  | noComponents
  | tooDeep (limit : Int)
  | notComponent (path : Path)
  | noId (path : Path)
  | duplicateId (id : Json)
  | componentKind (path : Path)
  | actionKind (path : Path)
  | noText (kind : ComponentKind) (path : Path)
  | longText (path : Path)
  | offset (device : Device) (side : Side) (path : Path)
  | positionNotObject (path : Path)
  | childrenNotList (path : Path)
  | tooMany (limit : Int)
  | themeNotObject
  | color (name : String) (value : Json)
  | noPrimaryFont
  | settingsNotObject
  | animationKind
  | animationDuration
  | policySwitch (policy : String)
  | policyTime (policy key : String)
  | noAction (action : ActionKind)
deriving Repr

def Complaint.message : Complaint → String
  | notTemplate => "Invalid banner configuration structure"
  | layoutNotObject => "Invalid layout configuration"
  | desktopNotObject => "layout.desktop is required and must be an object"
  | deviceNotObject d => "layout." ++ Named.name d ++ " must be an object"
  | layoutKind d => "Invalid layout " ++ Named.name d ++ ".type"
  | layoutAnchor d => "Invalid layout " ++ Named.name d ++ ".position"
  | tooWide d limit => Named.name d ++ ": width cannot exceed " ++ toString limit ++ "px"
  | tooHigh d limit => Named.name d ++ ": height cannot exceed " ++ toString limit ++ "px"
  | componentsNotList => "Components must be an array"
  | noComponents => "At least one component is required"
  | tooDeep limit => "Nesting depth cannot exceed " ++ toString limit ++ " levels"
  | notComponent p => "Invalid component at " ++ p.text
  | noId p => "Missing component ID at " ++ p.text
  | duplicateId id => "Duplicate component ID: " ++ id.display
  | componentKind p => "Invalid component type at " ++ p.text
  | actionKind p => "Invalid action type at " ++ p.text
  | noText kind p => "Missing text content for " ++ Named.name kind ++ " at " ++ p.text
  | longText p => "Text content too long at " ++ p.text
  | offset d side p =>
    "Position " ++ Named.name d ++ "." ++ Named.name side ++ " must be a percentage or pixel value at " ++ p.text
  | positionNotObject p => "position must be an object at " ++ p.text
  | childrenNotList p => "children must be an array at " ++ p.text
  | tooMany limit => "Cannot exceed " ++ toString limit ++ " components"
  | themeNotObject => "Invalid theme configuration"
  | color name value => "Invalid color format for " ++ name ++ ": " ++ value.display
  | noPrimaryFont => "Primary font is required in theme"
  | settingsNotObject => "Invalid settings configuration"
  | animationKind => "Invalid animation type in settings"
  | animationDuration => "Invalid animation duration in settings"
  | policySwitch policy => policy ++ ".enabled must be a boolean"
  | policyTime policy key => policy ++ "." ++ key ++ " must be a non-negative number"
  | noAction action => "No component with " ++ Named.name action ++ " action found"

end ConsentBanner.Validation
