import ConsentBanner.Stylesheet.Base
import ConsentBanner.Stylesheet.Compact

/-!
The rules of the desktop layout that a page around the banner cannot override.
-/

namespace ConsentBanner.Stylesheet

def kindSelector (kind : LayoutKind) : String :=
  let name := Named.name kind
  "#cmp-banner.cmp-banner--" ++ name ++ ", .cmp-banner.cmp-banner--" ++ name

def importantRule (selector : String) (declarations : List (String × String)) : String :=
  textRule selector (declarations.map fun (property, v) => (property, v ++ " !important"))

def modalRules (l : DeviceLayout) : List String := [
  importantRule "#cmp-modal-container, .cmp-modal-container" [
    ("position", "fixed"), ("top", "0"), ("left", "0"), ("right", "0"), ("bottom", "0"), ("width", "100%"),
    ("height", "100%"), ("background-color", "rgba(0, 0, 0, 0.5)"), ("display", "flex"),
    ("align-items", "center"), ("justify-content", "center"), ("z-index", "2147483646"),
    ("box-sizing", "border-box")],
  importantRule (kindSelector .modal) [
    ("display", "block"), ("position", "relative"), ("margin", "0 auto"), ("width", "60%"),
    ("min-width", "40%"), ("max-width", "90%"), ("max-height", "90vh"), ("overflow-y", "auto"),
    ("background-color", Text.orDefault l.backgroundColor "#ffffff"), ("border-radius", "8px"),
    ("box-shadow", "0 4px 20px rgba(0, 0, 0, 0.4)"), ("padding", "20px"), ("top", "auto"),
    ("left", "auto"), ("right", "auto"), ("bottom", "auto"), ("transform", "none"),
    ("box-sizing", "border-box")]]

/-- The corner of a floating banner: its anchor's when that is one. -/
def floatingCorner : Anchor → Corner
  | .topLeft => .topLeft
  | .topRight => .topRight
  | .bottomLeft => .bottomLeft
  | _ => .bottomRight

def floatingRules (l : DeviceLayout) : List String :=
  let (vertical, horizontal) := (floatingCorner l.position).sides
  [importantRule (kindSelector .floating) [
    ("display", "block"), ("position", "fixed"), (Named.name vertical, "20px"),
    (Named.name horizontal, "20px"), ("width", "50%"), ("min-width", "40%"), ("max-width", "70%"),
    ("background-color", Text.orDefault l.backgroundColor "#ffffff"), ("border-radius", "8px"),
    ("box-shadow", "0 4px 20px rgba(0, 0, 0, 0.4)"), ("padding", "20px"), ("box-sizing", "border-box")]]

/-- The edge along which a banner lies. -/
def edge : Anchor → Side
  | .top | .topLeft | .topRight => .top
  | _ => .bottom

def bannerRules (l : DeviceLayout) : List String := [
  importantRule (kindSelector .banner) [
    ("display", "block"), ("position", "fixed"), (Named.name (edge l.position), "0"), ("left", "0"),
    ("right", "0"), ("width", "100%"), ("background-color", Text.orDefault l.backgroundColor "#ffffff"),
    ("padding", "20px"), ("box-sizing", "border-box")]]

/-- The rules for the kind of a layout, compact. -/
def ofKind (l : DeviceLayout) : String :=
  compact (lines (match l.kind with
    | .modal => modalRules l
    | .floating => floatingRules l
    | .banner => bannerRules l))

end ConsentBanner.Stylesheet
