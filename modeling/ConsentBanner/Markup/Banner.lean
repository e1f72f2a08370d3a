import ConsentBanner.Markup.Collapse
import ConsentBanner.Markup.Component

/-!
The markup of banners.
-/

namespace ConsentBanner.Markup

/-- The width of a banner in percent of the viewport. -/
def widthPercent : LayoutKind → String
  | .modal => "60"
  | .floating => "50"
  | .banner => "100"

def bannerClass (l : DeviceLayout) (entry : Option AnimationKind) : String :=
  "cmp-banner cmp-banner--" ++ Named.name l.kind ++
    (match entry with
      | some a => " cmp-banner--" ++ Named.name a
      | none => "")

/-- The corner and margin of a floating banner. -/
def floatingAttributes (l : DeviceLayout) : List (String × String) :=
  if l.kind = .floating then [
    ("data-floating-corner", if l.position.isCorner then Named.name l.position else "bottom-right"),
    ("data-floating-margin", "20")]
  else []

/-- The root element of a banner, inside a container of its own when it is modal. -/
def bannerNode (l : DeviceLayout) (entry : Option AnimationKind) (body : List Node) : Node :=
  let banner := element "div" ([
    ("id", "cmp-banner"), ("class", bannerClass l entry), ("data-position", Named.name l.position),
    ("role", "dialog")] ++ (if l.kind = .modal then [("aria-modal", "true")] else []) ++ [
    ("aria-labelledby", "cmp-title"), ("aria-describedby", "cmp-description"),
    ("data-width", widthPercent l.kind)] ++ floatingAttributes l) body
  if l.kind = .modal then
    element "div" [
      ("id", "cmp-modal-container"), ("class", "cmp-modal-container"), ("data-cmp-role", "modal-container")]
      [banner]
  else banner

def fallbackButton (action color label : String) : Node :=
  element "button" [
    ("type", "button"), ("data-cmp-action", action),
    ("style", "background:" ++ color ++
      ";color:white;border:none;padding:8px 15px;cursor:pointer;border-radius:4px;")]
    [.text label]

/-- The banner with a sentence and two buttons that stands in where there is no other. -/
def fallbackNode (l : DeviceLayout) : Node :=
  element "div" [
    ("id", "cmp-banner"), ("class", bannerClass l none), ("data-position", Named.name l.position),
    ("role", "dialog"), ("aria-labelledby", "cmp-title"), ("aria-describedby", "cmp-description")] [
    element "div" [("style", "flex:1")] [
      element "p" [("id", "cmp-description"), ("style", "margin:0")]
        [.text "This site uses cookies to improve your experience."]],
    element "div" [("style", "display:flex;gap:10px")] [
      fallbackButton "reject_all" "#f44336" "Reject",
      fallbackButton "accept_all" "#4CAF50" "Accept"]]

def fallback (l : DeviceLayout) : String := (fallbackNode l).render

/-- The markup of a template in a language; the fallback when it has no components. -/
def ofTemplate (language : String) (t : Template) : String :=
  if t.components.isEmpty then fallback t.layout.desktop
  else
    collapse (bannerNode t.layout.desktop t.entryAnimation? (forestNodes language none 0 t.components)).render

end ConsentBanner.Markup
