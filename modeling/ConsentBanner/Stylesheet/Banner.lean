import ConsentBanner.Stylesheet.Base
import ConsentBanner.Stylesheet.Compact
import ConsentBanner.Stylesheet.Component
import ConsentBanner.Template.Write

/-!
The stylesheet of a banner and of its floating button: how the banner is laid out on each class of devices, appears, looks
and goes.
-/

namespace ConsentBanner.Stylesheet

/-- The offsets of an anchored banner. -/
def anchorDeclarations : Anchor → List (String × String)
  | .top => [("top", "0"), ("left", "0"), ("right", "0")]
  | .bottom => [("bottom", "0"), ("left", "0"), ("right", "0")]
  | .center => [("top", "50%"), ("left", "50%"), ("transform", "translate(-50%, -50%)")]
  | .topLeft => [("top", "0"), ("left", "0")]
  | .topRight => [("top", "0"), ("right", "0")]
  | .bottomLeft => [("bottom", "0"), ("left", "0")]
  | .bottomRight => [("bottom", "0"), ("right", "0")]

/-- A length in pixels without a fraction of zero. -/
def pixels : Number → Except Failure String
  | .int n => if (Double.ofInt n).isFinite then .ok (toString n ++ "px") else .error .hugeLength
  | .float x =>
    if x.isIntegral then .ok (toString (x.truncate?.getD 0) ++ "px") else .ok (x.text ++ "px")

/-- A width or height; none when it is not given. -/
def dimension : Option Measure → Except Failure (Option String)
  | none => .ok none
  | some (.text s) => .ok (if s.isEmpty then none else some s)
  | some (.number x) => some <$> pixels x

def bannerSelector (kind : LayoutKind) : String := ".cmp-banner--" ++ Named.name kind

/-- The desktop rule, which has a value for everything. -/
def desktopRule (l : DeviceLayout) : Except Failure String := do
  let width ← dimension l.width
  let height ← dimension l.height
  return textRule (bannerSelector l.kind) (("position", "fixed") :: anchorDeclarations l.position ++ [
    ("width", width.getD "100%"), ("height", height.getD "auto"),
    ("background-color", Text.orDefault l.backgroundColor "#ffffff"),
    ("transition", "transform 0.3s ease, opacity 0.3s ease")])

/-- The rule of a narrower device, which changes what it gives. -/
def deviceRule (l : DeviceLayout) : Except Failure String := do
  let width ← dimension l.width
  let height ← dimension l.height
  return textRule (bannerSelector l.kind) (("position", "fixed") :: anchorDeclarations l.position ++ [
    ("width", width.getD ""), ("height", height.getD ""), ("background-color", l.backgroundColor.getD "")])

def kindRule : LayoutKind → String
  | .modal =>
    textRule ".cmp-banner--modal" [
      ("box-shadow", "0 4px 30px rgba(0, 0, 0, 0.3)"), ("border-radius", "8px"), ("max-height", "90vh"),
      ("overflow-y", "auto")]
  | .floating =>
    textRule ".cmp-banner--floating" [
      ("box-shadow", "0 4px 20px rgba(0, 0, 0, 0.15)"), ("border-radius", "8px"), ("max-width", "400px")]
  | .banner => textRule ".cmp-banner--banner" [("box-shadow", "0 -2px 10px rgba(0, 0, 0, 0.1)")]

def tabletMedia (b : Breakpoints) (l : DeviceLayout) : Except Failure String := do
  return media b.tabletMedia [
    ← deviceRule l,
    textRule ".cmp-banner--modal" [("width", "90%"), ("max-width", "550px")],
    textRule ".cmp-banner--floating" [("max-width", "350px")]]

def mobileMedia (b : Breakpoints) (l : DeviceLayout) : Except Failure String := do
  return media b.mobileMedia [
    ← deviceRule l,
    textRule ".cmp-banner--modal" [("width", "95%"), ("max-width", "400px"), ("max-height", "80vh")],
    textRule ".cmp-banner--floating" [
      ("width", "calc(100% - 20px)"), ("max-width", "none"), ("margin", "0 10px")],
    textRule ".cmp-button" [("padding", "10px 16px"), ("font-size", "16px")]]

def ifGiven (write : DeviceLayout → Except Failure String) : Option DeviceLayout → Except Failure String
  | some l => write l
  | none => .ok ""

/-- The rules of a layout. -/
def layout (l : Layout) (b : Breakpoints) : Except Failure String := do
  let desktop ← desktopRule l.desktop
  let tablet ← ifGiven (tabletMedia b) l.tablet
  let mobile ← ifGiven (mobileMedia b) l.mobile
  return lines [desktop, kindRule l.desktop.kind, tablet, mobile]

/-- A duration in whole milliseconds; zero stands for the default. -/
def milliseconds (duration : Number) : Except Failure Int :=
  if duration.isZero then .ok 300
  else
    match duration with
    | .int n => .ok n
    | .float .nan => .error .undefinedDuration
    | .float (.infinite _) => .error .endlessDuration
    | .float x => .ok (x.truncate?.getD 0)

/-- A keyframe animation between two blocks of declarations. -/
def keyframes (name start finish : String) : String :=
  "@keyframes " ++ name ++ " \x7bfrom \x7b" ++ start ++ "\x7d to \x7b" ++ finish ++ "\x7d\x7d"

def fadeRules (duration : Int) : List String := [
  keyframes "cmpFadeIn" "opacity: 0;" "opacity: 1;",
  keyframes "cmpFadeOut" "opacity: 1;" "opacity: 0;",
  textRule ".cmp-banner--fade" [("animation", "cmpFadeIn " ++ toString duration ++ "ms ease-out")],
  textRule ".cmp-banner--fade.cmp-banner--hiding"
    [("animation", "cmpFadeOut " ++ toString duration ++ "ms ease-in")]]

/-- A side from which banners slide in. -/
structure Slide where
  name : String
  axis : String
  offset : String
  /-- The anchors whose banners come from this side. -/
  anchors : List Anchor

def slides : List Slide := [
  ⟨"Bottom", "translateY", "100%", [.bottom]⟩,
  ⟨"Top", "translateY", "-100%", [.top]⟩,
  ⟨"Right", "translateX", "100%", [.topRight, .bottomRight]⟩,
  ⟨"Left", "translateX", "-100%", [.topLeft, .bottomLeft]⟩]

def slideRules (duration : Int) (s : Slide) : List String :=
  let away := "transform: " ++ s.axis ++ "(" ++ s.offset ++ "); opacity: 0;"
  let home := "transform: " ++ s.axis ++ "(0); opacity: 1;"
  let selectors := s.anchors.map fun a => ".cmp-banner--slide[data-position=\"" ++ Named.name a ++ "\"]"
  [keyframes ("cmpSlideIn" ++ s.name) away home,
    keyframes ("cmpSlideOut" ++ s.name) home away,
    textRule (Text.join ", " selectors)
      [("animation", "cmpSlideIn" ++ s.name ++ " " ++ toString duration ++ "ms ease-out")],
    textRule (Text.join ", " (selectors.map (· ++ ".cmp-banner--hiding")))
      [("animation", "cmpSlideOut" ++ s.name ++ " " ++ toString duration ++ "ms ease-in")]]

/-- The rules of an animation; nothing without one. -/
def motion (a : Option Animation) : Except Failure String := do
  match a with
  | none | some ⟨.none, _⟩ => return ""
  | some ⟨.fade, duration⟩ => return Text.join "\n" (fadeRules (← milliseconds duration))
  | some ⟨.slide, duration⟩ =>
    let duration ← milliseconds duration
    return Text.join "\n" (slides.flatMap (slideRules duration))

/-- A part of an integer size, given as a decimal in tenths, rounded to the nearest integer. -/
def partOf (size : Int) (tenths : Nat) : Int :=
  (((Double.ofInt size).mul (Double.ofDecimal false tenths (-1))).round?).getD 0

def iconRules (i : FloatingIcon) : List String :=
  let (vertical, horizontal) := i.position.sides
  let (direction, offset) := if vertical == .top then ("Top", "-100px") else ("Bottom", "100px")
  let size := toString i.size ++ "px"
  let image := toString (partOf i.size 8) ++ "px"
  [keyframes ("cmpIconIn" ++ direction) ("transform: translateY(" ++ offset ++ ") scale(0.5); opacity: 0;")
      "transform: translateY(0) scale(1); opacity: 1;",
    textRule "#cmp-floating-icon" [
      ("position", "fixed"), (Named.name vertical, "20px"), (Named.name horizontal, "20px"),
      ("width", size), ("height", size), ("display", "flex"), ("align-items", "center"),
      ("justify-content", "center"), ("padding", "0"), ("border", "none"),
      ("border-radius", toString (partOf i.size 2) ++ "px"), ("color", i.color),
      ("background", i.backgroundColor),
      ("box-shadow",
        if i.backgroundColor == "transparent" then "none" else "0 2px 8px rgba(0, 0, 0, 0.15)"),
      ("cursor", "pointer"), ("z-index", "2147483646"), ("transition", "transform 0.3s ease"),
      ("animation", "cmpIconIn" ++ direction ++ " 0.5s ease-out both")],
    textRule "#cmp-floating-icon:hover" [("transform", "scale(1.1)")],
    textRule "#cmp-floating-icon svg" [("width", image), ("height", image)]]

/-- The rules of the floating button; nothing when there is none. -/
def icon (i : Option FloatingIcon) : String :=
  match i with
  | some i => if i.enabled then Text.join "\n" (iconRules i) else ""
  | none => ""

/-- Rules that make every banner accessible. -/
def accessibility : String := Text.join "\n" [
  textRule (".cmp-banner:focus, .cmp-button:focus, .cmp-link:focus, .cmp-checkbox input:focus, " ++
      ".cmp-toggle input:focus + .cmp-toggle-slider")
    [("outline", "2px solid rgba(0, 120, 212, 0.6)"), ("outline-offset", "2px")],
  media "@media (forced-colors: active)" [
    textRule ".cmp-button" [("border", "2px solid ButtonText")],
    textRule ".cmp-checkbox input" [("border", "1px solid ButtonText")],
    textRule ".cmp-toggle-slider" [("border", "1px solid ButtonText")]],
  textRule ".cmp-visually-hidden" [
    ("position", "absolute"), ("width", "1px"), ("height", "1px"), ("padding", "0"), ("margin", "-1px"),
    ("overflow", "hidden"), ("clip", "rect(0, 0, 0, 0)"), ("white-space", "nowrap"), ("border", "0")]]

/-- Classes that hide on one class of devices, and classes of flexible boxes. -/
def responsive (b : Breakpoints) : String := Text.join "\n" [
  media b.mobileMedia [textRule ".cmp-hide-mobile" [("display", "none !important")]],
  media b.tabletMedia [textRule ".cmp-hide-tablet" [("display", "none !important")]],
  media b.desktopMedia [textRule ".cmp-hide-desktop" [("display", "none !important")]],
  textRule ".cmp-flex" [("display", "flex !important")],
  textRule ".cmp-flex-col" [("flex-direction", "column !important")],
  textRule ".cmp-items-center" [("align-items", "center !important")],
  textRule ".cmp-justify-between" [("justify-content", "space-between !important")],
  textRule ".cmp-gap-2" [("gap", "8px !important")],
  textRule ".cmp-gap-4" [("gap", "16px !important")]]

/-- The stylesheet of a template, compact. -/
def ofTemplate (t : Template) : Except Failure String := do
  let b := t.settings.breakpoints
  let layoutRules ← layout t.layout b
  let motionRules ← motion t.animation?
  return compact (lines [base t.theme, layoutRules, components (Arena.ofComponents t.components) b, motionRules,
    icon (some t.settings.floatingIcon), accessibility, responsive b])

/-- The stylesheet of a banner that has no other. -/
def fallback : String :=
  "#cmp-banner\x7bposition:fixed;bottom:0;left:0;right:0;display:flex;align-items:center;" ++
  "justify-content:space-between;gap:10px;padding:15px;background:#ffffff;color:#000000;" ++
  "font-family:sans-serif;box-shadow:0 -2px 10px rgba(0,0,0,0.1);z-index:2147483647\x7d"

end ConsentBanner.Stylesheet
