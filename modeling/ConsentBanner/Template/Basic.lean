import ConsentBanner.Named
import ConsentBanner.Number.Basic

/-!
Banner templates: a layout per device, a forest of components, a theme and settings.
-/

namespace ConsentBanner

/-- A class of viewports. -/
inductive Device where
  | desktop
  | tablet
  | mobile
deriving DecidableEq, Repr

instance : Named Device where
  all := [.desktop, .tablet, .mobile]
  name
    | .desktop => "desktop"
    | .tablet => "tablet"
    | .mobile => "mobile"

/-- An offset that places a component. -/
inductive Side where
  | top
  | left
  | right
  | bottom
deriving DecidableEq, Repr

instance : Named Side where
  all := [.top, .left, .right, .bottom]
  name
    | .top => "top"
    | .left => "left"
    | .right => "right"
    | .bottom => "bottom"

inductive ComponentKind where
  | text
  | button
  | link
  | logo
  | checkbox
  | toggle
  | container
  | panel
  | image
deriving DecidableEq, Repr

instance : Named ComponentKind where
  all := [.text, .button, .link, .logo, .checkbox, .toggle, .container, .panel, .image]
  name
    | .text => "text"
    | .button => "button"
    | .link => "link"
    | .logo => "logo"
    | .checkbox => "checkbox"
    | .toggle => "toggle"
    | .container => "container"
    | .panel => "panel"
    | .image => "image"

/-- The kinds whose content has to be a text. -/
def ComponentKind.bearsText : ComponentKind → Bool
  | .text | .button | .link => true
  | _ => false

inductive ActionKind where
  | acceptAll
  | rejectAll
  | savePreferences
  | showPreferences
  | close
  | none
  | custom
deriving DecidableEq, Repr

instance : Named ActionKind where
  all := [.acceptAll, .rejectAll, .savePreferences, .showPreferences, .close, .none, .custom]
  name
    | .acceptAll => "accept_all"
    | .rejectAll => "reject_all"
    | .savePreferences => "save_preferences"
    | .showPreferences => "show_preferences"
    | .close => "close"
    | .none => "none"
    | .custom => "custom"

/-- The label of a button of its own when no text is given. -/
def ActionKind.defaultLabel? : ActionKind → Option String
  | .acceptAll => some "Accept all"
  | .rejectAll => some "Reject all"
  | .showPreferences => some "Preferences"
  | _ => Option.none

inductive LayoutKind where
  | modal
  | banner
  | floating
deriving DecidableEq, Repr

instance : Named LayoutKind where
  all := [.modal, .banner, .floating]
  name
    | .modal => "modal"
    | .banner => "banner"
    | .floating => "floating"

/-- Where a banner is anchored in the viewport. -/
inductive Anchor where
  | top
  | bottom
  | center
  | topLeft
  | topRight
  | bottomLeft
  | bottomRight
deriving DecidableEq, Repr

instance : Named Anchor where
  all := [.top, .bottom, .center, .topLeft, .topRight, .bottomLeft, .bottomRight]
  name
    | .top => "top"
    | .bottom => "bottom"
    | .center => "center"
    | .topLeft => "top-left"
    | .topRight => "top-right"
    | .bottomLeft => "bottom-left"
    | .bottomRight => "bottom-right"

def Anchor.isCorner : Anchor → Bool
  | .topLeft | .topRight | .bottomLeft | .bottomRight => true
  | _ => false

inductive AnimationKind where
  | fade
  | slide
  | none
deriving DecidableEq, Repr

instance : Named AnimationKind where
  all := [.fade, .slide, .none]
  name
    | .fade => "fade"
    | .slide => "slide"
    | .none => "none"

/-- A width, height or unit: a number, or a text with a unit. -/
inductive Measure where
  | number (x : Number)
  | text (s : String)
deriving DecidableEq, Repr

def Measure.json : Measure → Json
  | number x => x.json
  | text s => .str s

/-- The layout on one class of devices. -/
structure DeviceLayout where
  kind : LayoutKind := .banner
  position : Anchor := .bottom
  width : Option Measure := none
  height : Option Measure := none
  backgroundColor : Option String := none
deriving DecidableEq, Repr

structure Layout where
  desktop : DeviceLayout := {}
  tablet : Option DeviceLayout := none
  mobile : Option DeviceLayout := none
deriving DecidableEq, Repr

/-- The layout of a device: its own, or that of the next wider one. -/
def Layout.forDevice (l : Layout) : Device → DeviceLayout
  | .desktop => l.desktop
  | .tablet => l.tablet.getD l.desktop
  | .mobile => (l.mobile <|> l.tablet).getD l.desktop

/-- The colours of a theme; colours with other names are kept as they are. -/
structure ThemeColors where
  primary : Option String := none
  secondary : Option String := none
  background : Option String := none
  text : Option String := none
  border : Option String := none
  others : List (String × Json) := []
deriving Repr

structure ThemeFonts where
  primary : Option String := none
  secondary : Option String := none
deriving DecidableEq, Repr

structure Animation where
  kind : AnimationKind := .fade
  /-- In milliseconds. -/
  duration : Number := .int 300
deriving DecidableEq, Repr

inductive Spacing where
  | measure (m : Measure)
  | sides (fields : List (String × Json))
deriving Repr

structure Theme where
  colors : ThemeColors := {}
  fonts : ThemeFonts := {}
  spacing : Option Spacing := none
  animation : Option Animation := none
deriving Repr

/-- A policy that acts by itself after a time in seconds. -/
structure TimedPolicy where
  enabled : Bool := false
  seconds : Number := .int 0
deriving DecidableEq, Repr

structure Behaviour where
  autoHide : TimedPolicy := {}
  reshow : TimedPolicy := {}
deriving DecidableEq, Repr

/-- The widest mobile and the widest tablet viewport, in pixels. -/
structure Breakpoints where
  mobile : Int
  tablet : Int
  mobile_pos : 0 < mobile := by decide
  mobile_lt_tablet : mobile < tablet := by decide
deriving DecidableEq, Repr

namespace Breakpoints

def standard : Breakpoints where
  mobile := 768
  tablet := 1024

def deviceForWidth (b : Breakpoints) (width : Number) : Device :=
  if width.atMost b.mobile then .mobile else if width.atMost b.tablet then .tablet else .desktop

def mobileMedia (b : Breakpoints) : String := "@media (max-width: " ++ toString b.mobile ++ "px)"

def tabletMedia (b : Breakpoints) : String :=
  "@media (max-width: " ++ toString b.tablet ++ "px) and (min-width: " ++ toString (b.mobile + 1) ++ "px)"

def desktopMedia (b : Breakpoints) : String :=
  "@media (min-width: " ++ toString (b.tablet + 1) ++ "px)"

end Breakpoints

inductive Corner where
  | bottomRight
  | bottomLeft
  | topRight
  | topLeft
deriving DecidableEq, Repr

instance : Named Corner where
  all := [.bottomRight, .bottomLeft, .topRight, .topLeft]
  name
    | .bottomRight => "bottom-right"
    | .bottomLeft => "bottom-left"
    | .topRight => "top-right"
    | .topLeft => "top-left"

/-- The vertical and the horizontal side of a corner. -/
def Corner.sides : Corner → Side × Side
  | .bottomRight => (.bottom, .right)
  | .bottomLeft => (.bottom, .left)
  | .topRight => (.top, .right)
  | .topLeft => (.top, .left)

/-- The floating button that reopens the preferences of a hidden banner. -/
structure FloatingIcon where
  enabled : Bool := true
  position : Corner := .bottomRight
  color : String := "#007bff"
  backgroundColor : String := "transparent"
  size : Int := 40
deriving DecidableEq, Repr

structure Settings where
  overlay : Bool := false
  showCloseButton : Bool := false
  animation : Option Animation := none
  behaviour : Behaviour := {}
  responsive : List (String × Json) := []
  /-- The breakpoints that `responsive` asks for. -/
  breakpoints : Breakpoints := .standard
  floatingIcon : FloatingIcon := {}
  /-- Texts of the preferences panel by language. -/
  texts : List (String × List (String × String)) := []
deriving Repr

/-- The content of a component: one text, or a text per language. -/
inductive Content where
  | plain (text : String)
  | localized (texts : List (String × String))
deriving DecidableEq, Repr

/-- The text under a language, unless it is missing or empty. -/
def Content.given? (language : String) (texts : List (String × String)) : Option String :=
  match Fields.get? language texts with
  | some "" => none
  | t => t

/-- The text for a language: its own, else the English one, else the first. The empty language has none of its own. -/
def Content.resolve (language : Option String) : Content → String
  | plain text => text
  | localized texts =>
    match (language.filter (!·.isEmpty)).bind (given? · texts) with
    | some t => t
    | none =>
      match given? "en" texts with
      | some t => t
      | none => (texts.head?.map (·.2)).getD ""

structure Action where
  kind : ActionKind := .none
  category : Option String := none
  url : Option String := none
deriving DecidableEq, Repr

/-- Blocks per device, in the order in which they were given. -/
abbrev PerDevice (α : Type) := List (Device × α)

def PerDevice.get? {α : Type} (d : Device) (blocks : PerDevice α) : Option α :=
  (blocks.find? fun (e, _) => e == d).map (·.2)

/-- What a component holds apart from its children. -/
structure ComponentData where
  id : String
  kind : ComponentKind
  content : Content := .plain ""
  style : PerDevice (List (String × Json)) := []
  position : PerDevice (List (Side × String)) := []
  action : Action := {}
  containerConfig : PerDevice (List (String × Json)) := []
  alt : Option String := none
  locked : Bool := false
deriving Repr

namespace ComponentData

/-- How a container arranges its children; free placement unless the desktop block says otherwise. -/
def displayMode (c : ComponentData) : Json :=
  match ((c.containerConfig.get? .desktop).getD []).find? fun (k, _) => k == "displayMode" with
  | some (_, mode) => if mode.isSet then mode else .str "libre"
  | none => .str "libre"

/-- Whether components are placed by their offsets under a parent: at the root, and inside containers
without an arrangement. -/
def placesFreely (parent : Option ComponentData) : Bool :=
  match parent with
  | none => true
  | some p => p.kind == .container && p.displayMode.asString? == some "libre"

def text (c : ComponentData) (language : Option String) : String := c.content.resolve language

def styleFor (c : ComponentData) (d : Device) : List (String × Json) := (c.style.get? d).getD []

def positionFor (c : ComponentData) (d : Device) : List (Side × String) := (c.position.get? d).getD []

end ComponentData

/-- A component with the components inside it. -/
inductive Component where
  | node (data : ComponentData) (children : List Component)
deriving Repr

namespace Component

def data : Component → ComponentData
  | node d _ => d

def children : Component → List Component
  | node _ cs => cs

section Walk

mutual

/-- The number of components in a tree. -/
def size : Component → Nat
  | node _ children => 1 + sizeAll children

def sizeAll : List Component → Nat
  | [] => 0
  | c :: rest => c.size + sizeAll rest

end

variable {σ τ : Type}

/-- Puts components on a stack, the last one first, each with the same mark. -/
def push (mark : τ) (cs : List Component) (stack : List (Component × τ)) : List (Component × τ) :=
  cs.foldr (fun c below => (c, mark) :: below) stack

theorem sizeAll_push (mark : τ) (cs : List Component) (stack : List (Component × τ)) :
    sizeAll ((push mark cs stack).map (·.1)) = sizeAll cs + sizeAll (stack.map (·.1)) := by
  induction cs with
  | nil => rw [push, List.foldr_nil, sizeAll, Nat.zero_add]
  | cons c cs ih =>
    rw [push, List.foldr_cons, ← push, List.map_cons, sizeAll, ih, sizeAll, Nat.add_assoc]

/-- Visits the components of a stack from its top. A visit gives the mark with which the components inside the visited
one go on the stack. -/
def walk (visit : σ → Component → τ → σ × τ) : List (Component × τ) → σ → σ
  | [], state => state
  | (node data children, mark) :: stack, state =>
    let (state, inner) := visit state (node data children) mark
    walk visit (push inner children stack) state
termination_by stack => sizeAll (stack.map (·.1))
decreasing_by
  rw [sizeAll_push, List.map_cons, sizeAll, size]
  omega

end Walk

end Component

/-- A banner template. -/
structure Template where
  id : Option String := none
  name : Option String := none
  layout : Layout := {}
  components : List Component := []
  theme : Theme := {}
  settings : Settings := {}
deriving Repr

namespace Template

/-- The configured animation, that of the settings before that of the theme. -/
def animation? (t : Template) : Option Animation := t.settings.animation <|> t.theme.animation

def animation (t : Template) : Animation := t.animation?.getD {}

/-- The animation with which the banner appears, if one is configured and not switched off. -/
def entryAnimation? (t : Template) : Option AnimationKind :=
  match t.animation? with
  | some a => if a.kind = .none then none else some a.kind
  | none => none

def bannerId (t : Template) : String :=
  match t.id with
  | some "" | none => "banner-default"
  | some id => "banner-" ++ id

end Template

end ConsentBanner
