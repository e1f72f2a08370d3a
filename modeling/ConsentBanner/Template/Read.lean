import ConsentBanner.Json.Members
import ConsentBanner.Schema
import ConsentBanner.Template.Position

/-!
Reading templates from documents.
-/

namespace ConsentBanner

open Reader

namespace Content

/-- The word for the shape of a value that cannot be content. -/
def shapeWord : Json → String
  | .bool _ => "bool"
  | .arr _ => "list"
  | .obj _ => "dict"
  | .null => "NoneType"
  | .int _ => "int"
  | .float _ => "float"
  | .str _ => "str"
  | .date _ => "date"
  | .moment _ => "datetime"
  | .bytes _ => "bytes"
  | .pair _ _ => "tuple"
  | .set _ => "set"
  | .keyed _ v => shapeWord v

/-- Content in the form that names its kind. -/
def readTagged (fields : List (String × Json)) (kind : Json) : Checked Content :=
  match kind with
  | .str "plain" => (plain <$> field fields ["text"] "" string).under "plain"
  | .str "localized" => (localized <$> field fields ["by_language"] [] (dictionary string)).under "localized"
  | kind => .reject (.unknownTag kind.display)

/-- The texts of a language map; languages without one are left out. -/
def readTexts (texts : List (String × Json)) : List (String × String) :=
  Fields.ofPairs (texts.filterMap fun field =>
    let v := field.2.bare
    if v.isNull then none else some ((Json.keyOf field).display, v.display))

def read : Reader Content
  | .null => .valid (plain "")
  | .str s => .valid (plain s)
  | .int n => .valid (plain (toString n))
  | .float x => .valid (plain x.text)
  | .obj fields =>
    match Fields.get? "kind" fields with
    | some kind => readTagged fields kind
    | none =>
      match Fields.get? "texts" fields, Fields.get? "text" fields with
      | some (.obj texts), _ => .valid (localized (readTexts texts))
      | _, some v => .valid (plain (if v.isSet then v.display else ""))
      | _, none => .reject (.custom "Unsupported content shape: dict")
  | v => .reject (.custom ("Unsupported content shape: " ++ shapeWord v))

end Content

namespace Action

def readFields (fields : List (String × Json)) : Checked Action :=
  Action.mk
    <$> field fields ["type"] .none (member ActionKind)
    <*> field fields ["category"] none (nullable string)
    <*> field fields ["url"] none (nullable string)

/-- An action by its name, or with its parts. -/
def read : Reader Action
  | .null => .valid {}
  | .str s => readFields [("type", .str s)]
  | v => model "ComponentAction" readFields v

end Action

/-- The blocks of a value that maps devices to blocks; other keys are left out. -/
def deviceBlocks : Json → Checked (List (Device × Json))
  | .null => .valid []
  | .obj fields => .valid (fields.filterMap fun (k, v) => (Named.ofName? k).map (·, v))
  | _ => .fault .lacksParts

/-- An object for a device; any unset value counts as none. -/
def readBlock : Reader (List (String × Json)) := fun v =>
  if v.isSet then dictionary any v else .valid []

def readBlocks (blocks : List (Device × Json)) : Checked (PerDevice (List (String × Json))) :=
  Checked.all (fun (d, v) => ((d, ·) <$> readBlock v).under (Named.name d)) blocks

/-- The offsets of a device that are given, as texts. -/
def readOffsets (fields : List (String × Json)) : Checked (List (Side × String)) :=
  Checked.all (fun (side, v) => ((side, ·) <$> string v).under (Named.name side))
    (fields.filterMap fun (k, v) =>
      if v.isNull then none else (Named.ofName? k : Option Side).map (·, Template.percentage v))

/-- The set blocks of a position; each has to have parts. -/
def positionBlocks : List (Device × Json) → Checked (List (Device × List (String × Json)))
  | [] => .valid []
  | (d, v) :: rest =>
    if v.isSet then
      match v with
      | .obj fields => ((d, fields) :: ·) <$> positionBlocks rest
      | _ => .fault .lacksParts
    else positionBlocks rest

def readPosition : Reader (PerDevice (List (Side × String))) := fun v =>
  (deviceBlocks v).andThen fun blocks =>
    (positionBlocks blocks).andThen fun blocks =>
      Checked.all (fun (d, fields) => ((d, ·) <$> readOffsets fields).under (Named.name d)) blocks

def readStyle : Reader (PerDevice (List (String × Json))) := fun v =>
  (deviceBlocks v).andThen readBlocks

/-- The arrangement of a container; any unset value counts as none. -/
def readContainerConfig : Reader (PerDevice (List (String × Json))) := fun v =>
  (deviceBlocks (if v.isSet then v else .null)).andThen readBlocks

namespace Component

mutual

def read : Json → Checked Component
  | .obj fields =>
    (fun id kind content style position action children config alt locked =>
      node { id := id, kind := kind, content := content, style := style, position := position,
             action := action, containerConfig := config, alt := alt, locked := locked } children)
    <$> requiredField fields "id" string
    <*> requiredField fields "type" (member ComponentKind)
    <*> field fields ["content"] (.plain "") Content.read
    <*> field fields ["style"] [] readStyle
    <*> field fields ["position"] [] readPosition
    <*> field fields ["action"] {} Action.read
    <*> readChildrenOf fields
    <*> field fields ["containerConfig", "container_config"] [] readContainerConfig
    <*> field fields ["alt"] none (nullable string)
    <*> field fields ["locked"] false bool
  | _ => .reject (.notModel "Component")

/-- The children among the fields of a component; any unset value counts as none. -/
def readChildrenOf : List (String × Json) → Checked (List Component)
  | [] => .valid []
  | (k, v) :: rest => if k == "children" then (readChildren v).under "children" else readChildrenOf rest

def readChildren : Json → Checked (List Component)
  | .arr items => readAll 0 items
  | v => if v.isSet then .reject .notList else .valid []

/-- The components of a list from the given position on. -/
def readAll : (position : Nat) → List Json → Checked (List Component)
  | _, [] => .valid []
  | i, v :: rest => List.cons <$> (read v).under (toString i) <*> readAll (i + 1) rest

end

/-- A list of components. -/
def readList : Json → Checked (List Component)
  | .arr items => readAll 0 items
  | _ => .reject .notList

end Component

/-- The measure that a text is in the form of bytes: a number where it is one. -/
def Measure.ofText (s : String) : Measure :=
  match intOfText s, numberOfText s with
  | .valid n, _ => .number (.int n)
  | _, .valid x => .number (.float x)
  | _, _ => .text s

/-- A width, height or unit, kept exactly as given; otherwise the issues of each kind that it might have. -/
def Measure.read : Reader Measure
  | .int n => .valid (.number (.int n))
  | .float x => .valid (.number (.float x))
  | .str s => .valid (.text s)
  | .bool b => .valid (.number (.int (if b then 1 else 0)))
  | .bytes bs =>
    match Text.ofBytes? bs with
    | some cs => .valid (ofText (String.ofList cs))
    | none => .invalid [⟨["int"], .unreadableInt⟩, ⟨["float"], .unreadableNumber⟩, ⟨["str"], .notUnicode⟩]
  | _ => .invalid [⟨["int"], .notInt⟩, ⟨["float"], .notNumber⟩, ⟨["str"], .notString⟩]

/-- A measure, or sides by name. -/
def Spacing.read : Reader Spacing := fun v =>
  match Measure.read v with
  | .valid m => .valid (.measure m)
  | .fault f => .fault f
  | .invalid issues =>
    match (dictionary any v).under "dict[str,any]" with
    | .valid fields => .valid (.sides fields)
    | .fault f => .fault f
    | .invalid more => .invalid (issues ++ more)

def DeviceLayout.read : Reader DeviceLayout :=
  model "DeviceLayout" fun fields =>
    DeviceLayout.mk
      <$> field fields ["type"] .banner (member LayoutKind)
      <*> field fields ["position"] .bottom (member Anchor)
      <*> field fields ["width"] none (nullable Measure.read)
      <*> field fields ["height"] none (nullable Measure.read)
      <*> field fields ["backgroundColor", "background_color"] none (nullable string)

def Layout.read : Reader Layout :=
  model "Layout" fun fields =>
    Layout.mk
      <$> field fields ["desktop"] {} DeviceLayout.read
      <*> field fields ["tablet"] none (nullable DeviceLayout.read)
      <*> field fields ["mobile"] none (nullable DeviceLayout.read)

def ThemeColors.read : Reader ThemeColors :=
  model "ThemeColors" fun fields =>
    (fun primary secondary background text border others =>
      { primary, secondary, background, text, border, others : ThemeColors })
    <$> field fields ["primary"] none (nullable string)
    <*> field fields ["secondary"] none (nullable string)
    <*> field fields ["background"] none (nullable string)
    <*> field fields ["text"] none (nullable string)
    <*> field fields ["border"] none (nullable string)
    <*> otherFields ["primary", "secondary", "background", "text", "border"] fields

def ThemeFonts.read : Reader ThemeFonts :=
  model "ThemeFonts" fun fields =>
    ThemeFonts.mk
      <$> field fields ["primary"] none (nullable string)
      <*> field fields ["secondary"] none (nullable string)

def Animation.read : Reader Animation :=
  model "AnimationSettings" fun fields =>
    Animation.mk
      <$> field fields ["type"] .fade (member AnimationKind)
      <*> field fields ["duration"] (.int 300) nonNegative

def Theme.read : Reader Theme :=
  model "Theme" fun fields =>
    Theme.mk
      <$> field fields ["colors"] {} ThemeColors.read
      <*> field fields ["fonts"] {} ThemeFonts.read
      <*> field fields ["spacing"] none (nullable Spacing.read)
      <*> field fields ["animation"] none (nullable Animation.read)

/-- A policy whose time stands under the given key. -/
def TimedPolicy.read (name key : String) : Reader TimedPolicy :=
  model name fun fields =>
    TimedPolicy.mk
      <$> field fields ["enabled"] false bool
      <*> field fields [key] (.int 0) nonNegative

def Behaviour.read : Reader Behaviour :=
  model "BehaviourSettings" fun fields =>
    Behaviour.mk
      <$> field fields ["autoHide", "auto_hide"] {} (TimedPolicy.read "AutoHideSettings" "delay")
      <*> field fields ["reshow"] {} (TimedPolicy.read "ReshowSettings" "interval")

def positiveInt : Reader Int := fun v =>
  (int v).andThen fun n => if 0 < n then .valid n else .reject (.notAbove 0)

/-- Breakpoints in ascending order. -/
def Breakpoints.ofBounds (mobile tablet : Int) : Checked Breakpoints :=
  if h : 0 < mobile ∧ mobile < tablet then .valid ⟨mobile, tablet, h.1, h.2⟩
  else
    .reject (.custom ("Mobile breakpoint (" ++ toString mobile ++ "px) must be below tablet breakpoint (" ++
      toString tablet ++ "px)"))

def Breakpoints.read : Reader Breakpoints :=
  model "Breakpoints" fun fields =>
    (Prod.mk <$> field fields ["mobile"] 768 positiveInt <*> field fields ["tablet"] 1024 positiveInt).andThen
      fun (mobile, tablet) => ofBounds mobile tablet

/-- The parenthesised part of a colour function. -/
def isColorArguments (cs : List Char) : Bool :=
  match cs with
  | '(' :: rest =>
    rest.getLast? == some ')' && 1 < rest.length &&
      rest.dropLast.all fun c => c.isDigit || c == '.' || c == ',' || c == '%' || Text.isBlank c
  | _ => false

/-- A hexadecimal colour, a colour function or a name. -/
def isCssColor (cs : List Char) : Bool :=
  match cs with
  | '#' :: digits => 3 ≤ digits.length && digits.length ≤ 8 && digits.all Text.isHexDigit
  | cs =>
    let name := cs.takeWhile Char.isAlpha
    let rest := cs.dropWhile Char.isAlpha
    if rest.isEmpty then !name.isEmpty
    else ["rgb", "rgba", "hsl", "hsla"].contains (String.ofList name) && isColorArguments rest

def cssColor : Reader String := fun v =>
  (string v).andThen fun s =>
    let color := Text.trim s
    if isCssColor color.toList then .valid color
    else .reject (.custom ("Not a CSS colour: " ++ Text.quoted color))

def FloatingIcon.read : Reader FloatingIcon :=
  model "FloatingIconSettings" fun fields =>
    FloatingIcon.mk
      <$> field fields ["enabled"] true bool
      <*> field fields ["position"] .bottomRight (oneOf Corner)
      <*> field fields ["color"] "#007bff" cssColor
      <*> field fields ["backgroundColor", "background_color"] "transparent" cssColor
      <*> field fields ["size"] 40 fun v =>
        (intAtLeast 16 v).andThen fun n => if n ≤ 128 then .valid n else .reject (.above 128)

/-- The breakpoints of a responsive block; any unset value counts as none. -/
def responsiveBreakpoints (fields : List (String × Json)) : Checked Breakpoints :=
  let value := (Fields.get? "breakpoints" fields).getD .null
  match if value.isSet then Breakpoints.read value else .valid .standard with
  | .invalid (i :: _) => .reject (.custom ("Invalid responsive breakpoints: " ++ i.problem.message))
  | x => x

def readResponsive : Reader (List (String × Json) × Breakpoints) := fun v =>
  if !v.isSet then .valid ([], .standard)
  else
    match v with
    | .obj fields =>
      (responsiveBreakpoints fields).andThen fun breakpoints => (·, breakpoints) <$> dictionary any (.obj fields)
    | _ => .reject .notObject

def Settings.read : Reader Settings :=
  model "Settings" fun fields =>
    (fun overlay closeButton animation behaviour (responsive, breakpoints) icon texts =>
      { overlay := overlay, showCloseButton := closeButton, animation := animation, behaviour := behaviour,
        responsive := responsive, breakpoints := breakpoints, floatingIcon := icon, texts := texts : Settings })
    <$> field fields ["overlay"] false bool
    <*> field fields ["showCloseButton", "show_close_button"] false bool
    <*> field fields ["animation"] none (nullable Animation.read)
    <*> field fields ["behaviour"] {} Behaviour.read
    <*> field fields ["responsive"] ([], .standard) readResponsive
    <*> field fields ["floatingIcon", "floating_icon"] {} FloatingIcon.read
    <*> field fields ["texts"] [] (dictionary (dictionary string))

namespace Template

/-- The identifier in any form, as a text. -/
def readId : Reader (Option String)
  | .null => .valid none
  | v => .valid (some v.display)

def read : Reader Template :=
  model "BannerTemplate" fun fields =>
    Template.mk
      <$> field fields ["_id", "id"] none readId
      <*> field fields ["name"] none (nullable string)
      <*> field fields ["layout"] {} Layout.read
      <*> field fields ["components"] [] Component.readList
      <*> field fields ["theme"] {} Theme.read
      <*> field fields ["settings"] {} Settings.read

end Template

end ConsentBanner
