import ConsentBanner.Json.Display
import ConsentBanner.Markup.Node
import ConsentBanner.Template.Basic
import ConsentBanner.Text.Blank

/-!
The markup of components.
-/

namespace ConsentBanner.Markup

/-- A class, and that of locked components when one is locked. -/
def lockedClass (c : ComponentData) (name : String) : String :=
  if c.locked then name ++ " cmp-locked" else name

/-- The text of a component, or the label of its action when it has none. -/
def label (c : ComponentData) (text : String) : String :=
  if text.isEmpty then c.action.kind.defaultLabel?.getD "" else text

def textNode (c : ComponentData) (text : String) (children : List Node) : Node :=
  let id := if c.id == "cmp-title" || c.id == "cmp-description" then [("id", c.id)] else []
  element "div" ([("class", lockedClass c "cmp-text"), ("data-component-id", c.id)] ++ id)
    (.text text :: children)

/-- A button; its accessible name is its escaped label, or its action when it has no label. -/
def buttonNode (c : ComponentData) (text : String) (children : List Node) : Node :=
  let action := Named.name c.action.kind
  let name := escape (label c text)
  element "button" [
    ("class", lockedClass c "cmp-button"), ("data-component-id", c.id), ("data-cmp-action", action),
    ("type", "button"), ("aria-label", if name.isEmpty then action else name)]
    (.text (label c text) :: children)

/-- The address of a link: that of a custom action, or the page itself. -/
def linkTarget (a : Action) : String :=
  match a.kind, a.url with
  | .custom, some url => if url.isEmpty then "#" else url
  | _, _ => "#"

def linkNode (c : ComponentData) (text : String) (children : List Node) : Node :=
  element "a" [
    ("class", lockedClass c "cmp-link"), ("data-component-id", c.id),
    ("data-cmp-action", Named.name c.action.kind), ("href", linkTarget c.action), ("role", "button")]
    (.text (label c text) :: children)

def inputNode (c : ComponentData) : Node :=
  .empty true "input" (valued [("type", "checkbox"), ("data-category", c.action.category.getD "")])

def checkboxNode (c : ComponentData) (text : String) (children : List Node) : Node :=
  element "label" [("class", lockedClass c "cmp-checkbox"), ("data-component-id", c.id)]
    (inputNode c :: element "span" [("class", "cmp-checkbox-label")] [.text text] :: children)

def toggleNode (c : ComponentData) (text : String) (children : List Node) : Node :=
  element "label" [("class", lockedClass c "cmp-toggle"), ("data-component-id", c.id)]
    (inputNode c :: element "span" [("class", "cmp-toggle-slider"), ("role", "presentation")] [] ::
      element "span" [("class", "cmp-toggle-text")] [.text text] :: children)

/-- The class of an arrangement beside that of its name. -/
def arrangementClass (mode : String) : String :=
  if mode == "flex" then " cmp-flex-container"
  else if mode == "grid" then " cmp-grid-container"
  else ""

def containerNode (c : ComponentData) (depth count : Nat) (children : List Node) : Node :=
  let mode := c.displayMode.display
  element "div" [
    ("class", "cmp-container cmp-container--" ++ mode ++ (if c.locked then " cmp-locked" else "") ++
      arrangementClass mode ++ (if count = 0 then "" else " cmp-container--has-children")),
    ("data-component-id", c.id), ("data-display-mode", mode), ("data-nesting-level", toString depth),
    ("data-children-count", toString count)]
    children

def panelNode (c : ComponentData) (text : String) (children : List Node) : Node :=
  element "div" [("class", lockedClass c "cmp-panel"), ("data-component-id", c.id)] [
    element "div" [("class", "cmp-panel-header")] [.text text],
    element "div" [("class", "cmp-panel-body")] children]

/-- Declarations inside a style attribute; none when there are none. -/
def inlineStyle (declarations : List (String × String)) : List (String × String) :=
  if declarations.isEmpty then []
  else
    [("style", Text.join "; " (declarations.map fun (property, v) => property ++ ": " ++ v) ++ ";")]

/-- The set value under a key of a style. -/
def setStyle (key property : String) (style : List (String × Json)) : List (String × String) :=
  match Fields.get? key style with
  | some v => if v.isSet then [(property, v.display)] else []
  | none => []

/-- The offsets that are not empty, after free placement. -/
def freePlacement (offsets : List (Side × String)) : List (String × String) :=
  if offsets.isEmpty then []
  else
    ("position", "absolute") :: (Named.all : List Side).filterMap fun side =>
      match offsets.find? fun (s, _) => s == side with
      | some (_, v) => if v.isEmpty then none else some (Named.name side, v)
      | none => none

def imageNode (parent : Option ComponentData) (c : ComponentData) (text : String) : Node :=
  let style := c.styleFor .desktop
  let frame := setStyle "width" "width" style ++ setStyle "height" "height" style ++
    (if ComponentData.placesFreely parent then freePlacement (c.positionFor .desktop) else [])
  let picture := setStyle "objectFit" "object-fit" style ++ setStyle "objectPosition" "object-position" style ++
    (if style.isEmpty then [] else [("width", "100%"), ("height", "100%"), ("display", "block")])
  let alt := if c.kind == .logo then "Logo" else Text.orDefault c.alt "Image"
  element "div" ([
    ("class", lockedClass c ("cmp-" ++ Named.name c.kind)), ("data-component-id", c.id)] ++ inlineStyle frame)
    [.empty true "img" (valued ([
      ("src", Text.orDefault (some text) "/images/placeholder.png"), ("alt", alt), ("loading", "lazy")] ++
      inlineStyle picture))]

/-- The markup of a component around that of its children. The children of an image stand after it. -/
def componentNodes (language : String) (parent : Option ComponentData) (depth count : Nat)
    (c : ComponentData) (children : List Node) : List Node :=
  let text := c.text (some language)
  match c.kind with
  | .text => [textNode c text children]
  | .button => [buttonNode c text children]
  | .link => [linkNode c text children]
  | .logo | .image => imageNode parent c text :: children
  | .checkbox => [checkboxNode c text children]
  | .toggle => [toggleNode c text children]
  | .container => [containerNode c depth count children]
  | .panel => [panelNode c text children]

mutual

def treeNodes (language : String) (parent : Option ComponentData) (depth : Nat) : Component → List Node
  | .node data children =>
    componentNodes language parent depth children.length data
      (forestNodes language (some data) (depth + 1) children)

def forestNodes (language : String) (parent : Option ComponentData) (depth : Nat) :
    List Component → List Node
  | [] => []
  | c :: rest => treeNodes language parent depth c ++ forestNodes language parent depth rest

end

end ConsentBanner.Markup
