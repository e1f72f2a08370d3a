import ConsentBanner.Json.Writer
import ConsentBanner.Template.Basic

/-!
Templates written back as documents.
-/

namespace ConsentBanner

def optional (s : Option String) : Json := (s.map Json.str).getD .null

/-- The fields that are not null. -/
def givenFields (fields : List (String × Json)) : List (String × Json) :=
  fields.filter fun (_, v) => !v.isNull

def textFields (texts : List (String × String)) : List (String × Json) :=
  texts.map fun (k, s) => (k, .str s)

def deviceFields {α : Type} (json : α → Json) (blocks : PerDevice α) : Json :=
  .obj (blocks.map fun (d, a) => (Named.name d, json a))

/-- Free values in JSON form. -/
def freeFields (fields : List (String × Json)) : Json := .obj (Json.portableBlock fields)

def offsetFields (offsets : List (Side × String)) : Json :=
  .obj (offsets.map fun (side, s) => (Named.name side, .str s))

namespace Content

/-- Content as it stands in a template: a text, or texts by language. -/
def json : Content → Json
  | plain text => .str text
  | localized texts => .obj [("texts", .obj (textFields texts))]

/-- Content in the form that names its kind. -/
def taggedJson : Content → Json
  | plain text => .obj [("kind", .str "plain"), ("text", .str text)]
  | localized texts => .obj [("kind", .str "localized"), ("by_language", .obj (textFields texts))]

end Content

def Action.json (a : Action) : List (String × Json) :=
  [("type", .str (Named.name a.kind)), ("category", optional a.category), ("url", optional a.url)]

namespace Component

/-- The fields of a component before its content and children. -/
def dataFields (d : ComponentData) : List (String × Json) := [
  ("id", .str d.id), ("type", .str (Named.name d.kind)),
  ("style", deviceFields freeFields d.style), ("position", deviceFields offsetFields d.position),
  ("action", .obj d.action.json), ("containerConfig", deviceFields freeFields d.containerConfig),
  ("alt", optional d.alt), ("locked", .bool d.locked)]

/-- A component as a template holds it, with its nulls. -/
def rawJson (d : ComponentData) (children : List Json) : Json :=
  .obj (dataFields d ++ [("content", d.content.json), ("children", .arr children)])

mutual

/-- A component with those inside it. -/
def json : Component → Json
  | node d children => rawJson d (jsonItems children)

def jsonItems : List Component → List Json
  | [] => []
  | c :: rest => c.json :: jsonItems rest

end

/-- The children of an object. -/
def childrenOf (v : Json) : List Json :=
  match v.get? "children" with
  | some (.arr items) => items
  | _ => []

def changeChildren (change : List Json → List Json) : Json → Json
  | .obj fields =>
    match Fields.get? "children" fields with
    | some (.arr items) => .obj (Fields.set "children" (.arr (change items)) fields)
    | _ => .obj fields
  | v => v

/-- The list at the end of a path: the items themselves, or from a place among them the list in the children there. -/
def listAt : (path : List Nat) → List Json → List Json
  | [], items => items
  | place :: path, items => listAt path ((items[place]?.map childrenOf).getD [])

def changeAt (change : List Json → List Json) : (path : List Nat) → List Json → List Json
  | [], items => change items
  | place :: path, items => items.modify place (changeChildren (changeAt change path))

/-- Appends a component to the list at a path, without those inside it; these go to its own list of children. -/
def emit (written : List Json) (c : Component) (path : List Nat) : List Json × List Nat :=
  (changeAt (· ++ [rawJson c.data []]) path written, path ++ [(listAt path written).length])

/-- The components of a forest, written one at a time. -/
def jsonAll (components : List Component) : List Json := walk emit (push [] components []) []

/-- The fields of a component with tagged content. -/
def taggedFields (d : ComponentData) (children : List Json) : List (String × Json) := [
  ("id", .str d.id), ("type", .str (Named.name d.kind)), ("content", d.content.taggedJson),
  ("style", deviceFields freeFields d.style), ("position", deviceFields offsetFields d.position),
  ("action", .obj (givenFields d.action.json)), ("children", .arr children),
  ("containerConfig", deviceFields freeFields d.containerConfig), ("alt", optional d.alt), ("locked", .bool d.locked)]

mutual

/-- A component with tagged content and without nulls. -/
def taggedJson : Component → Json
  | node d children => .obj (givenFields (taggedFields d (taggedJsonAll children)))

def taggedJsonAll : List Component → List Json
  | [] => []
  | c :: rest => c.taggedJson :: taggedJsonAll rest

end

end Component

def measureJson (m : Option Measure) : Json := (m.map Measure.json).getD .null

def DeviceLayout.fields (l : DeviceLayout) : List (String × Json) := [
  ("type", .str (Named.name l.kind)), ("position", .str (Named.name l.position)),
  ("width", measureJson l.width), ("height", measureJson l.height),
  ("backgroundColor", optional l.backgroundColor)]

def DeviceLayout.givenJson (l : DeviceLayout) : Json := .obj (givenFields l.fields)

def nullableJson {α : Type} (json : α → Json) (a : Option α) : Json := (a.map json).getD .null

def Layout.fields (l : Layout) : List (String × Json) := [
  ("desktop", l.desktop.givenJson), ("tablet", nullableJson DeviceLayout.givenJson l.tablet),
  ("mobile", nullableJson DeviceLayout.givenJson l.mobile)]

def Layout.givenJson (l : Layout) : Json := .obj (givenFields l.fields)

def ThemeColors.fields (c : ThemeColors) : List (String × Json) := [
  ("primary", optional c.primary), ("secondary", optional c.secondary),
  ("background", optional c.background), ("text", optional c.text), ("border", optional c.border)]

/-- The colours that are given, those with other names in JSON form. -/
def ThemeColors.givenJson (c : ThemeColors) : Json :=
  .obj (givenFields c.fields ++ Json.portableBlock (givenFields c.others))

def ThemeFonts.fields (f : ThemeFonts) : List (String × Json) :=
  [("primary", optional f.primary), ("secondary", optional f.secondary)]

def Animation.fields (a : Animation) : List (String × Json) :=
  [("type", .str (Named.name a.kind)), ("duration", .float a.duration.toDouble)]

def Animation.json (a : Animation) : Json := .obj a.fields

def Spacing.json : Spacing → Json
  | measure m => m.json
  | sides fields => freeFields fields

def Theme.fields (t : Theme) : List (String × Json) := [
  ("colors", t.colors.givenJson), ("fonts", .obj (givenFields t.fonts.fields)),
  ("spacing", nullableJson Spacing.json t.spacing), ("animation", nullableJson Animation.json t.animation)]

def Theme.givenJson (t : Theme) : Json := .obj (givenFields t.fields)

def TimedPolicy.fields (key : String) (p : TimedPolicy) : List (String × Json) :=
  [("enabled", .bool p.enabled), (key, .float p.seconds.toDouble)]

def TimedPolicy.json (key : String) (p : TimedPolicy) : Json := .obj (p.fields key)

def Behaviour.fields (b : Behaviour) : List (String × Json) :=
  [("autoHide", b.autoHide.json "delay"), ("reshow", b.reshow.json "interval")]

def Behaviour.json (b : Behaviour) : Json := .obj b.fields

def FloatingIcon.fields (i : FloatingIcon) : List (String × Json) := [
  ("enabled", .bool i.enabled), ("position", .str (Named.name i.position)), ("color", .str i.color),
  ("backgroundColor", .str i.backgroundColor), ("size", .int i.size)]

def FloatingIcon.json (i : FloatingIcon) : Json := .obj i.fields

def Settings.fields (s : Settings) : List (String × Json) := [
  ("overlay", .bool s.overlay), ("showCloseButton", .bool s.showCloseButton),
  ("animation", nullableJson Animation.json s.animation), ("behaviour", s.behaviour.json),
  ("responsive", freeFields s.responsive), ("floatingIcon", s.floatingIcon.json),
  ("texts", .obj (s.texts.map fun (language, texts) => (language, .obj (textFields texts))))]

def Settings.givenJson (s : Settings) : Json := .obj (givenFields s.fields)

def Template.fields (t : Template) : List (String × Json) := [
  ("_id", optional t.id), ("name", optional t.name), ("layout", t.layout.givenJson),
  ("components", .arr (Component.taggedJsonAll t.components)), ("theme", t.theme.givenJson),
  ("settings", t.settings.givenJson)]

/-- A template with tagged content and without nulls. -/
def Template.json (t : Template) : Json := .obj (givenFields t.fields)

end ConsentBanner
