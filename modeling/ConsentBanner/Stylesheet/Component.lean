import ConsentBanner.Stylesheet.Base
import ConsentBanner.Template.Arena

/-!
The rules of single components: styles, offsets and the arrangement of children, per device.
-/

namespace ConsentBanner.Stylesheet

/-- A text inside a double quoted attribute selector. -/
def escapeSelector (s : String) : String :=
  Text.replace "\"" "\\\"" (Text.replace "\\" "\\\\" s)

def componentSelector (c : ComponentData) : String :=
  "[data-component-id=\"" ++ escapeSelector c.id ++ "\"]"

def valueOf (key : String) (config : List (String × Json)) : Json := (Fields.get? key config).getD .null

/-- The arrangement of the children of a container. -/
def containerDeclarations (config : List (String × Json)) : List Declaration :=
  let keyed (keys : List String) : List Declaration := keys.map fun k => (kebab k, valueOf k config)
  match valueOf "displayMode" config with
  | .str "flex" =>
    ("display", .str "flex") ::
      keyed ["flexDirection", "justifyContent", "alignItems", "flexWrap", "gap"]
  | .str "grid" =>
    let gap := valueOf "gap" config
    ("display", .str "grid") ::
      keyed ["gridTemplateColumns", "gridTemplateRows", "justifyItems", "alignItems"] ++
      [("gap", if gap.isSet then gap else valueOf "gridGap" config)]
  | _ => []

/-- The declarations of the given offsets in the order top, left, right, bottom. -/
def offsetDeclarations (offsets : List (Side × String)) : List Declaration :=
  (Named.all : List Side).filterMap fun side =>
    (offsets.find? fun (s, _) => s == side).map fun (_, v) => (Named.name side, .str v)

def placementRule (selector : String) (free : Bool) (offsets : List (Side × String)) : String :=
  if offsets.isEmpty then ""
  else
    rule selector (
      ("position", .str (if free then "absolute" else "relative")) ::
      (if free then offsetDeclarations offsets else []) ++
      [("transition", .str
        "top 0.3s ease, left 0.3s ease, right 0.3s ease, bottom 0.3s ease, transform 0.3s ease")])

def containerRule (selector : String) (c : ComponentData) : String :=
  if c.kind == .container then
    rule selector (containerDeclarations ((c.containerConfig.get? .desktop).getD []))
  else ""

/-- The rule of a component on a narrower device. -/
def narrowRule (selector : String) (free : Bool) (c : ComponentData) (d : Device) : String :=
  rule selector (
    styleDeclarations (c.styleFor d) ++
    (if free then offsetDeclarations (c.positionFor d) else []) ++
    (if c.kind == .container then containerDeclarations ((c.containerConfig.get? d).getD []) else []))

def focusRule (selector : String) (c : ComponentData) : String :=
  if c.kind == .button || c.kind == .link then
    textRule (selector ++ ":focus") [("outline", "2px solid rgba(0, 0, 0, 0.2)"), ("outline-offset", "2px")]
  else ""

def componentRules (b : Breakpoints) (parent : Option ComponentData) (c : ComponentData) : List String :=
  let selector := componentSelector c
  let free := ComponentData.placesFreely parent
  [rule selector (styleDeclarations (c.styleFor .desktop)),
    placementRule selector free (c.positionFor .desktop),
    containerRule selector c,
    media b.tabletMedia [narrowRule selector free c .tablet],
    media b.mobileMedia [narrowRule selector free c .mobile],
    focusRule selector c]

/-- The rules of all components in document order. -/
def components (a : Arena) (b : Breakpoints) : String :=
  lines (a.nodes.flatMap fun n =>
    componentRules b ((n.parent.bind (a.nodes[·]?)).map (·.data)) n.data)

end ConsentBanner.Stylesheet
