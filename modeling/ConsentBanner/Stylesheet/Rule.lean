import ConsentBanner.Json.Display
import ConsentBanner.Text.Case
import ConsentBanner.Text.Search

/-!
Declarations, rules and media blocks of a stylesheet.
-/

namespace ConsentBanner.Stylesheet

/-- A property with its value. -/
abbrev Declaration := String × Json

/-- A dash in front of every capital but a leading one. -/
def dashCapitals : (first : Bool) → List Char → List Char
  | _, [] => []
  | first, c :: rest =>
    if c.isUpper && !first then '-' :: c :: dashCapitals false rest else c :: dashCapitals false rest

/-- The dashed lower case spelling of a property; a spelling with dashes is only lowered. -/
def kebab (name : String) : String :=
  if name.toList.contains '-' then Text.lower name
  else Text.lower (String.ofList (dashCapitals true name.toList))

/-- A value that a declaration can have: anything but null and the empty text. -/
def isGiven : Json → Bool
  | .null => false
  | .str s => s != ""
  | _ => true

def declarationText (d : Declaration) : String :=
  if isGiven d.2 then d.1 ++ ": " ++ d.2.display ++ ";" else ""

/-- A rule with its given declarations; nothing when there are none. -/
def rule (selector : String) (declarations : List Declaration) : String :=
  let body := String.join (declarations.map declarationText)
  if body.isEmpty then "" else selector ++ " \x7b" ++ body ++ "\x7d"

/-- A media block around rules; nothing when they are all empty. -/
def media (query : String) (rules : List String) : String :=
  let inner := String.join rules
  if inner.isEmpty then "" else query ++ " \x7b" ++ inner ++ "\x7d"

/-- The longhand declarations of the four sides. -/
def sideDeclarations (name : String) (sides : List (String × Json)) : List Declaration :=
  ["top", "right", "bottom", "left"].filterMap fun side =>
    match Fields.get? side sides with
    | some v => if isGiven v then some (name ++ "-" ++ side, v) else none
    | none => none

/-- The declarations of one entry of a style map. -/
def entryDeclarations (key : String) (value : Json) : List Declaration :=
  if !isGiven value then []
  else
    match value with
    | .obj sides => if key == "margin" || key == "padding" then sideDeclarations key sides else []
    | .arr _ => []
    | value => [(kebab key, value)]

/-- The declarations of a style map with names in camel case. -/
def styleDeclarations (style : List (String × Json)) : List Declaration :=
  style.flatMap fun (key, value) => entryDeclarations key value

end ConsentBanner.Stylesheet
