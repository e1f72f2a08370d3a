import ConsentBanner.Configuration.Basic
import ConsentBanner.Fault
import ConsentBanner.Text.Blank
import ConsentBanner.Text.Search
import ConsentBanner.Validation.Complaint

/-!
Checks of one component of a raw template, apart from its children.
-/

namespace ConsentBanner.Validation

/-- Whether a value is one of the names of a type; lists and objects cannot be looked up, but sets can. -/
def isNameOf (α : Type) [Named α] : Json → Except Fault Bool
  | .str s => .ok (Named.isName α s)
  | .set _ => .ok false
  | v => if v.isScalar then .ok false else .error .wrongKind

/-- The action that a component asks for: a name, or the type of an action object. -/
def actionOf (fields : List (String × Json)) : Json :=
  match Fields.get? "action" fields with
  | some (.str name) => .str name
  | some (.obj action) => (Fields.get? "type" action).getD .null
  | _ => .null

/-- The first set value among an English text, the first text and the empty one. -/
def englishOrFirst (texts : List (String × Json)) : Json :=
  let english := (Fields.get? "en" texts).getD .null
  if english.isSet then english
  else
    let first := (texts.head?.map (·.2.bare)).getD .null
    if first.isSet then first else .str ""

/-- The text of raw content for which the text rules hold. -/
def rawText : Json → Except Fault Json
  | .str s => .ok (.str s)
  | .obj fields =>
    match Fields.get? "texts" fields, Fields.get? "text" fields with
    | some (.obj (t :: texts)), _ => .ok (englishOrFirst (t :: texts))
    | _, some (.str s) => .ok (.str s)
    | _, _ =>
      if ((Fields.get? "kind" fields).getD .null).asString? == some "localized" then
        let texts := (Fields.get? "by_language" fields).getD .null
        if texts.isSet then
          match texts with
          | .obj texts => .ok (englishOrFirst texts)
          | _ => .error .lacksParts
        else .ok (.str "")
      else .ok (.str "")
  | _ => .ok (.str "")

/-- The identifier: it has to be set and to differ from those before it. -/
def checkId (path : Path) (seen : List Json) (fields : List (String × Json)) :
    Except Fault (List Complaint × List Json) :=
  let id := (Fields.get? "id" fields).getD .null
  if !id.isSet then .ok ([.noId path], seen)
  else if !id.isScalar then .error .wrongKind
  else if seen.any id.same then .ok ([.duplicateId id], seen)
  else .ok ([], seen ++ [id])

def checkKind (path : Path) (fields : List (String × Json)) : Except Fault (List Complaint) := do
  let known ← isNameOf ComponentKind ((Fields.get? "type" fields).getD .null)
  return if known then [] else [.componentKind path]

def checkAction (path : Path) (fields : List (String × Json)) : Except Fault (List Complaint) := do
  if ((Fields.get? "action" fields).getD .null).isNull then return []
  let known ← isNameOf ActionKind (actionOf fields)
  return if known then [] else [.actionKind path]

/-- The actions whose buttons have labels of their own. -/
def bypassesText (action : Json) : Bool :=
  match action with
  | .str name => ((Named.ofName? name : Option ActionKind).bind ActionKind.defaultLabel?).isSome
  | _ => false

/-- The length rules for the text of a component. -/
def checkLength (limits : Limits) (kind : ComponentKind) (path : Path) (text : Json) :
    Except Fault (List Complaint) :=
  if !text.isSet then .ok [.noText kind path]
  else
    match text with
    | .str s =>
      if Text.isBlankText s then .ok [.noText kind path]
      else if limits.maxTextLength < s.length then .ok [.longText path]
      else .ok []
    | .bytes bs =>
      if bs.all fun b => b == 32 || (9 ≤ b && b ≤ 13) then .ok [.noText kind path]
      else if limits.maxTextLength < bs.length then .ok [.longText path]
      else .ok []
    | _ => .error .lacksParts

def checkText (limits : Limits) (path : Path) (fields : List (String × Json)) :
    Except Fault (List Complaint) := do
  let some kind := ((Fields.get? "type" fields).bind Json.asString?).bind
    (Named.ofName? : String → Option ComponentKind) | return []
  if !kind.bearsText || bypassesText (actionOf fields) then return []
  checkLength limits kind path (← rawText ((Fields.get? "content" fields).getD .null))

/-- Offsets are numbers, percentages or pixels, unless they are not given. -/
def isOffset : Json → Bool
  | .null => true
  | .int _ => true
  | .float _ => true
  | .str s => s.isEmpty || s.toList.getLast? == some '%' || "xp".toList.isPrefixOf s.toList.reverse
  | _ => false

def checkOffsets (path : Path) (position : List (String × Json)) : List Complaint :=
  (Named.all : List Device).flatMap fun d =>
    match Fields.get? (Named.name d) position with
    | some (.obj offsets) =>
      (Named.all : List Side).filterMap fun side =>
        match Fields.get? (Named.name side) offsets with
        | some v => if isOffset v then none else some (.offset d side path)
        | none => none
    | _ => []

def checkPosition (path : Path) (fields : List (String × Json)) : List Complaint :=
  match (Fields.get? "position" fields).getD .null with
  | .obj position => checkOffsets path position
  | .null => []
  | _ => [.positionNotObject path]

/-- The complaints about a component and the identifiers that are taken after it. -/
def checkComponent (limits : Limits) (path : Path) (seen : List Json) (fields : List (String × Json)) :
    Except Fault (List Complaint × List Json) := do
  let (ids, seen) ← checkId path seen fields
  let kinds ← checkKind path fields
  let actions ← checkAction path fields
  let texts ← checkText limits path fields
  return (ids ++ kinds ++ actions ++ texts ++ checkPosition path fields, seen)

end ConsentBanner.Validation
