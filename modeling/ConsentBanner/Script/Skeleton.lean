import ConsentBanner.Json.Display
import ConsentBanner.Json.Writer
import ConsentBanner.Text.Search

/-!
Script skeletons: fixed source with named slots. Filling takes exactly one value for each slot, in one pass, so text that
looks like a slot inside a value stays text. Texts become template literals and all other values JSON; neither form can end
its literal, open an interpolation or close the script element around it.
-/

namespace ConsentBanner.Script

/-- A text between backticks: backslashes, backticks and the openings of interpolations and of end tags
are escaped. -/
def escapeTemplate (text : List Char) : List Char :=
  let text := Text.replaceList ['\x5c'] ['\x5c', '\x5c'] text
  let text := Text.replaceList ['\x60'] ['\x5c', '\x60'] text
  let text := Text.replaceList ['$', '\x7b'] ['\x5c', '$', '\x7b'] text
  let text := Text.replaceList "</script".toList "<\\/script".toList text
  Text.replaceList "</SCRIPT".toList "<\\/SCRIPT".toList text

/-- The escape of a character that may not stand in a script element. -/
def markupEscape (c : Char) : List Char :=
  if c == '<' || c == '>' || c == '&' || c == '\u2028' || c == '\u2029' then Json.unicodeEscape c
  else [c]

/-- JSON that is safe inside a script element. -/
def embeddedJson (v : Json) : List Char := (v.write .compact).flatMap markupEscape

def literalList : Json → List Char
  | .str s => '\x60' :: (escapeTemplate s.toList ++ ['\x60'])
  | v => embeddedJson v

/-- The script expression of a value. -/
def literal (v : Json) : String := String.ofList (literalList v)

/-- A stretch of a skeleton. -/
inductive Segment where
  | text (cs : List Char)
  | slot (name : String)
deriving DecidableEq, Repr

def isSlotStart (c : Char) : Bool := ('a' ≤ c && c ≤ 'z') || c == '_'

def isSlotChar (c : Char) : Bool := isSlotStart c || c.isDigit

/-- The slot at the start of a text: a name between doubled braces. -/
def slotAt? : List Char → Option (List Char × List Char)
  | '\x7b' :: '\x7b' :: c :: rest =>
    if isSlotStart c then
      match rest.dropWhile isSlotChar with
      | '\x7d' :: '\x7d' :: after => some (c :: rest.takeWhile isSlotChar, after)
      | _ => none
    else none
  | _ => none

/-- The segments of a text of which `skip` characters belong to a slot that was already read. -/
def segmentsFrom : (skip : Nat) → List Char → List Segment
  | _, [] => []
  | skip + 1, _ :: cs => segmentsFrom skip cs
  | 0, c :: cs =>
    match slotAt? (c :: cs) with
    | some (name, _) => .slot (String.ofList name) :: segmentsFrom (name.length + 3) cs
    | none => .text [c] :: segmentsFrom 0 cs

def segments (source : List Char) : List Segment := segmentsFrom 0 source

/-- The names of the slots, each once, in the order of their first marks. -/
def slotNames : List Segment → List String
  | [] => []
  | .text _ :: rest => slotNames rest
  | .slot name :: rest => name :: (slotNames rest).filter (· != name)

/-- Why a skeleton could not be built or filled; the names are sorted. -/
inductive SkeletonError where
  | unknownRawSlots (names : List String)
  | missingValues (names : List String)
  | unknownSlots (names : List String)
  | reserved (name : String)
deriving DecidableEq, Repr

def displayNames (names : List String) : String := (Json.arr (names.map .str)).display

def SkeletonError.message : SkeletonError → String
  | unknownRawSlots names => "Raw slots not present in skeleton: " ++ displayNames names
  | missingValues names => "Missing values for slots: " ++ displayNames names
  | unknownSlots names => "Unknown slots: " ++ displayNames names
  | reserved name => "A value is given for the reserved name " ++ name

/-- Source with slots, some of which take their values as script text. -/
structure Skeleton where
  segments : List Segment
  rawSlots : List String
  raw_mem : ∀ name ∈ rawSlots, name ∈ slotNames segments

/-- The names in ascending order, each once. -/
def sortedNames (names : List String) : List String :=
  (names.eraseDups).mergeSort (fun a b => decide (a ≤ b))

/-- The members of the first list that are not in the second, sorted. -/
def missingFrom (names others : List String) : List String :=
  sortedNames (names.filter fun name => !others.contains name)

namespace Skeleton

def slots (s : Skeleton) : List String := slotNames s.segments

/-- The skeleton of a source. Every raw slot has to occur in it. -/
def ofSource (source : String) (rawSlots : List String) : Except SkeletonError Skeleton :=
  let segments := Script.segments source.toList
  if h : ∀ name ∈ rawSlots, name ∈ slotNames segments then
    .ok { segments := segments, rawSlots := rawSlots, raw_mem := h }
  else .error (.unknownRawSlots (missingFrom rawSlots (slotNames segments)))

/-- The text of a value in a slot: script text for a raw slot, a literal otherwise. -/
def rendered (s : Skeleton) (name : String) (v : Json) : List Char :=
  if s.rawSlots.contains name then
    match v with
    | .null => []
    | v => v.display.toList
  else literalList v

/-- The segments with every slot replaced. -/
def substitute (s : Skeleton) (values : List (String × Json)) : List Segment → List Char
  | [] => []
  | .text cs :: rest => cs ++ substitute s values rest
  | .slot name :: rest =>
    s.rendered name ((Fields.get? name values).getD .null) ++ substitute s values rest

/-- The name that means the skeleton itself. -/
def ownName : String := "self"

/-- The script with a value for each slot, and for nothing else. -/
def fill (s : Skeleton) (values : List (String × Json)) : Except SkeletonError String :=
  let keys := values.map (·.1)
  if keys.contains ownName then .error (.reserved ownName)
  else
    match missingFrom s.slots keys, missingFrom keys s.slots with
    | [], [] => .ok (String.ofList (s.substitute values s.segments))
    | [], unknown => .error (.unknownSlots unknown)
    | missing, _ => .error (.missingValues missing)

end Skeleton

end ConsentBanner.Script
