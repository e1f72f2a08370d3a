import ConsentBanner.Json.Basic
import ConsentBanner.Number.Shortest
import ConsentBanner.Text.Quoted
import ConsentBanner.Time.Moment

/-!
The text of a value inside messages and declarations: texts, days and moments stand as they are, but inside
lists and objects texts are quoted, and days and moments are told by their parts.
-/

namespace ConsentBanner.Json

/-- The key of a field in front of its value; one that is no text comes with the value. -/
def displayKey (name : String) : Json → String
  | keyed _ _ => ""
  | _ => Text.quoted name ++ ": "

mutual

/-- A value as an item of a list or object. -/
def displayNested : Json → String
  | null => "None"
  | bool b => if b then "True" else "False"
  | int n => toString n
  | float x => x.text
  | str s => Text.quoted s
  | arr items => "[" ++ displayItems items ++ "]"
  | obj fields => "\x7b" ++ displayFields fields ++ "\x7d"
  | date d => d.nestedText
  | moment m => m.nestedText
  | bytes bs => Text.quotedBytes bs
  | pair a b => "(" ++ displayNested a ++ ", " ++ displayNested b ++ ")"
  | set [] => "set()"
  | set members => "\x7b" ++ displayItems members ++ "\x7d"
  | keyed k v => displayNested k ++ ": " ++ displayNested v

def displayItems : List Json → String
  | [] => ""
  | [v] => displayNested v
  | v :: rest => displayNested v ++ ", " ++ displayItems rest

def displayFields : List (String × Json) → String
  | [] => ""
  | [(k, v)] => displayKey k v ++ displayNested v
  | (k, v) :: rest => displayKey k v ++ displayNested v ++ ", " ++ displayFields rest

end

/-- A value in running text. -/
def display : Json → String
  | str s => s
  | date d => d.text
  | moment m => m.textWith " "
  | v => displayNested v

end ConsentBanner.Json
