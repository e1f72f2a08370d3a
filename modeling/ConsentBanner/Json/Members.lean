import ConsentBanner.Fault
import ConsentBanner.Json.Basic
import ConsentBanner.Number.Shortest
import ConsentBanner.Text.Integer
import ConsentBanner.Text.Quoted
import ConsentBanner.Time.Moment

/-!
Values taken apart: the members of a collection, and the integer that a value stands for. Objects are made of entries
whose keys are values of any kind; keys that are equal are one key.
-/

namespace ConsentBanner.Json

/-- The items, keys or characters of a value. -/
def parts : Json → Except Fault (List Json)
  | .arr items => .ok items
  | .obj fields => .ok (fields.map fun (k, _) => .str k)
  | .str s => .ok (s.toList.map fun c => .str (String.singleton c))
  | _ => .error .wrongKind

/-- The parts of a value; one that is not set has none. -/
def members (v : Json) : Except Fault (List Json) := if v.isSet then v.parts else .ok []

/-- The parts of a value that are to be told apart as keys, which neither lists nor objects can be. -/
def keys (v : Json) : Except Fault (List Json) := do
  let parts ← v.parts
  if parts.all Json.isScalar then return parts else throw .wrongKind

/-- The integer of a number without its fraction, of a truth value, or of a text. -/
def integer : Json → Except Fault Int
  | .bool b => .ok (if b then 1 else 0)
  | .int n => .ok n
  | .float .nan => .error .badValue
  | .float (.infinite _) => .error .overflow
  | .float x => .ok (x.truncate?.getD 0)
  | .str s =>
    match Text.integer? s with
    | some n => .ok n
    | none => .error .badValue
  | _ => .error .wrongKind

/-- The integers that keys stand for; keys that stand for none are passed over. -/
def integers : List Json → Except Fault (List Int)
  | [] => .ok []
  | v :: rest =>
    match v.integer with
    | .ok n => do return n :: (← integers rest)
    | .error .overflow => .error .overflow
    | .error _ => integers rest

/-- The number that a key counts as, as a text; numbers are equal whatever their kinds. -/
def numberKey : Json → String
  | bool b => if b then "1" else "0"
  | int n => toString n
  | float x =>
    match x.truncate? with
    | some n => if x.isIntegral then toString n else x.text
    | none => x.text
  | _ => ""

/-- The name of the field of a key that is no text, the same for equal keys. -/
def foreignName (key : Json) : String :=
  "? " ++ match key with
    | null => "~"
    | date d => d.text
    | moment m => if m.zone.isSome then "@ " ++ toString m.epochMicros else m.text
    | bytes bs => Text.quotedBytes bs
    | key => key.numberKey

/-- The field of an entry. -/
def field : Json → Json → String × Json
  | str s, v => (s, v)
  | key, v => (key.foreignName, keyed key v)

/-- The key of a field. -/
def keyOf : String × Json → Json
  | (_, keyed key _) => key
  | (name, _) => str name

/-- The field of an equal key keeps its key and has the value of the later entry. -/
def addEntry (fields : List (String × Json)) (entry : Json × Json) : List (String × Json) :=
  let (name, v) := field entry.1 entry.2
  match Fields.get? name fields with
  | some (keyed key _) => Fields.set name (keyed key v.bare) fields
  | _ => Fields.set name v fields

/-- The fields of entries with each key once: its last value at the place of its first. -/
def fieldsOf (entries : List (Json × Json)) : List (String × Json) := entries.foldl addEntry []

end ConsentBanner.Json
