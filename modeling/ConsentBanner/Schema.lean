import ConsentBanner.Fault
import ConsentBanner.Json.Display
import ConsentBanner.Named
import ConsentBanner.Number.Basic
import ConsentBanner.Number.Numeral
import ConsentBanner.Text.Case
import ConsentBanner.Text.Search
import ConsentBanner.Text.Utf8

/-!
Reading typed values out of documents. All issues of a document are collected in field order, each with the
path at which it stands; a fault ends the reading at once. Scalars are converted where nothing is lost.
-/

namespace ConsentBanner

/-- What is wrong with a value. -/
inductive Problem where
  | missing
  | notString
  | notUnicode
  | nameNotString
  | notBool
  | unreadableBool
  | notInt
  | unreadableInt
  | oversizedInt
  | fractionalInt
  | infiniteInt
  | notNumber
  | unreadableNumber
  | notList
  | notObject
  | notModel (model : String)
  | notAttributes
  | notMember (names : List String)
  | notLiteral (names : List String)
  | below (least : Int)
  | above (greatest : Int)
  | notAbove (bound : Int)
  | custom (reason : String)
  | unknownTag (tag : String)
  | notDateTime
  | unreadableDateTime (reason : String)
  | unreadableDate (reason : String)
  | malformedJson (reason : String)
deriving DecidableEq, Repr

namespace Problem

/-- Quoted alternatives, the last one after `or`. -/
def alternatives : List String → String
  | [] => ""
  | [a] => Text.quoted a
  | [a, b] => Text.quoted a ++ " or " ++ Text.quoted b
  | a :: rest => Text.quoted a ++ ", " ++ alternatives rest

/-- The kind of a problem in a word. -/
def code : Problem → String
  | missing => "missing"
  | notString => "string_type"
  | notUnicode => "string_unicode"
  | nameNotString => "invalid_key"
  | notBool => "bool_type"
  | unreadableBool => "bool_parsing"
  | notInt => "int_type"
  | unreadableInt => "int_parsing"
  | oversizedInt => "int_parsing_size"
  | fractionalInt => "int_from_float"
  | infiniteInt => "finite_number"
  | notNumber => "float_type"
  | unreadableNumber => "float_parsing"
  | notList => "list_type"
  | notObject => "dict_type"
  | notModel _ => "model_type"
  | notAttributes => "model_attributes_type"
  | notMember _ => "enum"
  | notLiteral _ => "literal_error"
  | below _ => "greater_than_equal"
  | above _ => "less_than_equal"
  | notAbove _ => "greater_than"
  | custom _ => "value_error"
  | unknownTag _ => "union_tag_invalid"
  | notDateTime => "datetime_type"
  | unreadableDateTime _ => "datetime_parsing"
  | unreadableDate _ => "datetime_from_date_parsing"
  | malformedJson _ => "json_invalid"

def message : Problem → String
  | missing => "Field required"
  | notString => "Input should be a valid string"
  | notUnicode => "Input should be a valid string, unable to parse raw data as a unicode string"
  | nameNotString => "Keys should be strings"
  | notBool => "Input should be a valid boolean"
  | unreadableBool => "Input should be a valid boolean, unable to interpret input"
  | notInt => "Input should be a valid integer"
  | unreadableInt => "Input should be a valid integer, unable to parse string as an integer"
  | oversizedInt => "Unable to parse input string as an integer, exceeded maximum size"
  | fractionalInt => "Input should be a valid integer, got a number with a fractional part"
  | infiniteInt => "Input should be a finite number"
  | notNumber => "Input should be a valid number"
  | unreadableNumber => "Input should be a valid number, unable to parse string as a number"
  | notList => "Input should be a valid list"
  | notObject => "Input should be a valid dictionary"
  | notModel model => "Input should be a valid dictionary or instance of " ++ model
  | notAttributes => "Input should be a valid dictionary or object to extract fields from"
  | notMember names => "Input should be " ++ alternatives names
  | notLiteral names => "Input should be " ++ alternatives names
  | below least => "Input should be greater than or equal to " ++ toString least
  | above greatest => "Input should be less than or equal to " ++ toString greatest
  | notAbove bound => "Input should be greater than " ++ toString bound
  | custom reason => "Value error, " ++ reason
  | unknownTag tag =>
    "Input tag '" ++ tag ++ "' found using 'kind' does not match any of the expected tags: 'plain', 'localized'"
  | notDateTime => "Input should be a valid datetime"
  | unreadableDateTime reason => "Input should be a valid datetime, " ++ reason
  | unreadableDate reason => "Input should be a valid datetime or date, " ++ reason
  | malformedJson reason => reason

end Problem

/-- A problem and the path to the value that has it. -/
structure Issue where
  path : List String
  problem : Problem
deriving DecidableEq, Repr

def Issue.location (i : Issue) : String := Text.join "." i.path

/-- The outcome of reading a value. -/
inductive Checked (α : Type) where
  | valid (a : α)
  | invalid (issues : List Issue)
  | fault (f : Fault)
deriving Repr

namespace Checked

variable {α β : Type}

def map (f : α → β) : Checked α → Checked β
  | valid a => valid (f a)
  | invalid issues => invalid issues
  | fault f => fault f

/-- Both outcomes: a fault wins over issues, and issues of the two are collected in order. -/
def both (x : Checked (α → β)) (y : Unit → Checked α) : Checked β :=
  match x with
  | fault f => fault f
  | invalid issues =>
    match y () with
    | fault f => fault f
    | invalid more => invalid (issues ++ more)
    | valid _ => invalid issues
  | valid f => (y ()).map f

instance : Applicative Checked where
  pure := valid
  seq := both

/-- A further check of a valid outcome. -/
def andThen (x : Checked α) (f : α → Checked β) : Checked β :=
  match x with
  | valid a => f a
  | invalid issues => invalid issues
  | fault f => fault f

/-- The same outcome one step deeper in the document. -/
def under (key : String) : Checked α → Checked α
  | invalid issues => invalid (issues.map fun i => { i with path := key :: i.path })
  | x => x

def reject (p : Problem) : Checked α := invalid [⟨[], p⟩]

def ofExcept : Except Fault α → Checked α
  | .ok a => valid a
  | .error f => fault f

/-- The outcomes of a list, all of whose issues are collected. -/
def all (read : α → Checked β) : List α → Checked (List β)
  | [] => valid []
  | a :: rest => List.cons <$> read a <*> all read rest

end Checked

/-- Reading of one value. -/
abbrev Reader (α : Type) := Json → Checked α

namespace Reader

variable {α : Type}

/-- The text of bytes, or a problem where they are none. -/
def ofBytes (bs : List Nat) (problem : Problem) (read : String → Checked α) : Checked α :=
  match Text.ofBytes? bs with
  | some cs => read (String.ofList cs)
  | none => .reject problem

def string : Reader String
  | .str s => .valid s
  | .bytes bs => ofBytes bs .notUnicode .valid
  | _ => .reject .notString

/-- The truth value of a word. -/
def boolWord? (s : String) : Option Bool :=
  let s := Text.lowerAscii s
  if ["true", "t", "yes", "y", "on", "1"].contains s then some true
  else if ["false", "f", "no", "n", "off", "0"].contains s then some false
  else none

/-- Whether an integer fits a machine word. -/
def fitsWord (n : Int) : Bool := -(Nat.pow 2 63 : Int) ≤ n && n < (Nat.pow 2 63 : Int)

/-- The integer that a number is, when it lies strictly between the bounds of a machine word. -/
def wordOfDouble? (x : Double) : Option Int :=
  x.truncate?.filter fun n => x.isIntegral && fitsWord n && n != -(Nat.pow 2 63 : Int)

def boolOfInt (n : Int) : Checked Bool :=
  if n == 0 then .valid false else if n == 1 then .valid true else .reject .unreadableBool

def boolOfText (s : String) : Checked Bool :=
  match boolWord? s with
  | some b => .valid b
  | none => .reject .unreadableBool

/-- Integers other than zero and one are unreadable up to the size of a machine word, and no truth value at
all beyond it. -/
def bool : Reader Bool
  | .bool b => .valid b
  | .int n => if fitsWord n then boolOfInt n else .reject .notBool
  | .float x =>
    match wordOfDouble? x with
    | some n => boolOfInt n
    | none => .reject .notBool
  | .str s => boolOfText s
  | .bytes bs => ofBytes bs .unreadableBool boolOfText
  | _ => .reject .notBool

def intOfText (s : String) : Checked Int :=
  match Numeral.integer s with
  | .ok n => .valid n
  | .error .malformed => .reject .unreadableInt
  | .error .tooLong => .reject .oversizedInt

def int : Reader Int
  | .bool b => .valid (if b then 1 else 0)
  | .int n => .valid n
  | .float x =>
    match x.truncate? with
    | none => .reject .infiniteInt
    | some _ =>
      if !x.isIntegral then .reject .fractionalInt
      else
        match wordOfDouble? x with
        | some n => .valid n
        | none => .reject .oversizedInt
  | .str s => intOfText s
  | .bytes bs => ofBytes bs .unreadableInt intOfText
  | _ => .reject .notInt

def intAtLeast (least : Int) : Reader Int := fun v =>
  (int v).andThen fun n => if least ≤ n then .valid n else .reject (.below least)

def numberOfText (s : String) : Checked Double :=
  match Numeral.decimal? s with
  | some x => .valid x
  | none => .reject .unreadableNumber

def number : Reader Double
  | .bool b => .valid (Double.ofInt (if b then 1 else 0))
  | .int n =>
    let x := Double.ofInt n
    if x.isFinite then .valid x else .reject .notNumber
  | .float x => .valid x
  | .str s => numberOfText s
  | .bytes bs => ofBytes bs .unreadableNumber numberOfText
  | _ => .reject .notNumber

/-- A number of at least zero, which NaN is not. -/
def nonNegative : Reader Number := fun v =>
  (number v).andThen fun x =>
    match x.compareInt? 0 with
    | some .eq | some .gt => .valid (.float x)
    | _ => .reject (.below 0)

def nullable (read : Reader α) : Reader (Option α)
  | .null => .valid none
  | v => (read v).map some

/-- One of the names of a type. -/
def member (α : Type) [Named α] : Reader α := fun v =>
  match string v with
  | .valid s =>
    match Named.ofName? s with
    | some a => .valid a
    | none => .reject (.notMember (Named.names α))
  | _ => .reject (.notMember (Named.names α))

/-- One of the names of a type that is a plain choice of texts. -/
def oneOf (α : Type) [Named α] : Reader α := fun v =>
  match v.asString?.bind Named.ofName? with
  | some a => .valid a
  | none => .reject (.notLiteral (Named.names α))

/-- The items of a list from the given position on. -/
def itemsFrom (read : Reader α) : (position : Nat) → List Json → Checked (List α)
  | _, [] => .valid []
  | i, v :: rest => List.cons <$> (read v).under (toString i) <*> itemsFrom read (i + 1) rest

def list (read : Reader α) : Reader (List α)
  | .arr items => itemsFrom read 0 items
  | _ => .reject .notList

/-- The step of a path to the value under a key; truth values count as numbers. -/
def keyStep : Json → String
  | .bool b => if b then "1" else "0"
  | .str s => s
  | key => key.displayNested

/-- Bytes are names of entries where they are texts; other keys that are no texts are not. -/
def entries (read : Reader α) : List (String × Json) → Checked (List (String × α))
  | [] => .valid []
  | (_, .keyed key v) :: rest =>
    (fun k a rest => (k, a) :: rest) <$> ((string key).under "[key]").under (keyStep key)
      <*> (read v).under (keyStep key) <*> entries read rest
  | (k, v) :: rest =>
    (fun a rest => (k, a) :: rest) <$> (read v).under k <*> entries read rest

/-- The fields of a model besides those that it names. -/
def otherFields (names : List String) : List (String × Json) → Checked (List (String × Json))
  | [] => .valid []
  | (_, .keyed (.bytes bs) v) :: rest =>
    (fun k rest => (k, v) :: rest) <$> (ofBytes bs .nameNotString .valid).under (keyStep (.bytes bs))
      <*> otherFields names rest
  | (_, .keyed key _) :: rest =>
    (fun _ rest => rest) <$> ((Checked.reject .nameNotString : Checked Unit).under (keyStep key))
      <*> otherFields names rest
  | (k, v) :: rest =>
    (fun rest => if names.contains k then rest else (k, v) :: rest) <$> otherFields names rest

/-- Values by name. Of entries whose keys come to one name, the last value stands at the place of the first. -/
def dictionary (read : Reader α) : Reader (List (String × α))
  | .obj fields => Fields.ofPairs <$> entries read fields
  | _ => .reject .notObject

def any : Reader Json := .valid

def model (name : String) (read : List (String × Json) → Checked α) : Reader α
  | .obj fields => read fields
  | _ => .reject (.notModel name)

/-- The first of several keys that an object has, with its value. -/
def find? (keys : List String) (fields : List (String × Json)) : Option (String × Json) :=
  keys.findSome? fun k => (Fields.get? k fields).map (k, ·)

/-- A field that may stand under one of several keys and has a default. -/
def field (fields : List (String × Json)) (keys : List String) (default : α) (read : Reader α) : Checked α :=
  match find? keys fields with
  | some (k, v) => (read v).under k
  | none => .valid default

/-- A field that has to be there. -/
def requiredField (fields : List (String × Json)) (key : String) (read : Reader α) : Checked α :=
  match Fields.get? key fields with
  | some v => (read v).under key
  | none => (Checked.reject .missing).under key

end Reader

end ConsentBanner
