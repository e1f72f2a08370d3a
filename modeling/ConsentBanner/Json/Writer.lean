import ConsentBanner.Json.Basic
import ConsentBanner.Number.Shortest
import ConsentBanner.Text.Quoted
import ConsentBanner.Text.Search
import ConsentBanner.Text.Utf8
import ConsentBanner.Time.Moment

/-!
JSON texts. One writer serves all formats; they differ in the separators, in whether characters beyond
ASCII are escaped, and in indentation. What JSON lacks is written as texts and lists.
-/

namespace ConsentBanner.Json

/-- What the written forms differ in. -/
structure Format where
  itemSeparator : String
  keySeparator : String
  /-- Characters outside ASCII are escaped. -/
  ascii : Bool

/-- No white space at all, every character as it is. -/
def Format.compact : Format := ⟨",", ":", false⟩

/-- No white space at all, ASCII only. -/
def Format.compactAscii : Format := ⟨",", ":", true⟩

/-- A space after each separator, ASCII only. -/
def Format.spacedAscii : Format := ⟨", ", ": ", true⟩

/-- An escape of one 16-bit unit. -/
def unitEscape (n : Nat) : List Char := '\x5c' :: 'u' :: Text.hexDigits 4 n

/-- The escape of a character by its one or two 16-bit units. -/
def unicodeEscape (c : Char) : List Char :=
  let n := c.toNat
  if n < 0x10000 then unitEscape n
  else unitEscape (0xd800 + (n - 0x10000) / 0x400) ++ unitEscape (0xdc00 + (n - 0x10000) % 0x400)

/-- One character inside a written text. -/
def writeChar (ascii : Bool) (c : Char) : List Char :=
  if c == '\x22' || c == '\x5c' then ['\x5c', c]
  else if c == '\n' then ['\x5c', 'n']
  else if c == '\r' then ['\x5c', 'r']
  else if c == '\t' then ['\x5c', 't']
  else if c == '\x08' then ['\x5c', 'b']
  else if c == '\x0c' then ['\x5c', 'f']
  else if c.toNat < 0x20 || (ascii && 0x7e < c.toNat) then unicodeEscape c
  else [c]

def writeString (ascii : Bool) (s : String) : List Char :=
  '\x22' :: (s.toList.flatMap (writeChar ascii) ++ ['\x22'])

/-- Numbers without a finite value have names of their own. -/
def writeDouble (x : Double) : List Char :=
  match x with
  | .nan => "NaN".toList
  | .infinite negative => (if negative then "-Infinity" else "Infinity").toList
  | .finite .. => x.textList

/-- The text of a key that is none. -/
def keyText : Json → String
  | null => "None"
  | bool b => if b then "true" else "false"
  | int n => toString n
  | float x => x.text
  | str s => s
  | date d => d.text
  | moment m => m.documentText
  | bytes bs => String.ofList (Text.ofBytes bs)
  | _ => ""

/-- The name under which a field is written. -/
def fieldName (name : String) : Json → String
  | keyed k _ => k.keyText
  | _ => name

mutual

def write (f : Format) : Json → List Char
  | null => "null".toList
  | bool b => (if b then "true" else "false").toList
  | int n => (toString n).toList
  | float x => writeDouble x
  | str s => writeString f.ascii s
  | arr items => '[' :: (writeItems f items ++ [']'])
  | obj fields => '\x7b' :: (writeFields f fields ++ ['\x7d'])
  | date d => writeString f.ascii d.text
  | moment m => writeString f.ascii m.documentText
  | bytes bs => writeString f.ascii (String.ofList (Text.ofBytes bs))
  | pair a b => '[' :: (write f a ++ (f.itemSeparator.toList ++ (write f b ++ [']'])))
  | set members => '[' :: (writeItems f members ++ [']'])
  | keyed _ v => write f v

def writeItems (f : Format) : List Json → List Char
  | [] => []
  | [v] => write f v
  | v :: rest => write f v ++ (f.itemSeparator.toList ++ writeItems f rest)

def writeFields (f : Format) : List (String × Json) → List Char
  | [] => []
  | [(k, v)] => writeString f.ascii (fieldName k v) ++ (f.keySeparator.toList ++ write f v)
  | (k, v) :: rest =>
    writeString f.ascii (fieldName k v) ++ (f.keySeparator.toList ++ (write f v ++
      (f.itemSeparator.toList ++ writeFields f rest)))

end

def render (f : Format) (v : Json) : String := String.ofList (v.write f)

/-- A line end and the indentation of a level. -/
def newLine (level : Nat) : List Char := '\n' :: List.replicate (2 * level) ' '

mutual

/-- The text over several lines, two columns further in at every level. Lists and objects without parts stay on one
line. -/
def writeIndented (level : Nat) : Json → List Char
  | .arr [] => ['[', ']']
  | .arr items => '[' :: (indentedItems (level + 1) items ++ newLine level ++ [']'])
  | .obj [] => ['\x7b', '\x7d']
  | .obj fields => '\x7b' :: (indentedFields (level + 1) fields ++ newLine level ++ ['\x7d'])
  | v => v.write .spacedAscii

def indentedItems (level : Nat) : List Json → List Char
  | [] => []
  | [v] => newLine level ++ writeIndented level v
  | v :: rest => newLine level ++ writeIndented level v ++ ',' :: indentedItems level rest

def indentedFields (level : Nat) : List (String × Json) → List Char
  | [] => []
  | [(k, v)] => newLine level ++ writeString true k ++ ':' :: ' ' :: writeIndented level v
  | (k, v) :: rest =>
    newLine level ++ writeString true k ++ ':' :: ' ' :: (writeIndented level v ++ ',' :: indentedFields level rest)

end

def renderIndented (v : Json) : String := String.ofList (v.writeIndented 0)

mutual

/-- A value in JSON form. A number without a finite value is null, a day, a moment or bytes are a text, and a pair or a
set is a list. -/
def portable : Json → Json
  | float x => if x.isFinite then float x else null
  | arr items => arr (portableItems items)
  | obj fields => obj (Fields.ofPairs (portableFields fields))
  | date d => str d.text
  | moment m => str m.documentText
  | bytes bs => str (String.ofList (Text.ofBytes bs))
  | pair a b => arr [portable a, portable b]
  | set members => arr (portableItems members)
  | keyed _ v => portable v
  | v => v

def portableItems : List Json → List Json
  | [] => []
  | v :: rest => portable v :: portableItems rest

def portableFields : List (String × Json) → List (String × Json)
  | [] => []
  | (k, v) :: rest => (fieldName k v, portable v) :: portableFields rest

end

/-- The fields of an object in JSON form. Keys are texts, and each stands once. -/
def portableBlock (fields : List (String × Json)) : List (String × Json) := Fields.ofPairs (portableFields fields)

end ConsentBanner.Json
