import ConsentBanner.Text.Search

/-!
Markup as a tree. Texts and attribute values are escaped when the tree is written, so that no text can open
or close a tag.
-/

namespace ConsentBanner.Markup

/-- The reference of a character that markup gives a meaning to. -/
def escapeChar : Char → List Char
  | '&' => "&amp;".toList
  | '<' => "&lt;".toList
  | '>' => "&gt;".toList
  | '\x27' => "&#39;".toList
  | '\x22' => "&#34;".toList
  | c => [c]

def escapeList (cs : List Char) : List Char := cs.flatMap escapeChar

/-- The text with references for the characters that markup gives a meaning to. -/
def escape (s : String) : String := String.ofList (escapeList s.toList)

inductive Attribute where
  | valued (name value : String)
  /-- An attribute that stands without a value. -/
  | flag (name : String)
deriving DecidableEq, Repr

/-- A piece of markup. -/
inductive Node where
  | text (s : String)
  /-- A character by its name. -/
  | reference (name : String)
  | element (tag : String) (attributes : List Attribute) (children : List Node)
  /-- An element without content; its tag may end in a slash. -/
  | empty (slash : Bool) (tag : String) (attributes : List Attribute)
deriving Repr

/-- Attributes with values. -/
def valued (attributes : List (String × String)) : List Attribute :=
  attributes.map fun (name, v) => .valued name v

/-- An element whose attributes all have values. -/
def element (tag : String) (attributes : List (String × String)) (children : List Node) : Node :=
  .element tag (valued attributes) children

def Attribute.write : Attribute → List Char
  | valued name v => ' ' :: (name.toList ++ '=' :: '\x22' :: (escapeList v.toList ++ ['\x22']))
  | flag name => ' ' :: name.toList

def openTag (tag : String) (attributes : List Attribute) : List Char :=
  '<' :: (tag.toList ++ attributes.flatMap Attribute.write)

def closeTag (tag : String) : List Char := '<' :: '/' :: (tag.toList ++ ['>'])

namespace Node

mutual

def write : Node → List Char
  | text s => escapeList s.toList
  | reference name => '&' :: (name.toList ++ [';'])
  | element tag attributes children => openTag tag attributes ++ '>' :: (writeAll children ++ closeTag tag)
  | empty slash tag attributes => openTag tag attributes ++ (if slash then ['/', '>'] else ['>'])

def writeAll : List Node → List Char
  | [] => []
  | n :: rest => n.write ++ writeAll rest

end

def render (n : Node) : String := String.ofList n.write

end Node

end ConsentBanner.Markup
