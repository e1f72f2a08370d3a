import ConsentBanner.Text.Integer
import ConsentBanner.Text.Utf8
import ConsentBanner.Yaml.Cursor

/-!
Tags and directives as they are written. A tag is an address, of which a handle may stand for the beginning;
directives before a document name its version and say what handles stand for.
-/

namespace ConsentBanner.Yaml

def isNameChar (c : Char) : Bool := c.isAlphanum || c == '-' || c == '_'

/-- Characters of addresses, the percent sign of escapes among them. -/
def isAddressChar (c : Char) : Bool :=
  c.isAlphanum || ['-', ';', '/', '?', ':', '@', '&', '=', '+', '$', ',', '_', '.', '!', '~', '*', '\x27', '(',
    ')', '[', ']', '%'].contains c

/-- The text of an address; `bytes` are those of the escapes just before, and have to be the bytes of texts. -/
def unescape? (bytes : List Nat) : List Char → Option (List Char)
  | [] => Text.ofBytes? bytes
  | '%' :: a :: b :: rest => do
    let byte := (← Text.hexValue? a) * 16 + (← Text.hexValue? b)
    unescape? (bytes ++ [byte]) rest
  | '%' :: _ => none
  | c :: rest => do return (← Text.ofBytes? bytes) ++ c :: (← unescape? [] rest)

/-- The address at the cursor, which cannot be empty, and the place after it. -/
def address? (c : Cursor) : Option (String × Cursor) := do
  if !c.startsWith isAddressChar then none
  let text ← unescape? [] (c.run isAddressChar)
  return (String.ofList text, c.skip isAddressChar)

namespace Cursor

/-- Whether a space, a line end or the end of the text comes next. -/
def atSpace (c : Cursor) : Bool := c.rest.isEmpty || c.startsWith fun ch => ch == ' ' || isBreak ch

end Cursor

/-- The handle at the cursor. One exclamation mark alone is a handle only before a space. -/
def handle? (c : Cursor) : Option (String × Cursor) :=
  let name := c.advance.run isNameChar
  let after := c.advance.skip isNameChar
  if after.startsWith (· == '!') then some ("!" ++ String.ofList name ++ "!", after.advance)
  else if name.isEmpty && after.startsWith (· == ' ') then some ("!", after)
  else none

/-- The tag at the cursor: its handle, if any, the rest of it, and the place after it. -/
def tag? (c : Cursor) : Option (Option String × String × Cursor) := do
  let after := c.advance
  let (handle, rest, c) ←
    if after.startsWith (· == '<') then do
      let (rest, c) ← address? after.advance
      if c.startsWith (· == '>') then some (none, rest, c.advance) else none
    else if after.gapAt 0 then some (none, "!", after)
    else do
      let word := after.run fun ch => ch != ' ' && !isBreak ch
      let (handle, c) ← if word.contains '!' then handle? c else some ("!", after)
      let (rest, c) ← address? c
      some (some handle, rest, c)
  if c.atSpace then some (handle, rest, c) else none

/-- What a line before a document says. -/
inductive Directive where
  | version (major : Nat)
  /-- What a handle stands for. -/
  | handle (name stem : String)
  | other
deriving DecidableEq, Repr

namespace Directive

def number? (c : Cursor) : Option (Nat × Cursor) :=
  if c.startsWith Char.isDigit then some (Text.plainValue (c.run Char.isDigit), c.skip Char.isDigit) else none

def version? (c : Cursor) : Option (Directive × Cursor) := do
  let (major, c) ← number? (c.skip (· == ' '))
  if !c.startsWith (· == '.') then none
  let (_, c) ← number? c.advance
  if c.atSpace then some (version major, c) else none

def handle? (c : Cursor) : Option (Directive × Cursor) := do
  let c := c.skip (· == ' ')
  if !c.startsWith (· == '!') then none
  let (name, c) ← Yaml.handle? c
  if !c.startsWith (· == ' ') then none
  let (stem, c) ← address? (c.skip (· == ' '))
  if c.atSpace then some (handle name stem, c) else none

/-- The directive whose percent sign is at the cursor. Nothing but a comment may follow it on its line. -/
def read? (c : Cursor) : Option (Directive × Cursor) := do
  let name := c.advance.run isNameChar
  let c := c.advance.skip isNameChar
  if name.isEmpty || !c.atSpace then none
  let (d, c) ←
    if name == ['Y', 'A', 'M', 'L'] then version? c
    else if name == ['T', 'A', 'G'] then handle? c
    else some (other, c.skip fun ch => !isBreak ch)
  let c := c.skip (· == ' ')
  let c := if c.startsWith (· == '#') then c.skip fun ch => !isBreak ch else c
  if c.rest.isEmpty || c.startsWith isBreak then some (d, c) else none

end Directive

/-- What the directives before a document have said. -/
structure Preamble where
  versioned : Bool := false
  handles : List (String × String) := []
deriving Repr

namespace Preamble

/-- Only the first major version is known, and nothing can be said twice. -/
def add (p : Preamble) : Directive → Option Preamble
  | .version major => if p.versioned || major != 1 then none else some { p with versioned := true }
  | .handle name stem =>
    if (p.handles.lookup name).isSome then none else some { p with handles := (name, stem) :: p.handles }
  | .other => some p

/-- What a handle stands for. -/
def stem? (p : Preamble) (handle : String) : Option String :=
  match p.handles.lookup handle with
  | some stem => some stem
  | none =>
    if handle == "!" then some "!"
    else if handle == "!!" then some "tag:yaml.org,2002:"
    else none

end Preamble

end ConsentBanner.Yaml
