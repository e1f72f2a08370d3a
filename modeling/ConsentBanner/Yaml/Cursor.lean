/-!
A place in a YAML text: what is still to be read, and the line and column that the reading has reached.
-/

namespace ConsentBanner.Yaml

/-- Characters that end a line. -/
def isBreak (c : Char) : Bool := c == '\n' || c == '\x85' || c == '\u2028' || c == '\u2029'

/-- What a line end means in a scalar: the next-line control is a plain line feed. -/
def breakChar (c : Char) : Char := if c == '\x85' then '\n' else c

/-- Characters that stand between tokens. -/
def isGap (c : Char) : Bool := c == ' ' || c == '\t' || isBreak c

/-- Characters that may occur in a text at all. -/
def isPrintable (c : Char) : Bool :=
  let n := c.toNat
  n == 9 || n == 10 || n == 13 || (0x20 ≤ n && n ≤ 0x7e) || n == 0x85 || (0xa0 ≤ n && n ≤ 0xd7ff) ||
    (0xe000 ≤ n && n ≤ 0xfffd) || 0x10000 ≤ n

/-- The text with every line end of the two usual kinds written as a line feed. -/
def normalizeBreaks : List Char → List Char
  | [] => []
  | '\r' :: '\n' :: rest => '\n' :: normalizeBreaks rest
  | '\r' :: rest => '\n' :: normalizeBreaks rest
  | c :: rest => c :: normalizeBreaks rest

structure Cursor where
  rest : List Char
  index : Nat := 0
  line : Nat := 0
  column : Nat := 0
deriving Repr

namespace Cursor

def advance (c : Cursor) : Cursor :=
  match c.rest with
  | [] => c
  | ch :: rest =>
    if isBreak ch then ⟨rest, c.index + 1, c.line + 1, 0⟩
    else ⟨rest, c.index + 1, c.line, if ch == '\ufeff' then c.column else c.column + 1⟩

def advanceBy : Nat → Cursor → Cursor
  | 0, c => c
  | n + 1, c => advanceBy n c.advance

/-- The characters of a class that come next. -/
def run (p : Char → Bool) (c : Cursor) : List Char := c.rest.takeWhile p

/-- The place after the characters of a class. -/
def skip (p : Char → Bool) (c : Cursor) : Cursor := c.advanceBy (c.run p).length

def startsWith (p : Char → Bool) (c : Cursor) : Bool :=
  match c.rest with
  | [] => false
  | ch :: _ => p ch

/-- Whether the text goes on with a gap, or ends, after some characters. -/
def gapAt (n : Nat) (c : Cursor) : Bool :=
  match c.rest.drop n with
  | [] => true
  | ch :: _ => isGap ch

/-- Whether three marks of a kind stand alone here, as they do between documents. -/
def atMarks (mark : Char) (c : Cursor) : Bool := [mark, mark, mark].isPrefixOf c.rest && c.gapAt 3

/-- Whether a document ends here. -/
def atSeparator (c : Cursor) : Bool := c.atMarks '-' || c.atMarks '.'

end Cursor

end ConsentBanner.Yaml
