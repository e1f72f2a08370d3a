import ConsentBanner.Yaml.Scalar
import ConsentBanner.Yaml.Tag

/-!
The tokens of a YAML text. Indentation becomes tokens of its own, which open and close block collections. A
key is known only by the colon after it, so a token that turns out to begin a key is marked afterwards, and the
marks are written out as tokens in the end.
-/

namespace ConsentBanner.Yaml

/-- The brackets of flow collections. -/
inductive Bracket where
  | square
  | curly
deriving DecidableEq, Repr

inductive Token where
  | directive (d : Directive)
  | documentStart
  | documentEnd
  | openBracket (b : Bracket)
  | closeBracket (b : Bracket)
  | comma
  | sequenceStart
  | mappingStart
  | blockEnd
  | entry
  | key
  | value
  | reference (name : String)
  | anchor (name : String)
  /-- A tag, of which the handle may stand for the beginning. -/
  | tag (handle : Option String) (rest : String)
  | plain (text : String)
  | quoted (text : String)
deriving DecidableEq, Repr

/-- A token, and whether it begins a key and with it a block mapping. -/
structure Marked where
  token : Token
  beginsKey : Bool := false
  beginsMapping : Bool := false
deriving Repr

/-- A token with the tokens that its marks stand for. -/
def Marked.tokens (m : Marked) : List Token :=
  (if m.beginsMapping then [Token.mappingStart] else []) ++ (if m.beginsKey then [Token.key] else []) ++
    [m.token]

/-- A place where a key may have begun. -/
structure Candidate where
  /-- The position of the token. -/
  token : Nat
  /-- Nothing but a key can stand here. -/
  required : Bool
  index : Nat
  line : Nat
  column : Nat
deriving Repr

/-- Tokens read so far and what decides about the next ones. -/
structure Lexing where
  cursor : Cursor
  tokens : Array Marked := #[]
  /-- The indentation of the innermost block collection, and those around it. -/
  indent : Int := -1
  outer : List Int := []
  /-- Whether a key may begin here. -/
  keyAllowed : Bool := true
  /-- The last candidate in each open bracket, the innermost first, and in the block around them. -/
  candidates : List (Option Candidate) := [none]

namespace Lexing

def inFlow (s : Lexing) : Bool := s.candidates.length > 1

def emit (t : Token) (s : Lexing) : Lexing := { s with tokens := s.tokens.push ⟨t, false, false⟩ }

/-- Emits a token of some characters. -/
def take (t : Token) (length : Nat) (s : Lexing) : Lexing :=
  { s.emit t with cursor := s.cursor.advanceBy length }

/-- Moves over spaces, comments and line ends; a new line of a block may begin a key. -/
def skipGaps : (fuel : Nat) → Lexing → Lexing
  | 0, s => s
  | fuel + 1, s =>
    let c := s.cursor.skip (· == ' ')
    let c := if c.startsWith (· == '#') then c.skip (fun ch => !isBreak ch) else c
    if c.startsWith isBreak then
      skipGaps fuel { s with cursor := c.advance, keyAllowed := s.keyAllowed || !s.inFlow }
    else { s with cursor := c }

/-- A key ends on its line and within 1024 characters. -/
def isStale (c : Cursor) (k : Candidate) : Bool := k.line != c.line || c.index > k.index + 1024

/-- Gives up candidates that can no longer be keys; a required one has to be. -/
def dropStale (s : Lexing) : Option Lexing :=
  let stale := s.candidates.filter fun k => k.any (isStale s.cursor)
  if stale.any fun k => k.any (·.required) then none
  else some { s with candidates := s.candidates.map fun k => k.filter fun k => !isStale s.cursor k }

/-- Closes the block collections that are indented further than a column. -/
def closeBlocks (column : Int) : (fuel : Nat) → Lexing → Lexing
  | 0, s => s
  | fuel + 1, s =>
    if column < s.indent then
      closeBlocks column fuel { s.emit .blockEnd with indent := s.outer.headD (-1), outer := s.outer.tail }
    else s

/-- Closes the block collections that do not reach a column; inside brackets indentation does not count. -/
def closeTo (column : Int) (s : Lexing) : Lexing :=
  if s.inFlow then s else closeBlocks column (s.outer.length + 1) s

/-- Whether a column is indented further than the innermost block collection. -/
def indents (column : Int) (s : Lexing) : Bool := s.indent < column

def indentTo (column : Int) (s : Lexing) : Lexing :=
  if s.indents column then { s with indent := column, outer := s.indent :: s.outer } else s

/-- Opens a block collection at the cursor unless it is open already. -/
def openBlock (t : Token) (s : Lexing) : Lexing :=
  let column : Int := s.cursor.column
  if s.indents column then (s.emit t).indentTo column else s

/-- Gives up the innermost candidate. -/
def dropCandidate (s : Lexing) : Option Lexing :=
  match s.candidates with
  | some k :: rest => if k.required then none else some { s with candidates := none :: rest }
  | _ => some s

/-- Takes the next token for the beginning of a key where one may begin. -/
def noteCandidate (s : Lexing) : Option Lexing :=
  if s.keyAllowed then do
    let s ← s.dropCandidate
    let c := s.cursor
    let required := !s.inFlow && s.indent == (c.column : Int)
    return { s with candidates := some ⟨s.tokens.size, required, c.index, c.line, c.column⟩ :: s.candidates.tail }
  else some s

def allow (b : Bool) (s : Lexing) : Lexing := { s with keyAllowed := b }

/-- The marks between documents, and directives, end everything that is open. -/
def endDocument (s : Lexing) : Option Lexing := do
  let s ← (s.closeTo (-1)).dropCandidate
  return s.allow false

/-- A line that begins with a percent sign. -/
def directive (s : Lexing) : Option Lexing := do
  let s ← s.endDocument
  let (d, c) ← Directive.read? s.cursor
  return { s.emit (.directive d) with cursor := c }

def bracketOpen (b : Bracket) (s : Lexing) : Option Lexing := do
  let s ← s.noteCandidate
  let s := (s.take (.openBracket b) 1).allow true
  return { s with candidates := none :: s.candidates }

def bracketClose (b : Bracket) (s : Lexing) : Option Lexing := do
  let s ← s.dropCandidate
  match s.candidates with
  | _ :: around :: rest => return { (s.take (.closeBracket b) 1).allow false with candidates := around :: rest }
  | _ => none

def comma (s : Lexing) : Option Lexing := do
  let s ← s.dropCandidate
  return (s.take .comma 1).allow true

/-- The dash of a block sequence. -/
def entry (s : Lexing) : Option Lexing := do
  if !s.inFlow && !s.keyAllowed then none
  let s ← (if s.inFlow then s else s.openBlock .sequenceStart).dropCandidate
  return (s.take .entry 1).allow true

/-- The question mark before a key. -/
def key (s : Lexing) : Option Lexing := do
  if !s.inFlow && !s.keyAllowed then none
  let s ← (if s.inFlow then s else s.openBlock .mappingStart).dropCandidate
  return (s.take .key 1).allow !s.inFlow

/-- The colon after a key: it marks the candidate, or else stands for an empty key. -/
def value (s : Lexing) : Option Lexing :=
  match s.candidates with
  | some k :: rest =>
    let column : Int := k.column
    let begins := !s.inFlow && s.indents column
    let s := { s with
      candidates := none :: rest
      tokens := s.tokens.modify k.token fun m => ⟨m.token, true, begins⟩ }
    let s := if s.inFlow then s else s.indentTo column
    some ((s.take .value 1).allow false)
  | _ => do
    if !s.inFlow && !s.keyAllowed then none
    let s := if s.inFlow then s else s.openBlock .mappingStart
    return (s.take .value 1).allow !s.inFlow

/-- An anchor or an alias, by its name. -/
def named (make : String → Token) (s : Lexing) : Option Lexing := do
  let s ← s.noteCandidate
  let name := s.cursor.advance.run isNameChar
  let c := s.cursor.advanceBy (name.length + 1)
  let ends := c.gapAt 0 || c.startsWith fun ch => ['?', ':', ',', ']', '\x7d', '%', '@', '\x60'].contains ch
  if name.isEmpty || !ends then none
  return { (s.emit (make (String.ofList name))).allow false with cursor := c }

def tag (s : Lexing) : Option Lexing := do
  let s ← s.noteCandidate
  let (handle, rest, c) ← tag? s.cursor
  return { (s.emit (.tag handle rest)).allow false with cursor := c }

def quotedScalar (double : Bool) (s : Lexing) : Option Lexing := do
  let s ← s.noteCandidate
  let (text, c) ← quoted double s.cursor
  return { (s.emit (.quoted text)).allow false with cursor := c }

def blockScalar (folded : Bool) (s : Lexing) : Option Lexing := do
  let s ← s.dropCandidate
  let (text, c) ← block folded s.indent s.cursor
  return { (s.emit (.quoted text)).allow true with cursor := c }

def plainScalar (s : Lexing) : Option Lexing := do
  let s ← s.noteCandidate
  let (text, broken, c) := plain s.inFlow (s.indent + 1) s.cursor
  return { (s.emit (.plain text)).allow broken with cursor := c }

/-- Whether a plain scalar may begin with a character. -/
def beginsPlain (s : Lexing) (ch : Char) : Bool :=
  let marks := ['-', '?', ':', ',', '[', ']', '\x7b', '\x7d', '#', '&', '*', '!', '|', '>', '\x27', '\x22', '%',
    '@', '\x60']
  !(isGap ch || marks.contains ch) ||
    (!s.cursor.gapAt 1 && (ch == '-' || (!s.inFlow && (ch == '?' || ch == ':'))))

/-- Reads the token that begins with a character. -/
def token (ch : Char) (s : Lexing) : Option Lexing :=
  let c := s.cursor
  let atMargin := c.column == 0
  if ch == '%' && atMargin then s.directive
  else if ch == '-' && atMargin && c.atMarks '-' then s.endDocument.map (take .documentStart 3)
  else if ch == '.' && atMargin && c.atMarks '.' then s.endDocument.map (take .documentEnd 3)
  else if ch == '[' then s.bracketOpen .square
  else if ch == '\x7b' then s.bracketOpen .curly
  else if ch == ']' then s.bracketClose .square
  else if ch == '\x7d' then s.bracketClose .curly
  else if ch == ',' then s.comma
  else if ch == '-' && c.gapAt 1 then s.entry
  else if ch == '?' && (s.inFlow || c.gapAt 1) then s.key
  else if ch == ':' && (s.inFlow || c.gapAt 1) then s.value
  else if ch == '*' then s.named .reference
  else if ch == '&' then s.named .anchor
  else if ch == '!' then s.tag
  else if ch == '|' && !s.inFlow then s.blockScalar false
  else if ch == '>' && !s.inFlow then s.blockScalar true
  else if ch == '\x27' then s.quotedScalar false
  else if ch == '\x22' then s.quotedScalar true
  else if s.beginsPlain ch then s.plainScalar
  else none

/-- Reads tokens to the end of the text. -/
def finish : (fuel : Nat) → Lexing → Option (Array Marked)
  | 0, _ => none
  | fuel + 1, s => do
    let s ← (skipGaps (s.cursor.rest.length + 1) s).dropStale
    let s := s.closeTo s.cursor.column
    match s.cursor.rest with
    | [] => (← (s.closeTo (-1)).dropCandidate).tokens
    | ch :: _ => finish fuel (← s.token ch)

end Lexing

/-- The tokens of a text; none when it is not well-formed. -/
def Token.ofText? (text : List Char) : Option (List Token) :=
  let text := normalizeBreaks text
  let text := if text.head? == some '\ufeff' then text.tail else text
  if text.all isPrintable then
    let s : Lexing := { cursor := { rest := text } }
    (s.finish (text.length + 1)).map fun tokens => tokens.toList.flatMap Marked.tokens
  else none

end ConsentBanner.Yaml
