import ConsentBanner.Json.Reader
import ConsentBanner.Yaml.Cursor

/-!
The texts of scalars as they are written: in quotation marks, plain, and as indented blocks. Each function
starts at the first character of a scalar and yields its text with the place after it.
-/

namespace ConsentBanner.Yaml

/-- Characters read so far, the last one first. -/
abbrev Read := List Char

def Read.text (r : Read) : String := String.ofList r.reverse

def Read.push (r : Read) (cs : List Char) : Read := cs.reverse ++ r

/-- The character that an escape letter stands for. -/
def escaped? : Char → Option Char
  | '0' => some '\x00'
  | 'a' => some '\x07'
  | 'b' => some '\x08'
  | 't' => some '\t'
  | '\t' => some '\t'
  | 'n' => some '\n'
  | 'v' => some '\x0b'
  | 'f' => some '\x0c'
  | 'r' => some '\r'
  | 'e' => some '\x1b'
  | ' ' => some ' '
  | '\x22' => some '\x22'
  | '\x5c' => some '\x5c'
  | '/' => some '/'
  | 'N' => some '\x85'
  | '_' => some '\u00a0'
  | 'L' => some '\u2028'
  | 'P' => some '\u2029'
  | _ => none

/-- How many hexadecimal digits follow an escape letter. -/
def escapeDigits? : Char → Option Nat
  | 'x' => some 2
  | 'u' => some 4
  | 'U' => some 8
  | _ => none

/-- The number written in hexadecimal digits. -/
def hexNumber? (ds : List Char) : Option Nat :=
  ds.foldlM (fun n d => (Text.hexValue? d).map (n * 16 + ·)) 0

/-- The character of a code and the place after it; the codes of two surrogates make one character. -/
def codeChar? (code : Nat) (c : Cursor) : Option (Char × Cursor) :=
  if 0xd800 ≤ code ∧ code < 0xdc00 then
    match Json.readLowSurrogate? c.rest with
    | some (low, _) => some (Char.ofNat (0x10000 + (code - 0xd800) * 0x400 + (low - 0xdc00)), c.advanceBy 6)
    | none => some (Json.unitChar code, c)
  else if code < 0x110000 then some (Json.unitChar code, c)
  else none

/-- The line ends of empty lines, with the indentation of the line after them skipped. -/
def quotedBreaks : (fuel : Nat) → Cursor → Read → Option (Read × Cursor)
  | 0, _, _ => none
  | fuel + 1, c, r =>
    if c.atSeparator then none
    else
      let c := c.skip fun ch => ch == ' ' || ch == '\t'
      match c.rest with
      | ch :: _ => if isBreak ch then quotedBreaks fuel c.advance (breakChar ch :: r) else some (r, c)
      | [] => some (r, c)

/-- A line end inside a scalar with the empty lines after it: alone it is a space, and before empty lines it
is nothing. -/
def foldBreak (ch : Char) (breaks : Read) (r : Read) : Read :=
  let ch := breakChar ch
  if ch != '\n' then breaks ++ ch :: r
  else if breaks.isEmpty then ' ' :: r
  else breaks ++ r

/-- White space inside quotation marks. -/
def quotedGap (fuel : Nat) (c : Cursor) (r : Read) : Option (Read × Cursor) :=
  let blank (ch : Char) : Bool := ch == ' ' || ch == '\t'
  let blanks := c.run blank
  let c := c.skip blank
  match c.rest with
  | [] => none
  | ch :: _ =>
    if isBreak ch then
      (quotedBreaks fuel c.advance []).map fun (breaks, c) => (foldBreak ch breaks r, c)
    else some (r.push blanks, c)

/-- What follows a backslash between double quotation marks. -/
def quotedEscape (fuel : Nat) (c : Cursor) (r : Read) : Option (Read × Cursor) :=
  match c.rest with
  | [] => none
  | ch :: _ =>
    match escaped? ch, escapeDigits? ch with
    | some e, _ => some (e :: r, c.advance)
    | none, some n =>
      let ds := c.advance.rest.take n
      if ds.length < n then none
      else
        (hexNumber? ds).bind fun code =>
          (codeChar? code (c.advance.advanceBy n)).map fun (e, c) => (e :: r, c)
    | none, none => if isBreak ch then quotedBreaks fuel c.advance r else none

/-- The rest of a scalar after its opening quotation mark. -/
def quotedRest (double : Bool) : (fuel : Nat) → Cursor → Read → Option (String × Cursor)
  | 0, _, _ => none
  | fuel + 1, c, r =>
    match c.rest with
    | [] => none
    | ch :: rest =>
      if ch == ' ' || ch == '\t' || isBreak ch then
        (quotedGap fuel c r).bind fun (r, c) => quotedRest double fuel c r
      else if double && ch == '\x22' then some (r.text, c.advance)
      else if double && ch == '\x5c' then
        (quotedEscape fuel c.advance r).bind fun (r, c) => quotedRest double fuel c r
      else if !double && ch == '\x27' then
        if rest.head? == some '\x27' then quotedRest double fuel (c.advanceBy 2) ('\x27' :: r)
        else some (r.text, c.advance)
      else quotedRest double fuel c.advance (ch :: r)

/-- A scalar in quotation marks. -/
def quoted (double : Bool) (c : Cursor) : Option (String × Cursor) :=
  quotedRest double (c.rest.length + 1) c.advance []

/-- Whether a plain scalar ends before a text. -/
def endsPlain (inFlow : Bool) : List Char → Bool
  | [] => true
  | ':' :: rest =>
    match rest with
    | [] => true
    | next :: _ => isGap next || (inFlow && [',', '[', ']', '\x7b', '\x7d'].contains next)
  | ch :: _ => isGap ch || (inFlow && [',', '?', '[', ']', '\x7b', '\x7d'].contains ch)

/-- The characters of a plain scalar up to the next gap. -/
def plainWord (inFlow : Bool) : List Char → List Char
  | [] => []
  | ch :: rest => if endsPlain inFlow (ch :: rest) then [] else ch :: plainWord inFlow rest

/-- The white space between the lines of a plain scalar; none where a document ends. -/
def plainBreaks : (fuel : Nat) → Cursor → Read → Option Read × Cursor
  | 0, c, r => (some r, c)
  | fuel + 1, c, r =>
    match c.rest with
    | ' ' :: _ => plainBreaks fuel c.advance r
    | ch :: _ =>
      if isBreak ch then
        if c.advance.atSeparator then (none, c.advance)
        else plainBreaks fuel c.advance (breakChar ch :: r)
      else (some r, c)
    | [] => (some r, c)

/-- A gap inside a plain scalar: its text, none where the scalar ends with it; whether it held a line end;
and the place after it. -/
def plainGap (fuel : Nat) (c : Cursor) : Option Read × Bool × Cursor :=
  let blanks := c.run (· == ' ')
  let c := c.skip (· == ' ')
  match c.rest with
  | ch :: _ =>
    if isBreak ch then
      if c.advance.atSeparator then (none, true, c.advance)
      else
        match plainBreaks fuel c.advance [] with
        | (some breaks, c) => (some (foldBreak ch breaks []), true, c)
        | (none, c) => (none, true, c)
    else (if blanks.isEmpty then none else some blanks, false, c)
  | [] => (if blanks.isEmpty then none else some blanks, false, c)

/-- A plain scalar whose gaps so far are in `gap`. -/
def plainRest (inFlow : Bool) (indent : Int) : (fuel : Nat) → Cursor → (gap : Read) → Read → (broken : Bool) →
    String × Bool × Cursor
  | 0, c, _, r, broken => (r.text, broken, c)
  | fuel + 1, c, gap, r, broken =>
    let word := if c.startsWith (· == '#') then [] else plainWord inFlow c.rest
    if word.isEmpty then (r.text, broken, c)
    else
      let r := Read.push (gap ++ r) word
      match plainGap fuel (c.advanceBy word.length) with
      | (none, broken, c) => (r.text, broken, c)
      | (some gap, broken, c) =>
        if c.startsWith (· == '#') || (!inFlow && (c.column : Int) < indent) then (r.text, broken, c)
        else plainRest inFlow indent fuel c gap r broken

/-- A plain scalar of lines indented at least as given, and whether the place after it is on a new line. -/
def plain (inFlow : Bool) (indent : Int) (c : Cursor) : String × Bool × Cursor :=
  plainRest inFlow indent (c.rest.length + 1) c [] [] false

/-- What becomes of the line ends at the end of a block. -/
inductive Chomping where
  | strip
  | clip
  | keep
deriving DecidableEq, Repr

/-- The marks after the sign of a block: how it ends and how far it is indented. -/
def blockMarks (c : Cursor) : Option (Chomping × Option Nat × Cursor) := do
  let chomping? : Char → Option Chomping
    | '+' => some .keep
    | '-' => some .strip
    | _ => none
  let digit? (ch : Char) : Option Nat := if '1' ≤ ch ∧ ch ≤ '9' then some (ch.toNat - '0'.toNat) else none
  let found : Chomping × Option Nat × Nat :=
    match c.rest with
    | a :: b :: _ =>
      match chomping? a, digit? a with
      | some m, _ => (m, digit? b, if (digit? b).isSome then 2 else 1)
      | none, some n => ((chomping? b).getD .clip, some n, if (chomping? b).isSome then 2 else 1)
      | none, none => (.clip, none, 0)
    | [a] =>
      match chomping? a, digit? a with
      | some m, _ => (m, none, 1)
      | none, some n => (.clip, some n, 1)
      | none, none => (.clip, none, 0)
    | [] => (.clip, none, 0)
  let c := c.advanceBy found.2.2
  if c.rest.isEmpty || c.startsWith (fun ch => ch == ' ' || isBreak ch) then some (found.1, found.2.1, c)
  else none

/-- The rest of the line on which a block is announced: white space and a comment. -/
def blockHead (c : Cursor) : Option Cursor :=
  let c := c.skip (· == ' ')
  let c := if c.startsWith (· == '#') then c.skip (fun ch => !isBreak ch) else c
  match c.rest with
  | [] => some c
  | ch :: _ => if isBreak ch then some c.advance else none

/-- The empty lines before the text of a block, and the indentation of the widest of them or of the text. -/
def blockIndentation : (fuel : Nat) → Cursor → Read → (widest : Nat) → Read × Nat × Cursor
  | 0, c, r, widest => (r, widest, c)
  | fuel + 1, c, r, widest =>
    match c.rest with
    | ' ' :: _ => blockIndentation fuel c.advance r (max widest c.advance.column)
    | ch :: _ =>
      if isBreak ch then blockIndentation fuel c.advance (breakChar ch :: r) widest else (r, widest, c)
    | [] => (r, widest, c)

/-- Moves over spaces as far as a column. -/
def indentTo (column : Nat) : (fuel : Nat) → Cursor → Cursor
  | 0, c => c
  | fuel + 1, c =>
    if c.column < column && c.startsWith (· == ' ') then indentTo column fuel c.advance else c

/-- The empty lines between the lines of a block. -/
def blockBreaks (indent : Nat) : (fuel : Nat) → Cursor → Read → Read × Cursor
  | 0, c, r => (r, c)
  | fuel + 1, c, r =>
    let c := indentTo indent indent c
    match c.rest with
    | ch :: _ => if isBreak ch then blockBreaks indent fuel c.advance (breakChar ch :: r) else (r, c)
    | [] => (r, c)

/-- The end of a block: its last line end and the empty lines after it. -/
def Chomping.finish (m : Chomping) (lineEnd breaks : Read) (r : Read) : Read :=
  match m with
  | strip => r
  | clip => lineEnd ++ r
  | keep => breaks ++ lineEnd ++ r

/-- The lines of a block, from the first character of a line on. -/
def blockLines (folded : Bool) (chomping : Chomping) (indent : Nat) :
    (fuel : Nat) → Cursor → (breaks : Read) → (lineEnd : Read) → Read → String × Cursor
  | 0, c, _, _, r => (r.text, c)
  | fuel + 1, c, breaks, lineEnd, r =>
    if c.column != indent || c.rest.isEmpty then ((chomping.finish lineEnd breaks r).text, c)
    else
      let isBlank (ch : Char) : Bool := ch == ' ' || ch == '\t'
      let text := c.run fun ch => !isBreak ch
      let startsBlank := c.startsWith isBlank
      let r := Read.push (breaks ++ r) text
      let c := c.advanceBy text.length
      let lineEnd := (c.rest.take 1).map breakChar
      let (breaks, c) := blockBreaks indent fuel c.advance []
      if c.column != indent || c.rest.isEmpty then ((chomping.finish lineEnd breaks r).text, c)
      else if folded && lineEnd == ['\n'] && !startsBlank && !c.startsWith isBlank then
        blockLines folded chomping indent fuel c breaks lineEnd (if breaks.isEmpty then ' ' :: r else r)
      else blockLines folded chomping indent fuel c breaks lineEnd (lineEnd ++ r)

/-- A block whose sign stands at the cursor, inside a node of the given indentation. -/
def block (folded : Bool) (outer : Int) (c : Cursor) : Option (String × Cursor) := do
  let fuel := c.rest.length + 1
  let (chomping, increment, c) ← blockMarks c.advance
  let c ← blockHead c
  let least := max 1 (outer + 1).toNat
  match increment with
  | some n =>
    let indent := least + n - 1
    let (breaks, c) := blockBreaks indent fuel c []
    return blockLines folded chomping indent fuel c breaks [] []
  | none =>
    let (breaks, widest, c) := blockIndentation fuel c [] 0
    return blockLines folded chomping (max least widest) fuel c breaks [] []

end ConsentBanner.Yaml
