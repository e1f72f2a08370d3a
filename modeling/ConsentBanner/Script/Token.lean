import ConsentBanner.Text.Blank
import ConsentBanner.Text.Case

/-!
Scripts without comments and incidental white space. A script is cut into quoted literals, gaps (comments
and white space) and single characters; literals are kept as they are, gaps vanish except between two
characters that would otherwise read as one word.
-/

namespace ConsentBanner.Script

/-- A piece of a script. -/
inductive Token where
  /-- A quoted literal with its delimiters, as it stands. -/
  | literal (text : List Char)
  /-- One comment or one white space character. -/
  | gap
  | char (c : Char)
deriving DecidableEq, Repr

def isQuote (c : Char) : Bool := c == '\x27' || c == '\x22' || c == '\x60'

/-- The rest of a literal up to and with its closing delimiter, and the text after it. A backslash takes
the next character along; an unterminated literal runs to the end. -/
def cutLiteral (quote : Char) : List Char → List Char × List Char
  | [] => ([], [])
  | '\x5c' :: [] => (['\x5c'], [])
  | '\x5c' :: c :: rest =>
    let (body, after) := cutLiteral quote rest
    ('\x5c' :: c :: body, after)
  | c :: rest =>
    if c == quote then ([c], rest)
    else
      let (body, after) := cutLiteral quote rest
      (c :: body, after)

/-- The text after the end of a block comment; nothing when it is not closed. -/
def afterBlockComment : List Char → List Char
  | [] => []
  | '*' :: '/' :: rest => rest
  | _ :: rest => afterBlockComment rest

theorem cutLiteral_length (quote : Char) (cs : List Char) :
    (cutLiteral quote cs).2.length ≤ cs.length := by
  fun_induction cutLiteral quote cs <;> simp_all <;> omega

theorem afterBlockComment_length (cs : List Char) :
    (afterBlockComment cs).length ≤ cs.length := by
  fun_induction afterBlockComment cs <;> simp_all <;> omega

/-- A line comment ends before the next line feed. -/
def afterLineComment (cs : List Char) : List Char := cs.dropWhile (· != '\n')

theorem afterLineComment_length (cs : List Char) :
    (afterLineComment cs).length ≤ cs.length := by
  induction cs with
  | nil => simp [afterLineComment]
  | cons c cs ih =>
    unfold afterLineComment at ih ⊢
    rw [List.dropWhile_cons]
    split
    · simp only [List.length_cons]
      omega
    · simp

/-- The pieces of a script, left to right. -/
def tokens (source : List Char) : List Token :=
  match source with
  | [] => []
  | '/' :: '/' :: rest => .gap :: tokens (afterLineComment rest)
  | '/' :: '*' :: rest => .gap :: tokens (afterBlockComment rest)
  | c :: rest =>
    if isQuote c then
      .literal (c :: (cutLiteral c rest).1) :: tokens (cutLiteral c rest).2
    else if Text.isBlank c then .gap :: tokens rest
    else .char c :: tokens rest
termination_by source.length
decreasing_by
  all_goals simp only [List.length_cons]
  · have := afterLineComment_length rest
    omega
  · have := afterBlockComment_length rest
    omega
  · have := cutLiteral_length c rest
    omega
  · omega
  · omega

/-- Whether a gap between two characters has to stay visible. -/
def fuses (last : Option Char) (c : Char) : Bool :=
  match last with
  | some l => Text.isIdentifierChar l && Text.isIdentifierChar c
  | none => false

/-- The written pieces after `last`, the character written before, and, when `gapped`, after a gap. -/
def join (gapped : Bool) (last : Option Char) : List Token → List Char
  | [] => []
  | .literal text :: rest => text ++ join false text.getLast? rest
  | .gap :: rest => join true last rest
  | .char c :: rest =>
    if gapped && fuses last c then ' ' :: c :: join false (some c) rest
    else c :: join false (some c) rest

def compactList (source : List Char) : List Char := join false none (tokens source)

/-- The script without comments and incidental white space. -/
def compact (source : String) : String := String.ofList (compactList source.toList)

end ConsentBanner.Script
