import ConsentBanner.Markup.Collapse
import ConsentBanner.Text.Search

/-!
Stylesheets without comments and white space around punctuation.
-/

namespace ConsentBanner.Stylesheet

/-- The text after the end of a comment, when it is closed. -/
def afterComment? : List Char → Option (List Char)
  | [] => none
  | '*' :: '/' :: rest => some rest
  | _ :: rest => afterComment? rest

theorem afterComment?_length {cs rest : List Char} (h : afterComment? cs = some rest) :
    rest.length < cs.length := by
  fun_induction afterComment? cs with
  | case1 => cases h
  | case2 r =>
    cases h
    simp only [List.length_cons]
    omega
  | case3 _ r _ ih =>
    have := ih h
    simp only [List.length_cons]
    omega

/-- The text without its closed comments. -/
def dropComments (cs : List Char) : List Char :=
  match cs with
  | [] => []
  | '/' :: '*' :: rest =>
    match _h : afterComment? rest with
    | some after => dropComments after
    | none => '/' :: '*' :: rest
  | c :: rest => c :: dropComments rest
termination_by cs.length
decreasing_by
  all_goals simp only [List.length_cons]
  all_goals try have := afterComment?_length _h
  all_goals omega

/-- Characters that need no white space around them. -/
def isPunctuation (c : Char) : Bool :=
  c == '\x7b' || c == '\x7d' || c == ';' || c == ':' || c == ',' || c == '>'

def startsPunctuated : List Char → Bool
  | c :: _ => isPunctuation c
  | [] => false

/-- Puts a character in front of a text without white space around punctuation. -/
def tighten (c : Char) (rest : List Char) : List Char :=
  if isPunctuation c then c :: rest.dropWhile Text.isBlank
  else if Text.isBlank c && startsPunctuated rest then rest
  else c :: rest

def compactList (css : List Char) : List Char :=
  let css := Markup.squeeze false (dropComments css)
  let css := css.foldr tighten []
  Text.trimList (Text.replaceList [';', '\x7d'] ['\x7d'] css)

/-- The stylesheet without comments and incidental white space. -/
def compact (css : String) : String := String.ofList (compactList css.toList)

end ConsentBanner.Stylesheet
