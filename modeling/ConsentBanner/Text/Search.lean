/-!
Finding, replacing and splitting by a fixed text. All scans run left to right and never overlap.
-/

namespace ConsentBanner.Text

/-- What follows the pattern at the start of a text that begins with it. -/
def after? : (pattern text : List Char) → Option (List Char)
  | [], text => some text
  | _ :: _, [] => none
  | p :: pattern, c :: text => if p == c then after? pattern text else none

/-- Replaces every occurrence of a non-empty pattern; `skip` characters of a match are still to be dropped. -/
def replaceFrom (pattern replacement : List Char) : (skip : Nat) → List Char → List Char
  | _, [] => []
  | skip + 1, _ :: cs => replaceFrom pattern replacement skip cs
  | 0, c :: cs =>
    if pattern.isPrefixOf (c :: cs) then
      replacement ++ replaceFrom pattern replacement (pattern.length - 1) cs
    else c :: replaceFrom pattern replacement 0 cs

def replaceList (pattern replacement text : List Char) : List Char :=
  replaceFrom pattern replacement 0 text

/-- The text with every occurrence of a non-empty pattern replaced. -/
def replace (pattern replacement text : String) : String :=
  String.ofList (replaceList pattern.toList replacement.toList text.toList)

def containsList (pattern : List Char) : List Char → Bool
  | [] => pattern.isEmpty
  | c :: cs => pattern.isPrefixOf (c :: cs) || containsList pattern cs

def contains (pattern text : String) : Bool := containsList pattern.toList text.toList

def startsWith (pattern text : String) : Bool := pattern.toList.isPrefixOf text.toList

/-- The parts between the occurrences of a separating character, one more than there are occurrences. -/
def splitList (separator : Char) : List Char → List (List Char)
  | [] => [[]]
  | c :: cs =>
    if c == separator then [] :: splitList separator cs
    else
      match splitList separator cs with
      | [] => [[c]]
      | part :: parts => (c :: part) :: parts

def split (separator : Char) (s : String) : List String :=
  (splitList separator s.toList).map String.ofList

/-- The text before the first separator and, when there is one, the text after it. -/
def cutList (separator : Char) : List Char → List Char × Option (List Char)
  | [] => ([], none)
  | c :: cs =>
    if c == separator then ([], some cs)
    else let (before, rest) := cutList separator cs; (c :: before, rest)

/-- `splitOnce` at the first separator. -/
def splitOnce (separator : Char) (s : String) : String × Option String :=
  let (before, rest) := cutList separator s.toList
  (String.ofList before, rest.map String.ofList)

/-- The texts with a separator between neighbours. -/
def join (separator : String) : List String → String
  | [] => ""
  | [s] => s
  | s :: rest => s ++ separator ++ join separator rest

end ConsentBanner.Text
