/-!
White space of every script, and texts without their outer white space.
-/

namespace ConsentBanner.Text

/-- White space of every script, with the four information separators and the next-line control. -/
def isBlank (c : Char) : Bool :=
  let n := c.toNat
  (9 ≤ n && n ≤ 13) || (28 ≤ n && n ≤ 32) || n == 0x85 || n == 0xa0 || n == 0x1680 ||
    (0x2000 ≤ n && n ≤ 0x200a) || n == 0x2028 || n == 0x2029 || n == 0x202f || n == 0x205f || n == 0x3000

/-- The text without the trailing characters of a class. -/
def dropTrailing (p : Char → Bool) (cs : List Char) : List Char :=
  (cs.reverse.dropWhile p).reverse

def trimList (cs : List Char) : List Char := dropTrailing isBlank (cs.dropWhile isBlank)

/-- White space around a numeral: all but the information separators. -/
def isPadding (c : Char) : Bool := isBlank c && !(28 ≤ c.toNat && c.toNat ≤ 31)

def trimPadding (cs : List Char) : List Char := dropTrailing isPadding (cs.dropWhile isPadding)

/-- The text without its outer white space. -/
def trim (s : String) : String := String.ofList (trimList s.toList)

/-- A text of white space alone, or none at all. -/
def isBlankText (s : String) : Bool := s.toList.all isBlank

/-- A text that is given and not empty, or the default. -/
def orDefault (s : Option String) (default : String) : String :=
  match s with
  | some "" | none => default
  | some s => s

/-- The text without its trailing slashes. -/
def dropTrailingSlashes (s : String) : String := String.ofList (dropTrailing (· == '/') s.toList)

end ConsentBanner.Text
