import ConsentBanner.Json.Basic
import ConsentBanner.Text.Integer

/-!
Reading JSON texts. Besides the standard grammar the names `NaN`, `Infinity` and `-Infinity` are read; of
equal keys in one object the last value stands at the place of the first. A failure tells where it was found.
-/

namespace ConsentBanner.Json

/-- Why a text could not be read. -/
inductive ReadError where
  /-- It breaks the grammar; the number of characters from there to the end is given. -/
  | malformed (remaining : Nat)
  /-- An integer in it has too many digits. -/
  | tooManyDigits
deriving DecidableEq, Repr

def failAt {α : Type} (rest : List Char) : Except ReadError α := .error (.malformed rest.length)

def isSpace (c : Char) : Bool := c == ' ' || c == '\t' || c == '\n' || c == '\r'

def skipSpace (cs : List Char) : List Char := cs.dropWhile isSpace

def isSurrogate (n : Nat) : Bool := 0xd800 ≤ n && n < 0xe000

/-- The character of a 16-bit unit; a lone surrogate has none and becomes the replacement character. -/
def unitChar (n : Nat) : Char := if isSurrogate n then '\ufffd' else Char.ofNat n

/-- Four hexadecimal digits and the text after them. -/
def readUnit? : List Char → Option (Nat × List Char)
  | a :: b :: c :: d :: rest =>
    match Text.hexValue? a, Text.hexValue? b, Text.hexValue? c, Text.hexValue? d with
    | some a, some b, some c, some d => some (((a * 16 + b) * 16 + c) * 16 + d, rest)
    | _, _, _, _ => none
  | _ => none

/-- The character of an escape letter that stands for one. -/
def escapeChar? : Char → Option Char
  | '\x22' => some '\x22'
  | '\x5c' => some '\x5c'
  | '/' => some '/'
  | 'b' => some '\x08'
  | 'f' => some '\x0c'
  | 'n' => some '\n'
  | 'r' => some '\r'
  | 't' => some '\t'
  | _ => none

/-- A low surrogate escape at the start of a text that goes on after it. -/
def readLowSurrogate? : List Char → Option (Nat × List Char)
  | '\x5c' :: 'u' :: rest =>
    match readUnit? rest with
    | some (n, rest) => if 0xdc00 ≤ n ∧ n < 0xe000 ∧ rest ≠ [] then some (n, rest) else none
    | none => none
  | _ => none

theorem readUnit?_length {cs rest : List Char} {n : Nat} (h : readUnit? cs = some (n, rest)) :
    rest.length + 4 = cs.length := by
  unfold readUnit? at h
  split at h
  · split at h
    · cases h
      rfl
    · cases h
  · cases h

theorem readLowSurrogate?_length {cs rest : List Char} {n : Nat}
    (h : readLowSurrogate? cs = some (n, rest)) : rest.length + 6 = cs.length := by
  unfold readLowSurrogate? at h
  split at h
  · split at h
    · rename_i hu
      split at h
      · cases h
        have := readUnit?_length hu
        simp only [List.length_cons]
        omega
      · cases h
    · cases h
  · cases h

/-- The rest of a text after its opening quotation mark; `opened` is what begins with the mark. -/
def readChars (opened cs : List Char) : Except ReadError (List Char × List Char) :=
  match cs with
  | [] => failAt opened
  | '\x22' :: rest => .ok ([], rest)
  | '\x5c' :: [] => failAt opened
  | '\x5c' :: 'u' :: rest =>
    if (rest.drop 4).isEmpty then failAt ('u' :: rest)
    else
      match _hu : readUnit? rest with
      | none => failAt ('u' :: rest)
      | some (n, tail) =>
        if 0xd800 ≤ n ∧ n < 0xdc00 then
          match _hl : readLowSurrogate? tail with
          | some (low, tail') => do
            let (s, after) ← readChars opened tail'
            .ok (Char.ofNat (0x10000 + (n - 0xd800) * 0x400 + (low - 0xdc00)) :: s, after)
          | none => do
            let (s, after) ← readChars opened tail
            .ok (unitChar n :: s, after)
        else do
          let (s, after) ← readChars opened tail
          .ok (unitChar n :: s, after)
  | '\x5c' :: c :: rest =>
    match escapeChar? c with
    | none => failAt ('\x5c' :: c :: rest)
    | some c => do
      let (s, after) ← readChars opened rest
      .ok (c :: s, after)
  | c :: rest =>
    if c.toNat < 0x20 then failAt (c :: rest)
    else do
      let (s, after) ← readChars opened rest
      .ok (c :: s, after)
termination_by cs.length
decreasing_by
  all_goals simp only [List.length_cons]
  all_goals try have := readUnit?_length _hu
  all_goals try have := readLowSurrogate?_length _hl
  all_goals omega

/-- The digits after a point that is followed by a digit, and the text after them. -/
def readFraction : List Char → List Char × List Char
  | '.' :: c :: rest =>
    if c.isDigit then (c :: rest.takeWhile Char.isDigit, rest.dropWhile Char.isDigit)
    else ([], '.' :: c :: rest)
  | cs => ([], cs)

/-- Sign and digits after an exponent mark that are followed by a digit. -/
def readExponent : List Char → Option (Int × List Char)
  | e :: rest =>
    if e == 'e' || e == 'E' then
      let (negative, digits) :=
        match rest with
        | '-' :: rest => (true, rest)
        | '+' :: rest => (false, rest)
        | rest => (false, rest)
      match digits.takeWhile Char.isDigit with
      | [] => none
      | ds =>
        let n : Int := Text.plainValue ds
        some (if negative then -n else n, digits.dropWhile Char.isDigit)
    else none
  | [] => none

/-- A number: an integer when it has neither a fraction nor an exponent. The limit, if there is one, is the number of
digits up to which integers are read. -/
def readNumber (limit : Option Nat) (cs : List Char) : Except ReadError (Json × List Char) :=
  let (negative, digits) :=
    match cs with
    | '-' :: rest => (true, rest)
    | rest => (false, rest)
  let whole :=
    match digits with
    | '0' :: _ => ['0']
    | _ => digits.takeWhile Char.isDigit
  if whole.isEmpty then failAt cs
  else
    let rest := digits.drop whole.length
    let (fraction, rest') := readFraction rest
    match readExponent rest' with
    | some (e, rest'') =>
      .ok (.float (Double.ofDecimal negative (Text.plainValue (whole ++ fraction)) (e - fraction.length)), rest'')
    | none =>
      if !fraction.isEmpty then
        .ok (.float (Double.ofDecimal negative (Text.plainValue (whole ++ fraction)) (-fraction.length)), rest')
      else if limit.any (· < whole.length) then .error .tooManyDigits
      else
        let n : Int := Text.plainValue whole
        .ok (.int (if negative then -n else n), rest)

/-- The names of single values. -/
def names : List (List Char × Json) := [
  ("null".toList, .null), ("true".toList, .bool true), ("false".toList, .bool false),
  ("NaN".toList, .float .nan), ("Infinity".toList, .float (.infinite false)),
  ("-Infinity".toList, .float (.infinite true))]

/-- A name at the start of a text. -/
def readName? (cs : List Char) : Option (Json × List Char) :=
  (names.find? fun (name, _) => name.isPrefixOf cs).map fun (name, v) => (v, cs.drop name.length)

/-- A name or a number. -/
def readScalar (limit : Option Nat) (cs : List Char) : Except ReadError (Json × List Char) :=
  match readName? cs with
  | some r => .ok r
  | none => readNumber limit cs

mutual

/-- A value at the start of a text. The fuel exceeds the calls that a text of half its size needs. -/
def readValueWithin (limit : Option Nat) (fuel : Nat) (cs : List Char) : Except ReadError (Json × List Char) :=
  match fuel with
  | 0 => failAt cs
  | fuel + 1 =>
    match cs with
    | '\x22' :: rest => do
      let (s, after) ← readChars cs rest
      .ok (.str (String.ofList s), after)
    | '[' :: rest =>
      match skipSpace rest with
      | ']' :: after => .ok (.arr [], after)
      | rest => do
        let (items, after) ← readItems limit fuel rest
        .ok (.arr items, after)
    | '\x7b' :: rest =>
      match skipSpace rest with
      | '\x7d' :: after => .ok (.obj [], after)
      | rest => do
        let (pairs, after) ← readPairs limit fuel rest
        .ok (.obj (Fields.ofPairs pairs), after)
    | cs => readScalar limit cs

/-- The items of a list up to its closing bracket. -/
def readItems (limit : Option Nat) (fuel : Nat) (cs : List Char) : Except ReadError (List Json × List Char) :=
  match fuel with
  | 0 => failAt cs
  | fuel + 1 => do
    let (v, rest) ← readValueWithin limit fuel cs
    match skipSpace rest with
    | ']' :: after => .ok ([v], after)
    | ',' :: rest =>
      let (vs, after) ← readItems limit fuel (skipSpace rest)
      .ok (v :: vs, after)
    | rest => failAt rest

/-- The fields of an object up to its closing brace. -/
def readPairs (limit : Option Nat) (fuel : Nat) (cs : List Char) : Except ReadError (List (String × Json) × List Char) :=
  match fuel with
  | 0 => failAt cs
  | fuel + 1 =>
    match cs with
    | '\x22' :: tail => do
      let (key, rest) ← readChars cs tail
      match skipSpace rest with
      | ':' :: rest =>
        let (v, rest) ← readValueWithin limit fuel (skipSpace rest)
        match skipSpace rest with
        | '\x7d' :: after => .ok ([(String.ofList key, v)], after)
        | ',' :: rest =>
          let (pairs, after) ← readPairs limit fuel (skipSpace rest)
          .ok ((String.ofList key, v) :: pairs, after)
        | rest => failAt rest
      | rest => failAt rest
    | cs => failAt cs

end

/-- A value at the start of a text, with integers of so many digits as are ever read. -/
def readValue (fuel : Nat) (cs : List Char) : Except ReadError (Json × List Char) :=
  readValueWithin (some Text.maxDigits) fuel cs

/-- A whole text that holds one value between white space. -/
def parseWithin (limit : Option Nat) (cs : List Char) : Except ReadError Json := do
  let (v, rest) ← readValueWithin limit (2 * cs.length + 2) (skipSpace cs)
  match skipSpace rest with
  | [] => .ok v
  | rest => failAt rest

def parseList (cs : List Char) : Except ReadError Json := parseWithin (some Text.maxDigits) cs

/-- The value of a text, or the place of the first fault. -/
def parse (s : String) : Except ReadError Json := parseList s.toList

/-- The value of a text, if it is one. -/
def parse? (s : String) : Option Json := (parse s).toOption

end ConsentBanner.Json
