import ConsentBanner.Text.Integer

/-!
Texts as bytes: every character in one to four bytes, bytes written as a percent sign and two hexadecimal digits, and bytes
written in base 64, six bits to a character. There characters outside the alphabet do not count, as long as they are ASCII,
and reading ends where padding completes four characters.
-/

namespace ConsentBanner.Text

/-- The bytes of a character. -/
def charBytes (c : Char) : List Nat :=
  let n := c.toNat
  if n < 0x80 then [n]
  else if n < 0x800 then [0xc0 + n / 0x40, 0x80 + n % 0x40]
  else if n < 0x10000 then [0xe0 + n / 0x1000, 0x80 + n / 0x40 % 0x40, 0x80 + n % 0x40]
  else [0xf0 + n / 0x40000, 0x80 + n / 0x1000 % 0x40, 0x80 + n / 0x40 % 0x40, 0x80 + n % 0x40]

/-- How a sequence goes on after its first byte: how many bytes follow, the bounds of the first of them, and
the bits of the first byte. -/
structure Lead where
  following : Nat
  low : Nat := 0x80
  high : Nat := 0xbf
  bits : Nat

/-- The first bytes of sequences of more than one byte. -/
def lead? (b : Nat) : Option Lead :=
  if 0xc2 ≤ b ∧ b ≤ 0xdf then some { following := 1, bits := b - 0xc0 }
  else if b = 0xe0 then some { following := 2, low := 0xa0, bits := 0 }
  else if b = 0xed then some { following := 2, high := 0x9f, bits := 0xd }
  else if 0xe1 ≤ b ∧ b ≤ 0xef then some { following := 2, bits := b - 0xe0 }
  else if b = 0xf0 then some { following := 3, low := 0x90, bits := 0 }
  else if 0xf1 ≤ b ∧ b ≤ 0xf3 then some { following := 3, bits := b - 0xf0 }
  else if b = 0xf4 then some { following := 3, high := 0x8f, bits := 4 }
  else none

/-- Reads the bytes that follow: the value when all are there, and the number of those that fit. -/
def follow (low high value : Nat) : (count : Nat) → List Nat → Option Nat × Nat
  | 0, _ => (some value, 0)
  | _ + 1, [] => (none, 0)
  | count + 1, b :: rest =>
    if low ≤ b ∧ b ≤ high then
      let (v, used) := follow 0x80 0xbf (value * 0x40 + (b - 0x80)) count rest
      (v, used + 1)
    else (none, 0)

def replacement : Char := '\ufffd'

/-- The character of the bytes that begin with `b` and how many more bytes it takes. A sequence that breaks
off is one replacement character. -/
def firstChar (b : Nat) (rest : List Nat) : Char × Nat :=
  if b < 0x80 then (Char.ofNat b, 0)
  else
    match lead? b with
    | none => (replacement, 0)
    | some l =>
      match follow l.low l.high l.bits l.following rest with
      | (some n, used) => (Char.ofNat n, used)
      | (none, used) => (replacement, used)

/-- The characters of bytes of which `skip` belong to a character that was already read. -/
def charsFrom : (skip : Nat) → List Nat → List Char
  | _, [] => []
  | skip + 1, _ :: rest => charsFrom skip rest
  | 0, b :: rest =>
    let (c, used) := firstChar b rest
    c :: charsFrom used rest

/-- The text of bytes, with replacement characters where they are no text. -/
def ofBytes (bytes : List Nat) : List Char := charsFrom 0 bytes

/-- The text of bytes that are one: whose characters are written with them. -/
def ofBytes? (bytes : List Nat) : Option (List Char) :=
  let cs := ofBytes bytes
  if cs.flatMap charBytes == bytes then some cs else none

/-- The characters that stand for themselves inside a component of an address. -/
def isUnreserved (c : Char) : Bool :=
  c.isAlphanum || ['-', '_', '.', '~', '!', '*', '\x27', '(', ')'].contains c

def upperHexDigit (n : Nat) : Char := ((Nat.toDigits 16 (n % 16)).getLastD '0').toUpper

def percentByte (b : Nat) : List Char := ['%', upperHexDigit (b / 16), upperHexDigit b]

def percentChar (c : Char) : List Char :=
  if isUnreserved c then [c] else (charBytes c).flatMap percentByte

/-- The text with all but unreserved characters as bytes. -/
def percentEncode (s : String) : String := String.ofList (s.toList.flatMap percentChar)

/-- The bytes of ASCII text of which `skip` characters belong to a byte that was already read. -/
def percentBytes : (skip : Nat) → List Char → List Nat
  | _, [] => []
  | skip + 1, _ :: cs => percentBytes skip cs
  | 0, '%' :: a :: b :: cs =>
    match hexValue? a, hexValue? b with
    | some x, some y => (x * 16 + y) :: percentBytes 2 (a :: b :: cs)
    | _, _ => '%'.toNat :: percentBytes 0 (a :: b :: cs)
  | 0, c :: cs => c.toNat :: percentBytes 0 cs

def isAscii (c : Char) : Bool := c.toNat < 128

/-- Runs of ASCII characters are decoded each for itself; `ascii` holds the run so far, last first. -/
def decodeRuns (ascii : List Char) : List Char → List Char
  | [] => ofBytes (percentBytes 0 ascii.reverse)
  | c :: cs =>
    if isAscii c then decodeRuns (c :: ascii) cs
    else ofBytes (percentBytes 0 ascii.reverse) ++ c :: decodeRuns [] cs

/-- The text with the bytes decoded; percent signs without two digits stay as they are. -/
def percentDecode (s : String) : String := String.ofList (decodeRuns [] s.toList)

end ConsentBanner.Text

namespace ConsentBanner.Text.Base64

/-- The six bits of a character of the alphabet. -/
def value? (c : Char) : Option Nat :=
  if 'A' ≤ c ∧ c ≤ 'Z' then some (c.toNat - 'A'.toNat)
  else if 'a' ≤ c ∧ c ≤ 'z' then some (c.toNat - 'a'.toNat + 26)
  else if c.isDigit then some (c.toNat - '0'.toNat + 52)
  else if c == '+' then some 62
  else if c == '/' then some 63
  else none

/-- The bytes of the rest of a text. Of the four characters that make three bytes the values of those read so
far are `quad`, and `pads` marks of padding follow them. -/
def decodeFrom (quad : List Nat) (pads : Nat) : List Char → Option (List Nat)
  | [] => if quad.isEmpty then some [] else none
  | '=' :: rest =>
    match quad with
    | [a, b] => if 1 ≤ pads then some [a * 4 + b / 16] else decodeFrom quad (pads + 1) rest
    | [a, b, c] => some [a * 4 + b / 16, b % 16 * 16 + c / 4]
    | _ => decodeFrom quad pads rest
  | ch :: rest =>
    match value? ch, quad with
    | none, _ => decodeFrom quad pads rest
    | some d, [a, b, c] =>
      (decodeFrom [] 0 rest).map ([a * 4 + b / 16, b % 16 * 16 + c / 4, c % 4 * 64 + d] ++ ·)
    | some v, _ => decodeFrom (quad ++ [v]) 0 rest

def decode? (cs : List Char) : Option (List Nat) :=
  if cs.all (·.toNat < 128) then decodeFrom [] 0 cs else none

end ConsentBanner.Text.Base64
