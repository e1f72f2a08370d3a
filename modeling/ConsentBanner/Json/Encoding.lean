import ConsentBanner.Json.Reader
import ConsentBanner.Text.Utf8

/-!
JSON documents in bytes. The zeros among the first four bytes tell the encoding, since the first two
characters of a document are ASCII.
-/

namespace ConsentBanner.Json

/-- How the characters of a document stand in its bytes. -/
inductive Encoding where
  | utf8
  | utf16 (bigEndian : Bool)
  | utf32 (bigEndian : Bool)
deriving DecidableEq, Repr

namespace Encoding

/-- The encoding of bytes that begin with no mark of two or four bytes. -/
def ofBytes : List Nat → Encoding
  | [0, _] => utf16 true
  | [_, 0] => utf16 false
  | 0 :: b :: _ :: _ :: _ => if b = 0 then utf32 true else utf16 true
  | _ :: 0 :: c :: d :: _ => if c = 0 ∧ d = 0 then utf32 false else utf16 false
  | _ => utf8

/-- The units of two bytes each; none when a byte is left over. -/
def units16? (bigEndian : Bool) : List Nat → Option (List Nat)
  | [] => some []
  | a :: b :: rest =>
    (units16? bigEndian rest).map ((if bigEndian then a * 0x100 + b else b * 0x100 + a) :: ·)
  | _ => none

/-- The units of four bytes each; none when bytes are left over or a unit is no code point. -/
def units32? (bigEndian : Bool) : List Nat → Option (List Nat)
  | [] => some []
  | a :: b :: c :: d :: rest =>
    let n :=
      if bigEndian then ((a * 0x100 + b) * 0x100 + c) * 0x100 + d
      else ((d * 0x100 + c) * 0x100 + b) * 0x100 + a
    if n < 0x110000 then (units32? bigEndian rest).map (n :: ·) else none
  | _ => none

/-- The characters of 16-bit units; a lone surrogate becomes the replacement character. -/
def ofUnits : List Nat → List Char
  | [] => []
  | [n] => [unitChar n]
  | n :: low :: rest =>
    if (0xd800 ≤ n ∧ n < 0xdc00) ∧ (0xdc00 ≤ low ∧ low < 0xe000) then
      Char.ofNat (0x10000 + (n - 0xd800) * 0x400 + (low - 0xdc00)) :: ofUnits rest
    else unitChar n :: ofUnits (low :: rest)

/-- The characters of bytes; none when they break the encoding. -/
def decode? : Encoding → List Nat → Option (List Char)
  | utf8, bs => some (Text.ofBytes bs)
  | utf16 bigEndian, bs => (units16? bigEndian bs).map ofUnits
  | utf32 bigEndian, bs => (units32? bigEndian bs).map (List.map unitChar)

end Encoding

/-- The characters of a document that was sent as a text, whose bytes may tell another encoding. A mark in
front is passed over. -/
def sentText? (content : List Char) : Option (List Char) :=
  match content with
  | '\ufeff' :: rest => some rest
  | content =>
    if content.contains '\x00' then
      let bytes := content.flatMap Text.charBytes
      (Encoding.ofBytes bytes).decode? bytes
    else some content

end ConsentBanner.Json
