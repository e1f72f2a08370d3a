import ConsentBanner.Json.Reader
import ConsentBanner.Json.Writer

/-!
Texts inside documents are read as they were written.
-/

namespace ConsentBanner.Json

theorem hexValue?_lowerHexDigit (n : Nat) : Text.hexValue? (Text.lowerHexDigit n) = some (n % 16) := by
  have small : ∀ m < 16, Text.hexValue? ((Nat.toDigits 16 m).getLastD '0') = some m := by decide
  exact small (n % 16) (Nat.mod_lt n (by decide))

theorem readUnit?_hexDigits {n : Nat} (h : n < 0x10000) (rest : List Char) :
    readUnit? (Text.hexDigits 4 n ++ rest) = some (n, rest) := by
  change readUnit? (Text.lowerHexDigit (n / 16 / 16 / 16) :: Text.lowerHexDigit (n / 16 / 16) ::
    Text.lowerHexDigit (n / 16) :: Text.lowerHexDigit n :: rest) = _
  simp only [readUnit?, hexValue?_lowerHexDigit]
  have hn : ((n / 16 / 16 / 16 % 16 * 16 + n / 16 / 16 % 16) * 16 + n / 16 % 16) * 16 + n % 16 = n := by omega
  rw [hn]

theorem length_hexDigits (width n : Nat) : (Text.hexDigits width n).length = width := by
  induction width generalizing n with
  | zero => rfl
  | succ width ih => rw [Text.hexDigits, List.length_append, ih]; rfl

/-- One more character of a text that goes on. -/
def withChar (c : Char) (r : Except ReadError (List Char × List Char)) :
    Except ReadError (List Char × List Char) := do
  let (s, after) ← r
  .ok (c :: s, after)

variable {opened rest : List Char}

theorem readChars_plain {c : Char} (h : 0x20 ≤ c.toNat) (hquote : c ≠ '\x22') (hslash : c ≠ '\x5c') :
    readChars opened (c :: rest) = withChar c (readChars opened rest) := by
  rw [readChars]
  · rw [if_neg (by omega)]
    rfl
  · exact hquote
  · exact fun hc => absurd hc hslash
  · exact fun _ hc => absurd hc hslash
  · exact fun _ _ hc => absurd hc hslash

theorem readChars_letter {letter c : Char} (h : escapeChar? letter = some c) :
    readChars opened ('\x5c' :: letter :: rest) = withChar c (readChars opened rest) := by
  rw [readChars]
  · rw [h]
    rfl
  · rintro rfl
    cases h

theorem drop_hexDigits_isEmpty (n : Nat) (hrest : rest ≠ []) :
    ((Text.hexDigits 4 n ++ rest).drop 4).isEmpty = false := by
  rw [List.drop_append, length_hexDigits, List.drop_eq_nil_of_le (Nat.le_of_eq (length_hexDigits 4 n))]
  simpa using hrest

theorem readChars_unit {n : Nat} (h : n < 0x10000) (hhigh : ¬ (0xd800 ≤ n ∧ n < 0xdc00)) (hrest : rest ≠ []) :
    readChars opened (unitEscape n ++ rest) = withChar (unitChar n) (readChars opened rest) := by
  change readChars opened ('\x5c' :: 'u' :: (Text.hexDigits 4 n ++ rest)) = _
  rw [readChars, drop_hexDigits_isEmpty n hrest, if_neg Bool.false_ne_true]
  have hunit := readUnit?_hexDigits h rest
  split
  · rename_i hu
    rw [hunit] at hu
    cases hu
  · rename_i m tail hu
    rw [hunit] at hu
    cases hu
    rw [if_neg hhigh]
    rfl

theorem readLowSurrogate?_unitEscape {low : Nat} (hlow : 0xdc00 ≤ low ∧ low < 0xe000) (hrest : rest ≠ []) :
    readLowSurrogate? (unitEscape low ++ rest) = some (low, rest) := by
  change readLowSurrogate? ('\x5c' :: 'u' :: (Text.hexDigits 4 low ++ rest)) = _
  rw [readLowSurrogate?, readUnit?_hexDigits (by omega)]
  dsimp only
  rw [if_pos ⟨hlow.1, hlow.2, hrest⟩]

theorem readChars_surrogates {high low : Nat} (hhigh : 0xd800 ≤ high ∧ high < 0xdc00)
    (hlow : 0xdc00 ≤ low ∧ low < 0xe000) (hrest : rest ≠ []) :
    readChars opened (unitEscape high ++ (unitEscape low ++ rest)) =
      withChar (Char.ofNat (0x10000 + (high - 0xd800) * 0x400 + (low - 0xdc00))) (readChars opened rest) := by
  change readChars opened ('\x5c' :: 'u' :: (Text.hexDigits 4 high ++ (unitEscape low ++ rest))) = _
  have hmore : unitEscape low ++ rest ≠ [] := nofun
  rw [readChars, drop_hexDigits_isEmpty high hmore, if_neg Bool.false_ne_true]
  have hunit := readUnit?_hexDigits (by omega : high < 0x10000) (unitEscape low ++ rest)
  split
  · rename_i hu
    rw [hunit] at hu
    cases hu
  · rename_i m tail hu
    rw [hunit] at hu
    cases hu
    rw [if_pos hhigh]
    have hsecond := readLowSurrogate?_unitEscape hlow hrest
    split
    · rename_i hl
      rw [hsecond] at hl
      cases hl
      rfl
    · rename_i hl
      rw [hsecond] at hl
      cases hl

theorem toNat_valid (c : Char) : c.toNat < 0xd800 ∨ 0xdfff < c.toNat ∧ c.toNat < 0x110000 := c.valid

theorem unitChar_toNat (c : Char) : unitChar c.toNat = c := by
  have hvalid := toNat_valid c
  have hsurrogate : isSurrogate c.toNat = false := by
    rw [isSurrogate, Bool.and_eq_false_iff, decide_eq_false_iff_not, decide_eq_false_iff_not]
    omega
  rw [unitChar, hsurrogate, if_neg Bool.false_ne_true, Char.ofNat_toNat]

theorem readChars_unicodeEscape (c : Char) (hrest : rest ≠ []) :
    readChars opened (unicodeEscape c ++ rest) = withChar c (readChars opened rest) := by
  have hvalid := toNat_valid c
  rw [unicodeEscape]
  split
  · rename_i h
    rw [readChars_unit h (by omega) hrest, unitChar_toNat]
  · rw [List.append_assoc, readChars_surrogates (by omega) (by omega) hrest]
    have hn : 0x10000 + (0xd800 + (c.toNat - 0x10000) / 0x400 - 0xd800) * 0x400 +
        (0xdc00 + (c.toNat - 0x10000) % 0x400 - 0xdc00) = c.toNat := by omega
    rw [hn, Char.ofNat_toNat]

/-- A character is written as a letter after a backslash, by its number, or as it is. -/
theorem writeChar_cases (ascii : Bool) (c : Char) :
    (∃ letter, writeChar ascii c = ['\x5c', letter] ∧ escapeChar? letter = some c) ∨
      writeChar ascii c = unicodeEscape c ∨
      writeChar ascii c = [c] ∧ c ≠ '\x22' ∧ c ≠ '\x5c' ∧ 0x20 ≤ c.toNat ∧ (ascii → c.toNat ≤ 0x7e) := by
  rw [writeChar]
  split
  · rename_i h
    rw [Bool.or_eq_true, beq_iff_eq, beq_iff_eq] at h
    obtain rfl | rfl := h
    · exact .inl ⟨_, rfl, rfl⟩
    · exact .inl ⟨_, rfl, rfl⟩
  rename_i hmark
  rw [Bool.or_eq_true, beq_iff_eq, beq_iff_eq, not_or] at hmark
  split
  · rename_i h
    exact .inl ⟨_, rfl, congrArg some (eq_of_beq h).symm⟩
  split
  · rename_i h
    exact .inl ⟨_, rfl, congrArg some (eq_of_beq h).symm⟩
  split
  · rename_i h
    exact .inl ⟨_, rfl, congrArg some (eq_of_beq h).symm⟩
  split
  · rename_i h
    exact .inl ⟨_, rfl, congrArg some (eq_of_beq h).symm⟩
  split
  · rename_i h
    exact .inl ⟨_, rfl, congrArg some (eq_of_beq h).symm⟩
  split
  · exact .inr (.inl rfl)
  · rename_i h
    rw [Bool.or_eq_true, not_or, decide_eq_true_eq, Nat.not_lt, Bool.and_eq_true, decide_eq_true_eq, not_and,
      Nat.not_lt] at h
    exact .inr (.inr ⟨rfl, hmark.1, hmark.2, h⟩)

theorem readChars_writeChar (ascii : Bool) (c : Char) (hrest : rest ≠ []) :
    readChars opened (writeChar ascii c ++ rest) = withChar c (readChars opened rest) := by
  obtain ⟨letter, hc, hletter⟩ | hc | ⟨hc, hquote, hslash, hlow, -⟩ := writeChar_cases ascii c
  · rw [hc]
    exact readChars_letter hletter
  · rw [hc]
    exact readChars_unicodeEscape c hrest
  · rw [hc]
    exact readChars_plain hlow hquote hslash

/-- A text whose characters are spelled so that each is read is read to its closing quotation mark. -/
theorem readChars_flatMap {spell : Char → List Char}
    (h : ∀ c {rest}, rest ≠ [] → readChars opened (spell c ++ rest) = withChar c (readChars opened rest))
    (cs rest : List Char) : readChars opened (cs.flatMap spell ++ '\x22' :: rest) = .ok (cs, rest) := by
  induction cs with
  | nil => rw [List.flatMap_nil, List.nil_append, readChars]
  | cons c more ih =>
    rw [List.flatMap_cons, List.append_assoc, h c (by simp), ih]
    rfl

end ConsentBanner.Json
