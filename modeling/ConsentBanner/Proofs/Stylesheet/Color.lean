import ConsentBanner.Proofs.Json.Chars
import ConsentBanner.Proofs.Text.Integer
import ConsentBanner.Stylesheet.Color

/-!
Shades of colours. Six hexadecimal digits are shifted channel by channel, and the result has six digits of lower case. What
stands in the place of two digits is read as an integer, though, so that a sign, white space or the digits of another script
can be part of a colour as well; every other text is left alone.
-/

namespace ConsentBanner.Stylesheet

/-- Two hexadecimal digits of a number. -/
def IsHexPair (a b : Char) (n : Int) : Prop :=
  ∃ x y : Nat, Text.hexValue? a = some x ∧ Text.hexValue? b = some y ∧ n = x * 16 + y

/-- Two hexadecimal digits of a number, in lower case. -/
def IsLowerPair (a b : Char) (n : Int) : Prop :=
  IsHexPair a b n ∧ a ∈ "0123456789abcdef".toList ∧ b ∈ "0123456789abcdef".toList

/-- Two characters that are read as a channel: two digits in base sixteen, or one that a sign or white space stands at. The
digits up to nine may be those of any script. -/
inductive IsChannel : Char → Char → Int → Prop
  | digits {a b : Char} {x y : Nat} (ha : Text.digitValueIn? 16 a = some x) (hb : Text.digitValueIn? 16 b = some y) :
      IsChannel a b (x * 16 + y)
  | plus {b : Char} {y : Nat} (hb : Text.digitValueIn? 16 b = some y) : IsChannel '+' b y
  | minus {b : Char} {y : Nat} (hb : Text.digitValueIn? 16 b = some y) : IsChannel '-' b (-y)
  | before {a b : Char} {y : Nat} (ha : Text.isPadding a = true) (hb : Text.digitValueIn? 16 b = some y) :
      IsChannel a b y
  | after {a b : Char} {x : Nat} (ha : Text.digitValueIn? 16 a = some x) (hb : Text.isPadding b = true) :
      IsChannel a b x

/-- A text of `#` and three pairs of characters that stand for three channels. -/
inductive IsColor (pair : Char → Char → Int → Prop) : List Char → List Int → Prop
  | mk {a b c d e f : Char} {red green blue : Int} (hr : pair a b red) (hg : pair c d green) (hb : pair e f blue) :
      IsColor pair ['#', a, b, c, d, e, f] [red, green, blue]

theorem IsHexPair.isChannel {a b : Char} {n : Int} (h : IsHexPair a b n) : IsChannel a b n := by
  obtain ⟨x, y, ha, hb, rfl⟩ := h
  exact .digits (Text.digitValueIn?_of_hexValue? ha) (Text.digitValueIn?_of_hexValue? hb)

theorem IsColor.mono {p q : Char → Char → Int → Prop} (h : ∀ {a b n}, p a b n → q a b n) {cs : List Char}
    {channels : List Int} (hc : IsColor p cs channels) : IsColor q cs channels := by
  cases hc with
  | mk hr hg hb => exact .mk (h hr) (h hg) (h hb)

theorem not_isPadding_of_digit {c : Char} {d : Nat} (hc : Text.digitValueIn? 16 c = some d) : Text.isPadding c = false := by
  rw [← Bool.not_eq_true]
  intro hpadding
  rw [Text.digitValueIn?_of_isPadding hpadding] at hc
  cases hc

theorem integerIn?_of_isChannel {a b : Char} {n : Int} (h : IsChannel a b n) : Text.integerIn? 16 [a, b] = some n := by
  cases h with
  | digits ha hb =>
    have htrim : Text.trimPadding [a, b] = [a, b] := by
      simp [Text.trimPadding_pair, not_isPadding_of_digit ha, not_isPadding_of_digit hb]
    apply Text.integerIn?_of_digit htrim ha
    rw [Text.magnitude?_pair, ha, hb]
    rfl
  | plus hb =>
    have hplus : Text.isPadding '+' = false := rfl
    have htrim : Text.trimPadding ['+', b] = ['+', b] := by
      simp [Text.trimPadding_pair, hplus, not_isPadding_of_digit hb]
    rw [Text.integerIn?, htrim]
    change Option.map (fun n : Int => n) (Text.magnitude? 16 [b] >>= fun n => some (n : Int)) = _
    rw [Text.magnitude?_singleton, hb]
    rfl
  | minus hb =>
    have hminus : Text.isPadding '-' = false := rfl
    have htrim : Text.trimPadding ['-', b] = ['-', b] := by
      simp [Text.trimPadding_pair, hminus, not_isPadding_of_digit hb]
    rw [Text.integerIn?, htrim]
    change Option.map (fun n : Int => -n) (Text.magnitude? 16 [b] >>= fun n => some (n : Int)) = _
    rw [Text.magnitude?_singleton, hb]
    rfl
  | before ha hb =>
    have htrim : Text.trimPadding [a, b] = [b] := by simp [Text.trimPadding_pair, ha, not_isPadding_of_digit hb]
    exact (Text.integerIn?_of_trim_single htrim).2 ⟨_, hb, rfl⟩
  | after ha hb =>
    have htrim : Text.trimPadding [a, b] = [a] := by simp [Text.trimPadding_pair, not_isPadding_of_digit ha, hb]
    exact (Text.integerIn?_of_trim_single htrim).2 ⟨_, ha, rfl⟩

theorem isChannel_of_integerIn? {a b : Char} {n : Int} (h : Text.integerIn? 16 [a, b] = some n) : IsChannel a b n := by
  have htrim := Text.trimPadding_pair a b
  cases ha : Text.isPadding a with
  | true =>
    cases hb : Text.isPadding b with
    | true =>
      rw [ha, hb, if_pos rfl, if_pos rfl] at htrim
      rw [Text.integerIn?, htrim] at h
      cases h
    | false =>
      rw [ha, hb, if_pos rfl, if_neg Bool.false_ne_true] at htrim
      obtain ⟨y, hy, rfl⟩ := (Text.integerIn?_of_trim_single htrim).1 h
      exact .before ha hy
  | false =>
    cases hb : Text.isPadding b with
    | true =>
      rw [ha, hb, if_neg Bool.false_ne_true, if_pos rfl] at htrim
      obtain ⟨x, hx, rfl⟩ := (Text.integerIn?_of_trim_single htrim).1 h
      exact .after hx hb
    | false =>
      rw [ha, hb, if_neg Bool.false_ne_true, if_neg Bool.false_ne_true] at htrim
      obtain ⟨digits, m, heq, hm, rfl⟩ | ⟨digits, m, heq, hm, rfl⟩ | ⟨m, hm, rfl⟩ := Text.integerIn?_eq_some h
      · cases htrim.symm.trans heq
        rw [Text.magnitude?_singleton] at hm
        exact .minus hm
      · cases htrim.symm.trans heq
        rw [Text.magnitude?_singleton] at hm
        exact .plus hm
      · rw [htrim, Text.magnitude?_pair] at hm
        obtain ⟨x, hx, hm⟩ := Option.bind_eq_some_iff.1 hm
        obtain ⟨y, hy, rfl⟩ := Option.map_eq_some_iff.1 hm
        exact .digits hx hy

theorem channels?_eq_some_iff {cs : List Char} {channels : List Int} :
    channels? cs = some channels ↔ IsColor IsChannel cs channels := by
  constructor
  · intro h
    unfold channels? at h
    split at h
    · split at h
      · rename_i hr hg hb
        cases h
        exact .mk (isChannel_of_integerIn? hr) (isChannel_of_integerIn? hg) (isChannel_of_integerIn? hb)
      · cases h
    · cases h
  · intro h
    cases h with
    | mk hr hg hb =>
      unfold channels?
      split
      · rename_i heq
        cases heq
        rw [integerIn?_of_isChannel hr, integerIn?_of_isChannel hg, integerIn?_of_isChannel hb]
      · rename_i hne
        exact absurd rfl (hne _ _ _ _ _ _)

theorem hexDigits_two {n : Nat} (h : n < 256) : ∃ a b, Text.hexDigits 2 n = [a, b] ∧ IsLowerPair a b n := by
  have lower (k : Nat) : Text.lowerHexDigit k ∈ "0123456789abcdef".toList := by
    have small : ∀ d < 16, (Nat.toDigits 16 d).getLastD '0' ∈ "0123456789abcdef".toList := by decide
    exact small (k % 16) (Nat.mod_lt _ (by decide))
  have hvalue : (n : Int) = (n / 16 % 16 : Nat) * 16 + (n % 16 : Nat) := by omega
  refine ⟨Text.lowerHexDigit (n / 16), Text.lowerHexDigit n, rfl, ?_, lower _, lower _⟩
  exact ⟨n / 16 % 16, n % 16, Json.hexValue?_lowerHexDigit _, Json.hexValue?_lowerHexDigit _, hvalue⟩

theorem shiftChannel_lt (channel amount : Int) : shiftChannel channel amount < 256 := by
  unfold shiftChannel
  omega

theorem shiftChannel_eq (channel amount : Int) :
    (shiftChannel channel amount : Int) = min 255 (max 0 (channel + amount)) := by
  unfold shiftChannel
  omega

theorem isColor_shift {cs : List Char} {channels : List Int} (amount : Int) (h : IsColor IsChannel cs channels) :
    IsColor IsLowerPair ('#' :: channels.flatMap fun c => Text.hexDigits 2 (shiftChannel c amount))
      (channels.map fun c => min 255 (max 0 (c + amount))) := by
  cases h with
  | @mk _ _ _ _ _ _ red green blue _ _ _ =>
    obtain ⟨a, b, hr, hred⟩ := hexDigits_two (shiftChannel_lt red amount)
    obtain ⟨c, d, hg, hgreen⟩ := hexDigits_two (shiftChannel_lt green amount)
    obtain ⟨e, f, hb, hblue⟩ := hexDigits_two (shiftChannel_lt blue amount)
    rw [shiftChannel_eq] at hred hgreen hblue
    simp only [List.flatMap_cons, List.flatMap_nil, hr, hg, hb]
    exact .mk hred hgreen hblue

theorem adjustColor_of_isColor {color : String} {channels : List Int} (amount : Int)
    (h : IsColor IsChannel color.toList channels) :
    IsColor IsLowerPair (adjustColor color amount).toList (channels.map fun c => min 255 (max 0 (c + amount))) := by
  rw [adjustColor, channels?_eq_some_iff.2 h]
  dsimp only
  rw [String.toList_ofList]
  exact isColor_shift amount h

theorem adjustColor_of_not_isColor {color : String} (amount : Int)
    (h : ¬ ∃ channels, IsColor IsChannel color.toList channels) : adjustColor color amount = color := by
  cases hchannels : channels? color.toList with
  | none => rw [adjustColor, hchannels]
  | some channels => exact absurd ⟨channels, channels?_eq_some_iff.1 hchannels⟩ h

/-- A colour of hexadecimal digits is shifted channel by channel, within the range of a byte. Among the other texts exactly
those stay as they are that cannot be read as three channels in some other way; the rest is shifted too. -/
theorem adjustColor_shade (color : String) (amount : Int) :
    (∀ channels, IsColor IsHexPair color.toList channels →
        IsColor IsLowerPair (adjustColor color amount).toList (channels.map fun c => min 255 (max 0 (c + amount)))) ∧
      (∀ channels, IsColor IsChannel color.toList channels →
        IsColor IsLowerPair (adjustColor color amount).toList (channels.map fun c => min 255 (max 0 (c + amount)))) ∧
      ((¬ ∃ channels, IsColor IsHexPair color.toList channels) →
        (adjustColor color amount = color ↔ ¬ ∃ channels, IsColor IsChannel color.toList channels)) := by
  refine ⟨?_, fun channels h => adjustColor_of_isColor amount h, ?_⟩
  · intro channels h
    exact adjustColor_of_isColor amount (h.mono IsHexPair.isChannel)
  · intro hother
    constructor
    · intro hsame hcolor
      obtain ⟨channels, h⟩ := hcolor
      have hshifted := adjustColor_of_isColor amount h
      rw [hsame] at hshifted
      exact hother ⟨_, hshifted.mono And.left⟩
    · exact adjustColor_of_not_isColor amount

/-- A sign takes the place of a digit. -/
example : adjustColor "#+1+1+1" 0 = "#010101" := by decide

end ConsentBanner.Stylesheet
