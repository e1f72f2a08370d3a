import ConsentBanner.Proofs.Json.Plain
import ConsentBanner.Proofs.Script.Template
import ConsentBanner.Proofs.Script.Token

/-!
The literals of a script are compact, and they stay as they are wherever they stand.
-/

namespace ConsentBanner.Script

/-- Nothing between backticks closes a text that is spelled there. -/
theorem Held.of_spelled {text out : List Char} (h : Spelled text out) : Held '\x60' out := by
  induction h with
  | nil => exact nil _
  | plain hslash htick _ _ _ ih => exact plain htick hslash ih
  | escaped _ _ ih => exact escape ih _
  | @tag _ out _ _ ih =>
    have hout : Held '\x60' out := by
      intro rest
      have hcut := ih rest
      rw [List.cons_append, cutLiteral_plain (by decide) (by decide)] at hcut
      have hfst := congrArg Prod.fst hcut
      have hsnd := congrArg Prod.snd hcut
      exact Prod.ext (List.cons.inj hfst).2 hsnd
    exact plain (by decide) (by decide) (escape hout '/')

/-- A character that stands for itself in a script, also inside a script element. -/
def isBare (c : Char) : Bool := c != '/' && !isQuote c && !Text.isBlank c && markupEscape c == [c]

theorem isBare_iff {c : Char} :
    isBare c ↔ c ≠ '/' ∧ ¬ isQuote c ∧ ¬ Text.isBlank c ∧ markupEscape c = [c] := by
  rw [isBare, Bool.and_eq_true, Bool.and_eq_true, Bool.and_eq_true, bne_iff_ne, Bool.not_eq_true',
    Bool.not_eq_true', beq_iff_eq, Bool.not_eq_true, Bool.not_eq_true, and_assoc, and_assoc]

namespace Solid

theorem bare {c : Char} {a : List Char} (hc : isBare c) (ha : Solid a) : Solid (markupEscape c ++ a) := by
  obtain ⟨hslash, hquote, hblank, hkept⟩ := isBare_iff.1 hc
  rw [hkept]
  exact .char hslash hquote hblank ha

theorem bare_append {text a : List Char} (htext : ∀ c ∈ text, isBare c) (ha : Solid a) :
    Solid (text.flatMap markupEscape ++ a) := by
  induction text with
  | nil => exact ha
  | cons c text ih =>
    rw [List.flatMap_cons, List.append_assoc]
    exact bare (htext c (.head _)) (ih fun d hd => htext d (.tail _ hd))

theorem of_bare {text : List Char} (htext : ∀ c ∈ text, isBare c) : Solid (text.flatMap markupEscape) := by
  have h := bare_append htext nil
  rwa [List.append_nil] at h

end Solid

theorem isBare_of_isNumeral {c : Char} (h : Json.isNumeral c) : isBare c :=
  Json.forall_isNumeral (p := fun c => isBare c) (by decide) (Text.forall_mem_of_all (by decide)) h

/-- Whether a character stands for itself inside a quoted text, also inside a script element. -/
def isInert (c : Char) : Bool := c != '\x22' && c != '\x5c' && markupEscape c == [c]

theorem isInert_of_mem_hexDigits {width n : Nat} {c : Char} (h : c ∈ Text.hexDigits width n) : isInert c := by
  have small : ∀ m < 16, isInert ((Nat.toDigits 16 m).getLastD '0') := by decide
  induction width generalizing n with
  | zero => cases h
  | succ width ih =>
    rw [Text.hexDigits, List.mem_append, List.mem_singleton] at h
    obtain h | rfl := h
    · exact ih h
    · exact small (n % 16) (Nat.mod_lt n (by decide))

theorem flatMap_markupEscape {text : List Char} (h : ∀ c ∈ text, markupEscape c = [c]) :
    text.flatMap markupEscape = text := by
  induction text with
  | nil => rfl
  | cons c text ih =>
    rw [List.flatMap_cons, h c (.head _), ih fun d hd => h d (.tail _ hd)]
    rfl

namespace Held

theorem unitEscape (n : Nat) : Held '\x22' (Json.unitEscape n) := by
  refine escape (of_forall fun c hc => ?_) 'u'
  have hinert := isInert_of_mem_hexDigits hc
  rw [isInert, Bool.and_eq_true, Bool.and_eq_true, bne_iff_ne, bne_iff_ne] at hinert
  exact hinert.1

theorem unicodeEscape (c : Char) : Held '\x22' (Json.unicodeEscape c) := by
  rw [Json.unicodeEscape]
  split
  · exact unitEscape _
  · exact (unitEscape _).append (unitEscape _)

end Held

theorem markupEscape_of_mem_unitEscape {n : Nat} {c : Char} (h : c ∈ Json.unitEscape n) : markupEscape c = [c] := by
  rw [Json.unitEscape, List.mem_cons, List.mem_cons] at h
  obtain rfl | rfl | h := h
  · decide
  · decide
  · have hinert := isInert_of_mem_hexDigits h
    rw [isInert, Bool.and_eq_true, beq_iff_eq] at hinert
    exact hinert.2

theorem markupEscape_of_mem_unicodeEscape {c d : Char} (h : d ∈ Json.unicodeEscape c) : markupEscape d = [d] := by
  rw [Json.unicodeEscape] at h
  split at h
  · exact markupEscape_of_mem_unitEscape h
  · obtain h | h := List.mem_append.1 h
    · exact markupEscape_of_mem_unitEscape h
    · exact markupEscape_of_mem_unitEscape h

theorem markupEscape_of_isMark {c : Char} (h : Json.IsMark c) : markupEscape c = [c] := by
  obtain ⟨hascii, hopen, hclose, hand⟩ := h
  have ne {d : Char} (hd : Text.isAscii d = false) : c ≠ d := by
    rintro rfl
    rw [hascii] at hd
    cases hd
  rw [markupEscape, if_neg]
  simp [hopen, hclose, hand, ne (d := '\u2028') rfl, ne (d := '\u2029') rfl]

/-- A character of a quoted text does not close it, also when it is escaped for a script element. -/
theorem held_writeChar (c : Char) : Held '\x22' ((Json.writeChar false c).flatMap markupEscape) := by
  obtain ⟨letter, hc, hletter⟩ | hc | ⟨hc, hquote, hslash, -⟩ := Json.writeChar_cases false c
  · have hkept := markupEscape_of_isMark (Json.isMark_of_escapeChar? hletter)
    rw [hc, List.flatMap_cons, List.flatMap_singleton, hkept]
    exact .escape (.nil _) letter
  · rw [hc, flatMap_markupEscape fun _ => markupEscape_of_mem_unicodeEscape]
    exact .unicodeEscape c
  · rw [hc, List.flatMap_singleton, markupEscape]
    split
    · exact .unicodeEscape c
    · exact .plain hquote hslash (.nil _)

/-- A text that is solid once it is escaped for a script element. -/
def Embeds (text : List Char) : Prop := Solid (text.flatMap markupEscape)

namespace Embeds

variable {a b : List Char}

theorem append (ha : Embeds a) (hb : Embeds b) : Embeds (a ++ b) := by
  rw [Embeds, List.flatMap_append]
  exact Solid.append ha hb

theorem of_bare (h : a.all isBare = true) : Embeds a := Solid.of_bare (List.all_eq_true.1 h)

theorem cons {c : Char} (hc : isBare c) (ha : Embeds a) : Embeds (c :: a) := by
  rw [Embeds, List.flatMap_cons]
  exact Solid.bare hc ha

theorem string (s : String) : Embeds (Json.writeString false s) := by
  have hheld : Held '\x22' ((s.toList.flatMap (Json.writeChar false)).flatMap markupEscape) := by
    rw [List.flatMap_assoc]
    exact .flatMap held_writeChar s.toList
  have hsolid := Solid.literal rfl hheld .nil
  rw [Embeds, Json.writeString, List.flatMap_cons, List.flatMap_append]
  exact hsolid

theorem sealed {c : Char} (ha : Embeds a) (hc : isBare c) (hword : Text.isIdentifierChar c = false) :
    Sealed ((a ++ [c]).flatMap markupEscape) := by
  obtain ⟨hslash, hquote, hblank, hkept⟩ := isBare_iff.1 hc
  rw [List.flatMap_append, List.flatMap_singleton, hkept]
  exact Solid.sealed_char ha hslash hquote hblank hword

end Embeds

mutual

theorem embeds_write (v : Json) : Embeds (v.write .compact) := by
  match v with
  | .null => exact .of_bare (by decide)
  | .bool true => exact .of_bare (by decide : "true".toList.all isBare = true)
  | .bool false => exact .of_bare (by decide : "false".toList.all isBare = true)
  | .int n => exact Solid.of_bare fun _ hc => isBare_of_isNumeral (Json.isNumeral_of_mem_int hc)
  | .float x => exact Solid.of_bare fun _ hc => isBare_of_isNumeral (Json.isNumeral_of_mem_double hc)
  | .str s => exact .string s
  | .arr items => exact .cons rfl ((embeds_writeItems items).append (.of_bare rfl))
  | .obj fields => exact .cons rfl ((embeds_writeFields fields).append (.of_bare rfl))
  | .date d => exact .string d.text
  | .moment m => exact .string m.documentText
  | .bytes bs => exact .string (String.ofList (Text.ofBytes bs))
  | .pair a b =>
    exact .cons rfl ((embeds_write a).append (.append (.of_bare rfl) ((embeds_write b).append (.of_bare rfl))))
  | .set members => exact .cons rfl ((embeds_writeItems members).append (.of_bare rfl))
  | .keyed k v => exact embeds_write v

theorem embeds_writeItems (items : List Json) : Embeds (Json.writeItems .compact items) := by
  match items with
  | [] => exact .of_bare rfl
  | [v] => exact embeds_write v
  | v :: next :: rest => exact (embeds_write v).append (.append (.of_bare rfl) (embeds_writeItems (next :: rest)))

theorem embeds_writeFields (fields : List (String × Json)) : Embeds (Json.writeFields .compact fields) := by
  match fields with
  | [] => exact .of_bare rfl
  | [(k, v)] => exact (Embeds.string _).append (.append (.of_bare rfl) (embeds_write v))
  | (k, v) :: next :: rest =>
    exact (Embeds.string _).append (.append (.of_bare rfl) ((embeds_write v).append
      (.append (.of_bare rfl) (embeds_writeFields (next :: rest)))))

end

theorem compactList_literal (v : Json) : compactList (literalList v) = literalList v := by
  cases v with
  | str s => exact (Solid.literal rfl (.of_spelled (spelled_escapeTemplate s.toList)) .nil).compactList_eq
  | _ => exact (embeds_write _).compactList_eq

/-- A literal that ends in its own mark, whatever comes after it. -/
def IsEnclosed : Json → Prop
  | .str _ | .arr _ | .obj _ => True
  | _ => False

theorem sealed_literal {v : Json} (h : IsEnclosed v) : Sealed (literalList v) := by
  cases v with
  | str s =>
    have hword : Text.isIdentifierChar '\x60' = false := by decide +kernel
    exact Solid.sealed_literal rfl (.of_spelled (spelled_escapeTemplate s.toList)) hword
  | arr items =>
    have hword : Text.isIdentifierChar ']' = false := by decide +kernel
    exact Embeds.sealed (.cons (c := '[') rfl (embeds_writeItems items)) rfl hword
  | obj fields =>
    have hword : Text.isIdentifierChar '\x7d' = false := by decide +kernel
    exact Embeds.sealed (.cons (c := '\x7b') rfl (embeds_writeFields fields)) rfl hword
  | _ => exact h.elim

end ConsentBanner.Script
