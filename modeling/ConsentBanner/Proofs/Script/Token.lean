import ConsentBanner.Script.Token

/-!
Scripts that are cut into the same pieces whatever comes after them.
-/

namespace ConsentBanner.Script

theorem tokens_nil : tokens [] = [] := by rw [tokens]

theorem tokens_lineComment (rest : List Char) :
    tokens ('/' :: '/' :: rest) = .gap :: tokens (afterLineComment rest) := by rw [tokens]

theorem tokens_cons {c : Char} (h : c ≠ '/') (rest : List Char) :
    tokens (c :: rest) =
      if isQuote c then .literal (c :: (cutLiteral c rest).1) :: tokens (cutLiteral c rest).2
      else if Text.isBlank c then .gap :: tokens rest
      else .char c :: tokens rest := by
  rw [tokens]
  · exact fun _ hc => absurd hc h
  · exact fun _ hc => absurd hc h

theorem ne_slash_of_isQuote {c : Char} (h : isQuote c) : c ≠ '/' := by
  rintro rfl
  cases h

theorem ne_backslash_of_isQuote {c : Char} (h : isQuote c) : c ≠ '\x5c' := by
  rintro rfl
  cases h

theorem tokens_quote {c : Char} (h : isQuote c) (rest : List Char) :
    tokens (c :: rest) = .literal (c :: (cutLiteral c rest).1) :: tokens (cutLiteral c rest).2 := by
  rw [tokens_cons (ne_slash_of_isQuote h), if_pos h]

theorem tokens_blank {c : Char} (h : Text.isBlank c) (rest : List Char) : tokens (c :: rest) = .gap :: tokens rest := by
  have hquote : ¬ isQuote c := by
    intro hq
    rw [isQuote, Bool.or_eq_true, Bool.or_eq_true, beq_iff_eq, beq_iff_eq, beq_iff_eq] at hq
    obtain (rfl | rfl) | rfl := hq
    · cases h
    · cases h
    · cases h
  have hslash : c ≠ '/' := by
    rintro rfl
    cases h
  rw [tokens_cons hslash, if_neg hquote, if_pos h]

theorem tokens_char {c : Char} (hslash : c ≠ '/') (hquote : ¬ isQuote c) (hblank : ¬ Text.isBlank c)
    (rest : List Char) : tokens (c :: rest) = .char c :: tokens rest := by
  rw [tokens_cons hslash, if_neg hquote, if_neg hblank]

theorem cutLiteral_quote (quote : Char) (rest : List Char) (h : quote ≠ '\x5c') :
    cutLiteral quote (quote :: rest) = ([quote], rest) := by
  rw [cutLiteral]
  · rw [if_pos (beq_self_eq_true quote)]
  · exact fun hc => absurd hc h
  · exact fun _ _ hc => absurd hc h

theorem cutLiteral_plain {quote c : Char} (h : c ≠ quote) (hslash : c ≠ '\x5c') (rest : List Char) :
    cutLiteral quote (c :: rest) = (c :: (cutLiteral quote rest).1, (cutLiteral quote rest).2) := by
  rw [cutLiteral]
  · rw [if_neg (by simpa using h)]
  · exact fun hc => absurd hc hslash
  · exact fun _ _ hc => absurd hc hslash

theorem cutLiteral_escape (quote c : Char) (rest : List Char) :
    cutLiteral quote ('\x5c' :: c :: rest) = ('\x5c' :: c :: (cutLiteral quote rest).1, (cutLiteral quote rest).2) := by
  rw [cutLiteral]

/-- A script that is cut on its own, whatever comes after it. -/
def Cut (text : List Char) : Prop := ∀ rest, tokens (text ++ rest) = tokens text ++ tokens rest

namespace Cut

variable {a b : List Char}

theorem nil : Cut [] := fun rest => by rw [tokens_nil, List.nil_append, List.nil_append]

theorem append (ha : Cut a) (hb : Cut b) : Cut (a ++ b) := by
  intro rest
  rw [List.append_assoc, ha, hb, ha b, List.append_assoc]

theorem blank {c : Char} (h : Text.isBlank c) (ha : Cut a) : Cut (c :: a) := by
  intro rest
  rw [List.cons_append, tokens_blank h, tokens_blank h, ha, List.cons_append]

theorem char {c : Char} (hslash : c ≠ '/') (hquote : ¬ isQuote c) (hblank : ¬ Text.isBlank c) (ha : Cut a) :
    Cut (c :: a) := by
  intro rest
  rw [List.cons_append, tokens_char hslash hquote hblank, tokens_char hslash hquote hblank, ha, List.cons_append]

theorem literal {quote : Char} (hquote : isQuote quote) {body after : List Char}
    (h : ∀ rest, cutLiteral quote (a ++ rest) = (body, after ++ rest)) (hafter : Cut after) : Cut (quote :: a) := by
  intro rest
  have hnil := h []
  rw [List.append_nil, List.append_nil] at hnil
  rw [List.cons_append, tokens_quote hquote, tokens_quote hquote, h, hnil, hafter, List.cons_append]

end Cut

/-- The last written character and whether there is a gap after it, when these pieces were written. -/
def trail (gapped : Bool) (last : Option Char) : List Token → Bool × Option Char
  | [] => (gapped, last)
  | .literal text :: rest => trail false text.getLast? rest
  | .gap :: rest => trail true last rest
  | .char c :: rest => trail false (some c) rest

theorem join_append (gapped : Bool) (last : Option Char) (ts us : List Token) :
    join gapped last (ts ++ us) =
      join gapped last ts ++ join (trail gapped last ts).1 (trail gapped last ts).2 us := by
  induction ts generalizing gapped last with
  | nil => rfl
  | cons t rest ih =>
    cases t with
    | literal text => rw [List.cons_append, join, join, trail, ih, List.append_assoc]
    | gap => rw [List.cons_append, join, join, trail, ih]
    | char c =>
      rw [List.cons_append, join, join, trail, ih]
      split
      · rfl
      · rfl

theorem trail_append (gapped : Bool) (last : Option Char) (ts us : List Token) :
    trail gapped last (ts ++ us) = trail (trail gapped last ts).1 (trail gapped last ts).2 us := by
  induction ts generalizing gapped last with
  | nil => rfl
  | cons t rest ih =>
    cases t with
    | _ => exact ih _ _

/-- Nothing that a word could run into. -/
def Apart (last : Option Char) : Prop := ∀ c ∈ last, Text.isIdentifierChar c = false

/-- After anything but a word, pieces are written as at the start of a script. -/
theorem join_of_apart {last : Option Char} (h : Apart last) (gapped : Bool) (ts : List Token) :
    join gapped last ts = join false none ts := by
  have hnone : Apart none := nofun
  have fuses_eq {last : Option Char} (h : Apart last) (c : Char) : fuses last c = false := by
    cases last with
    | none => rfl
    | some l => rw [fuses, h l rfl, Bool.false_and]
  have general {last last' : Option Char} (h : Apart last) (h' : Apart last') (gapped gapped' : Bool) :
      join gapped last ts = join gapped' last' ts := by
    induction ts generalizing gapped gapped' with
    | nil => rfl
    | cons t rest ih =>
      cases t with
      | literal text => rfl
      | gap => exact ih true true
      | char c => rw [join, join, fuses_eq h, fuses_eq h', Bool.and_false, Bool.and_false]
  exact general h hnone gapped false

theorem compactList_nil : compactList [] = [] := by rw [compactList, tokens_nil, join]

/-- A script that is compacted on its own, whatever comes after it. -/
def Sealed (text : List Char) : Prop := ∀ rest, compactList (text ++ rest) = compactList text ++ compactList rest

namespace Sealed

variable {a b : List Char}

theorem nil : Sealed [] := fun rest => by rw [compactList_nil, List.nil_append, List.nil_append]

theorem append (ha : Sealed a) (hb : Sealed b) : Sealed (a ++ b) := by
  intro rest
  rw [List.append_assoc, ha, hb, ha b, List.append_assoc]

/-- A script with anything before it that ends in something other than a word. -/
theorem of_cut (ha : Cut a) (hb : Cut b)
    (h : ∀ gapped last, Apart (trail gapped last (tokens b)).2) : Sealed (a ++ b) := by
  intro rest
  rw [compactList, compactList, compactList, List.append_assoc, ha, hb, ha, join_append, join_append,
    join_of_apart (h _ _), join_append, List.append_assoc]

end Sealed

/-- A stretch of a literal that its quotation mark does not close. -/
def Held (quote : Char) (text : List Char) : Prop :=
  ∀ rest, cutLiteral quote (text ++ rest) = (text ++ (cutLiteral quote rest).1, (cutLiteral quote rest).2)

namespace Held

variable {quote c : Char} {a b : List Char}

theorem nil (quote : Char) : Held quote [] := fun _ => rfl

theorem append (ha : Held quote a) (hb : Held quote b) : Held quote (a ++ b) := by
  intro rest
  rw [List.append_assoc, ha, hb, List.append_assoc]

theorem plain (hc : c ≠ quote) (hslash : c ≠ '\x5c') (ha : Held quote a) : Held quote (c :: a) := by
  intro rest
  rw [List.cons_append, cutLiteral_plain hc hslash, ha]
  rfl

theorem escape (ha : Held quote a) (c : Char) : Held quote ('\x5c' :: c :: a) := by
  intro rest
  rw [List.cons_append, List.cons_append, cutLiteral_escape, ha]
  rfl

theorem of_forall (h : ∀ c ∈ a, c ≠ quote ∧ c ≠ '\x5c') : Held quote a := by
  induction a with
  | nil => exact nil quote
  | cons c a ih => exact plain (h c (.head _)).1 (h c (.head _)).2 (ih fun d hd => h d (.tail _ hd))

theorem flatMap {f : Char → List Char} (h : ∀ c, Held quote (f c)) (cs : List Char) : Held quote (cs.flatMap f) := by
  induction cs with
  | nil => exact nil quote
  | cons c cs ih => exact (h c).append ih

end Held

/-- A script without gaps that is cut on its own. -/
structure Solid (text : List Char) : Prop where
  cut : Cut text
  kept : ∀ last, join false last (tokens text) = text
  shut : ∀ last, (trail false last (tokens text)).1 = false

namespace Solid

variable {a b : List Char} {c quote : Char}

theorem nil : Solid [] := by
  refine ⟨.nil, fun last => ?_, fun last => ?_⟩
  · rw [tokens_nil, join]
  · rw [tokens_nil, trail]

theorem append (ha : Solid a) (hb : Solid b) : Solid (a ++ b) := by
  refine ⟨ha.cut.append hb.cut, fun last => ?_, fun last => ?_⟩
  · rw [ha.cut, join_append, ha.kept, ha.shut, hb.kept]
  · rw [ha.cut, trail_append, ha.shut, hb.shut]

theorem char (hslash : c ≠ '/') (hquote : ¬ isQuote c) (hblank : ¬ Text.isBlank c) (ha : Solid a) : Solid (c :: a) := by
  refine ⟨ha.cut.char hslash hquote hblank, fun last => ?_, fun last => ?_⟩
  · rw [tokens_char hslash hquote hblank, join, Bool.false_and, if_neg Bool.false_ne_true, ha.kept]
  · rw [tokens_char hslash hquote hblank, trail, ha.shut]

theorem of_forall (h : ∀ c ∈ a, c ≠ '/' ∧ ¬ isQuote c ∧ ¬ Text.isBlank c) : Solid a := by
  induction a with
  | nil => exact nil
  | cons c a ih =>
    obtain ⟨hslash, hquote, hblank⟩ := h c (.head _)
    exact .char hslash hquote hblank (ih fun d hd => h d (.tail _ hd))

theorem literal (hquote : isQuote quote) (ha : Held quote a) (hb : Solid b) : Solid (quote :: (a ++ quote :: b)) := by
  have hslash : quote ≠ '\x5c' := by
    rintro rfl
    cases hquote
  have hcut (rest : List Char) : cutLiteral quote (a ++ quote :: b ++ rest) = (a ++ [quote], b ++ rest) := by
    rw [List.append_assoc, ha, List.cons_append, cutLiteral_quote _ _ hslash]
  have hnil := hcut []
  rw [List.append_nil, List.append_nil] at hnil
  refine ⟨.literal hquote hcut hb.cut, fun last => ?_, fun last => ?_⟩
  · rw [tokens_quote hquote, hnil, join, hb.kept]
    simp
  · rw [tokens_quote hquote, hnil, trail, hb.shut]

theorem compactList_eq (h : Solid a) : compactList a = a := h.kept none

theorem sealed_char (ha : Solid a) (hslash : c ≠ '/') (hquote : ¬ isQuote c) (hblank : ¬ Text.isBlank c)
    (hword : Text.isIdentifierChar c = false) : Sealed (a ++ [c]) := by
  refine .of_cut ha.cut (Solid.nil.char hslash hquote hblank).cut fun gapped last => ?_
  rw [tokens_char hslash hquote hblank, tokens_nil, trail, trail]
  rintro d ⟨⟩
  exact hword

theorem sealed_literal (hquote : isQuote quote) (ha : Held quote a) (hword : Text.isIdentifierChar quote = false) :
    Sealed (quote :: (a ++ [quote])) := by
  have hslash : quote ≠ '\x5c' := by
    rintro rfl
    cases hquote
  have hcut : cutLiteral quote (a ++ [quote]) = (a ++ [quote], []) := by
    rw [ha, cutLiteral_quote _ _ hslash]
  refine .of_cut .nil (Solid.nil.literal hquote ha).cut fun gapped last => ?_
  rw [tokens_quote hquote, hcut, tokens_nil, trail, trail, ← List.cons_append, List.getLast?_concat]
  rintro d ⟨⟩
  exact hword

end Solid

end ConsentBanner.Script
