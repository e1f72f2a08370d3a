import ConsentBanner.Markup.Collapse
import ConsentBanner.Proofs.Markup.Node
import ConsentBanner.Proofs.Text

/-!
Collapsed markup has every tag that was written.
-/

namespace ConsentBanner.Markup

variable {closing : Char → Option Char}

theorem cutThrough?_append {close : Char} {body : List Char} (h : close ∉ body) (after : List Char) :
    cutThrough? close (body ++ close :: after) = some (body ++ [close], after) := by
  induction body with
  | nil => simp [cutThrough?]
  | cons c body ih =>
    simp only [List.mem_cons, not_or] at h
    rw [List.cons_append, cutThrough?, ih h.2, if_neg (by simpa using Ne.symm h.1)]
    rfl

theorem parts_cons_outer {c : Char} (h : closing c = none) (rest : List Char) :
    parts closing (c :: rest) = consOuter c (parts closing rest) := by
  rw [parts]
  simp only [h]

theorem parts_cons_inner {c close : Char} {body : List Char} (h : closing c = some close) (hb : close ∉ body)
    (after : List Char) :
    parts closing (c :: (body ++ close :: after)) = .inner (c :: (body ++ [close])) :: parts closing after := by
  rw [parts]
  simp only [h]
  split
  · rename_i hc
    rw [cutThrough?_append hb] at hc
    cases hc
    rfl
  · rename_i hc
    rw [cutThrough?_append hb] at hc
    cases hc

theorem inner_mem_consOuter {c : Char} {text : List Char} {ps : List Part} :
    .inner text ∈ consOuter c ps ↔ .inner text ∈ ps := by
  cases ps with
  | nil => simp [consOuter]
  | cons p ps =>
    cases p with
    | outer t => simp [consOuter]
    | inner t => simp [consOuter]

/-- A text that leaves no tag open: what is a tag after it stays one. -/
def Shut (head : List Char) : Prop :=
  ∀ rest tag, .inner tag ∈ parts tagClosing rest → .inner tag ∈ parts tagClosing (head ++ rest)

namespace Shut

theorem nil : Shut [] := fun _ _ h => h

theorem append {head tail : List Char} (hh : Shut head) (ht : Shut tail) : Shut (head ++ tail) := by
  intro rest tag h
  rw [List.append_assoc]
  exact hh _ _ (ht _ _ h)

theorem of_text {text : List Char} (h : '<' ∉ text) : Shut text := by
  induction text with
  | nil => exact nil
  | cons c text ih =>
    simp only [List.mem_cons, not_or] at h
    intro rest tag hm
    have hc : tagClosing c = none := by simpa [tagClosing] using Ne.symm h.1
    rw [List.cons_append, parts_cons_outer hc, inner_mem_consOuter]
    exact ih h.2 rest tag hm

theorem of_tag {body : List Char} (h : '>' ∉ body) : Shut ('<' :: (body ++ ['>'])) := by
  intro rest tag hm
  have hs : '<' :: (body ++ ['>']) ++ rest = '<' :: (body ++ '>' :: rest) := by simp
  have hc : tagClosing '<' = some '>' := rfl
  rw [hs, parts_cons_inner hc h]
  exact List.mem_cons_of_mem _ hm

end Shut

theorem inner_mem_parts_tag {body : List Char} (h : '>' ∉ body) (rest : List Char) :
    .inner ('<' :: (body ++ ['>'])) ∈ parts tagClosing ('<' :: (body ++ '>' :: rest)) := by
  have hc : tagClosing '<' = some '>' := rfl
  rw [parts_cons_inner hc h]
  simp

/-- The characters of a tag once its runs of white space are single spaces. -/
def squeezeTag (tag : List Char) : List Char := (parts quoteClosing tag).flatMap squeezePart

/-- A piece of a tag outside of quotes that is as it should be, and after which a space may follow. -/
structure Tidy (piece : List Char) : Prop where
  plain : ∀ c ∈ piece, quoteClosing c = none
  squeeze : ∀ rest, squeeze false (piece ++ rest) = piece ++ squeeze false rest

namespace Tidy

theorem nil : Tidy [] := ⟨by simp, fun _ => rfl⟩

theorem squeezed {piece : List Char} (h : Tidy piece) : Markup.squeeze false piece = piece := by
  have hs := h.squeeze []
  rwa [List.append_nil, Markup.squeeze, List.append_nil] at hs

theorem append {a b : List Char} (ha : Tidy a) (hb : Tidy b) : Tidy (a ++ b) := by
  constructor
  · intro c hc
    rcases List.mem_append.1 hc with hc | hc
    · exact ha.plain c hc
    · exact hb.plain c hc
  · intro rest
    rw [List.append_assoc, ha.squeeze, hb.squeeze, List.append_assoc]

theorem char {c : Char} (hb : Text.isBlank c = false) (hq : quoteClosing c = none) : Tidy [c] := by
  constructor
  · simpa using hq
  · intro rest
    simp [Markup.squeeze, hb]

theorem all {piece : List Char} (h : ∀ c ∈ piece, Text.isBlank c = false ∧ quoteClosing c = none) : Tidy piece := by
  induction piece with
  | nil => exact nil
  | cons c piece ih =>
    rw [List.forall_mem_cons] at h
    exact (char h.1.1 h.1.2).append (ih h.2)

theorem word {s : String} (h : isWord s = true) : Tidy s.toList := by
  simp only [isWord, Bool.and_eq_true, List.all_eq_true] at h
  refine all fun c hc => ⟨isWordChar_not_blank (h.2 c hc), ?_⟩
  obtain ⟨⟨-, -, hd, hs⟩, -⟩ := isWordChar_safe (h.2 c hc)
  simp [quoteClosing, hd, hs]

theorem space {piece : List Char} (h : Tidy piece) (hh : ∃ c rest, piece = c :: rest ∧ Text.isBlank c = false) :
    Tidy (' ' :: piece) := by
  obtain ⟨c, tail, rfl, hc⟩ := hh
  constructor
  · rw [List.forall_mem_cons]
    exact ⟨by decide, h.plain⟩
  · intro rest
    have hs := h.squeeze rest
    have hb : Text.isBlank ' ' = true := by decide
    simp only [List.cons_append, Markup.squeeze, hc, hb, if_true, Bool.false_eq_true, if_false] at hs ⊢
    rw [hs]

end Tidy

theorem word_head {s : String} (h : isWord s = true) : ∃ c rest, s.toList = c :: rest ∧ isWordChar c = true := by
  simp only [isWord, Bool.and_eq_true, List.all_eq_true] at h
  cases hs : s.toList with
  | nil =>
    rw [String.toList_eq_nil_iff] at hs
    simp [hs] at h
  | cons c rest => exact ⟨c, rest, rfl, h.2 c (by simp [hs])⟩

/-- A text in front of a marked stretch, or of nothing, is one outer part. -/
theorem parts_outer {piece rest : List Char} (h : ∀ c ∈ piece, closing c = none)
    (hr : ∀ text ps, parts closing rest ≠ .outer text :: ps) :
    parts closing (piece ++ rest) = (if piece.isEmpty then [] else [.outer piece]) ++ parts closing rest := by
  induction piece with
  | nil => rfl
  | cons c piece ih =>
    rw [List.forall_mem_cons] at h
    rw [List.cons_append, parts_cons_outer h.1, ih h.2]
    cases piece with
    | nil =>
      cases hp : parts closing rest with
      | nil => rfl
      | cons p ps =>
        cases p with
        | outer text => exact (hr text ps hp).elim
        | inner text => rfl
    | cons d piece => rfl

theorem flatMap_parts_outer {f : Part → List Char} (hempty : f (.outer []) = []) {piece rest : List Char}
    (h : ∀ c ∈ piece, closing c = none) (hr : ∀ text ps, parts closing rest ≠ .outer text :: ps) :
    (parts closing (piece ++ rest)).flatMap f = f (.outer piece) ++ (parts closing rest).flatMap f := by
  rw [parts_outer h hr, List.flatMap_append]
  cases piece with
  | nil =>
    rw [hempty]
    rfl
  | cons c piece => rw [List.isEmpty_cons, if_neg Bool.false_ne_true, List.flatMap_singleton]

theorem flatMap_parts_last {f : Part → List Char} (hempty : f (.outer []) = []) {piece : List Char}
    (h : ∀ c ∈ piece, closing c = none) : (parts closing piece).flatMap f = f (.outer piece) := by
  have hnil : parts closing [] = [] := by rw [parts]
  have hp := flatMap_parts_outer hempty h (fun text ps (hps : parts closing [] = _) => by simp [hnil] at hps)
  rwa [List.append_nil, hnil, List.flatMap_nil, List.append_nil] at hp

theorem squeezeTag_outer {piece rest : List Char} (h : Tidy piece)
    (hr : ∀ text ps, parts quoteClosing rest ≠ .outer text :: ps) :
    squeezeTag (piece ++ rest) = piece ++ squeezeTag rest := by
  rw [squeezeTag, flatMap_parts_outer rfl h.plain hr, squeezePart, h.squeezed, squeezeTag]

theorem squeezeTag_piece {piece : List Char} (h : Tidy piece) : squeezeTag piece = piece := by
  rw [squeezeTag, flatMap_parts_last rfl h.plain, squeezePart, h.squeezed]

theorem squeezeTag_quoted {piece value : List Char} (h : Tidy piece) (hv : '\x22' ∉ value) (rest : List Char) :
    squeezeTag (piece ++ '\x22' :: (value ++ '\x22' :: rest)) =
      piece ++ '\x22' :: (value ++ '\x22' :: squeezeTag rest) := by
  have hc : quoteClosing '\x22' = some '\x22' := by decide
  have hp := parts_cons_inner hc hv rest
  rw [squeezeTag_outer h (by simp [hp]), squeezeTag, hp]
  simp [squeezePart, squeezeTag]

theorem squeezeTag_attributes {attributes : List Attribute} (ha : attributes.all (isWord ·.name) = true)
    {piece tail : List Char} (hp : Tidy piece) (ht : Tidy tail) :
    squeezeTag (piece ++ (attributes.flatMap Attribute.write ++ tail)) =
      piece ++ (attributes.flatMap Attribute.write ++ tail) := by
  induction attributes generalizing piece with
  | nil => exact squeezeTag_piece (hp.append ht)
  | cons a attributes ih =>
    rw [List.all_cons, Bool.and_eq_true] at ha
    obtain ⟨c, rest, hc, hw⟩ := word_head ha.1
    have hname : Tidy (' ' :: a.name.toList) :=
      (Tidy.word ha.1).space ⟨c, rest, hc, isWordChar_not_blank hw⟩
    rw [List.flatMap_cons]
    cases a with
    | flag name =>
      have hs := ih ha.2 (hp.append hname)
      simpa [Attribute.write, Attribute.name] using hs
    | valued name v =>
      have heq : Tidy ['='] := .char (by decide) (by decide)
      have hv : '\x22' ∉ escapeList v.toList := fun hm => (escapeList_safe hm).2.2.1 rfl
      have hs := squeezeTag_quoted ((hp.append hname).append heq) hv (attributes.flatMap Attribute.write ++ tail)
      have hi := ih ha.2 .nil
      rw [List.nil_append] at hi
      rw [hi] at hs
      simpa [Attribute.write, Attribute.name] using hs

theorem tightenStart_of_head {c d : Char} {rest : List Char} (hd : d ≠ ' ') :
    tightenStart (c :: d :: rest) = c :: d :: rest := by
  unfold tightenStart
  split
  · rename_i he
    cases he
    exact (hd rfl).elim
  · rfl

/-- A text before whose end no space can be dropped. -/
def Firm (cs : List Char) : Prop := ∃ body c, cs = body ++ [c] ∧ c ≠ ' ' ∧ c ≠ '/'

namespace Firm

theorem append {b : List Char} (hb : Firm b) (a : List Char) : Firm (a ++ b) := by
  obtain ⟨body, c, rfl, hc⟩ := hb
  exact ⟨a ++ body, c, by simp, hc⟩

theorem word {s : String} (h : isWord s = true) : Firm s.toList := by
  obtain ⟨c, rest, hs, -⟩ := word_head h
  have hne : s.toList ≠ [] := by simp [hs]
  refine ⟨s.toList.dropLast, s.toList.getLast hne, (List.dropLast_concat_getLast hne).symm, ?_⟩
  simp only [isWord, Bool.and_eq_true, List.all_eq_true] at h
  have hw := h.2 _ (List.getLast_mem hne)
  refine ⟨?_, (isWordChar_safe hw).2⟩
  intro he
  rw [he] at hw
  cases hw

theorem write {a : Attribute} (h : isWord a.name = true) : Firm a.write := by
  cases a with
  | flag name => exact (word h).append [' ']
  | valued name v =>
    exact ⟨' ' :: (name.toList ++ '=' :: '\x22' :: escapeList v.toList), '\x22', by simp [Attribute.write],
      by decide, by decide⟩

theorem openTag {tag : String} {attributes : List Attribute} (ht : isWord tag = true)
    (ha : attributes.all (isWord ·.name) = true) : Firm (openTag tag attributes) := by
  have hgen : ∀ head, Firm head → Firm (head ++ attributes.flatMap Attribute.write) := by
    induction attributes with
    | nil => simp
    | cons a attributes ih =>
      rw [List.all_cons, Bool.and_eq_true] at ha
      intro head _
      rw [List.flatMap_cons, ← List.append_assoc]
      exact ih ha.2 _ ((write ha.1).append head)
  exact hgen _ ((word ht).append ['<'])

theorem tightenEnd {cs : List Char} (h : Firm cs) (slash : Bool) :
    Markup.tightenEnd (cs ++ if slash then ['/', '>'] else ['>']) = cs ++ if slash then ['/', '>'] else ['>'] := by
  obtain ⟨body, c, rfl, hb, hs⟩ := h
  have hr : (body ++ [c] ++ if slash then ['/', '>'] else ['>']).reverse =
      (if slash then ['>', '/'] else ['>']) ++ c :: body.reverse := by
    cases slash <;> simp
  rw [Markup.tightenEnd, hr]
  split
  · rename_i he
    cases slash
    · simp only [Bool.false_eq_true, if_false, List.singleton_append, List.cons.injEq] at he
      exact (hs he.2.1).elim
    · simp only [if_true, List.cons_append, List.nil_append, List.cons.injEq] at he
      exact (hb he.2.2.1).elim
  · rename_i he
    cases slash
    · simp only [Bool.false_eq_true, if_false, List.singleton_append, List.cons.injEq] at he
      exact (hb he.2.1).elim
    · simp at he
  · rfl

end Firm

theorem collapseTag_openTag {tag : String} {attributes : List Attribute} (ht : isWord tag = true)
    (ha : attributes.all (isWord ·.name) = true) (slash : Bool) :
    collapseTag (openTag tag attributes ++ if slash then ['/', '>'] else ['>']) =
      openTag tag attributes ++ if slash then ['/', '>'] else ['>'] := by
  have hopen : Tidy ['<'] := .char (by decide) (by decide)
  have hend : Tidy (if slash then ['/', '>'] else ['>']) := by
    cases slash
    · exact .char (by decide) (by decide)
    · exact .all (Text.forall_mem_of_all (by decide))
  have hs := squeezeTag_attributes ha (hopen.append (.word ht)) hend
  obtain ⟨c, rest, hc, hw⟩ := word_head ht
  have hstart : tightenStart (openTag tag attributes ++ if slash then ['/', '>'] else ['>']) =
      openTag tag attributes ++ if slash then ['/', '>'] else ['>'] := by
    simp only [openTag, hc, List.cons_append]
    apply tightenStart_of_head
    rintro rfl
    cases hw
  have hsqueeze : squeezeTag (openTag tag attributes ++ if slash then ['/', '>'] else ['>']) =
      openTag tag attributes ++ if slash then ['/', '>'] else ['>'] := by
    simpa [openTag] using hs
  rw [collapseTag, ← squeezeTag, hsqueeze, hstart]
  exact (Firm.openTag ht ha).tightenEnd slash

theorem infix_trimList {m cs : List Char} (hh : ∀ c ∈ m.head?, Text.isBlank c = false)
    (hl : ∀ c ∈ m.getLast?, Text.isBlank c = false) (h : m <:+: cs) : m <:+: Text.trimList cs := by
  rw [Text.trimList, Text.dropTrailing]
  have hd := Text.infix_dropWhile hh h
  have hr := Text.infix_dropWhile (m := m.reverse) (p := Text.isBlank) (by simpa using hl) ( List.reverse_infix.2 hd)
  rwa [← List.reverse_infix, List.reverse_reverse]

theorem word_safe {s : String} (h : isWord s = true) {c : Char} (hc : c ∈ s.toList) : IsSafe c := by
  simp only [isWord, Bool.and_eq_true, List.all_eq_true] at h
  exact (isWordChar_safe (h.2 c hc)).1

/-- What stands inside a tag does not close it. -/
theorem openTag_eq {tag : String} {attributes : List Attribute} (ht : isWord tag = true)
    (ha : attributes.all (isWord ·.name) = true) : ∃ body, openTag tag attributes = '<' :: body ∧ '>' ∉ body := by
  refine ⟨_, rfl, fun hm => ?_⟩
  rcases List.mem_append.1 hm with hm | hm
  · exact (word_safe ht hm).2.1 rfl
  · obtain ⟨a, hmem, hc⟩ := List.mem_flatMap.1 hm
    have hw := List.all_eq_true.1 ha a hmem
    cases a with
    | flag name =>
      simp only [Attribute.write, List.mem_cons, Char.reduceEq, false_or] at hc
      exact (word_safe hw hc).2.1 rfl
    | valued name v =>
      simp only [Attribute.write, List.mem_cons, List.mem_append, Char.reduceEq, false_or, List.not_mem_nil,
        or_false] at hc
      rcases hc with hc | hc
      · exact (word_safe hw hc).2.1 rfl
      · exact (escapeList_safe hc).2.1 rfl

theorem Shut.openTag {tag : String} {attributes : List Attribute} (ht : isWord tag = true)
    (ha : attributes.all (isWord ·.name) = true) (slash : Bool) :
    Shut (openTag tag attributes ++ if slash then ['/', '>'] else ['>']) := by
  obtain ⟨body, hb, hn⟩ := openTag_eq ht ha
  rw [hb]
  cases slash with
  | false => exact .of_tag hn
  | true =>
    have hs : Shut ('<' :: (body ++ ['/'] ++ ['>'])) := .of_tag (by simp [hn])
    simpa using hs

theorem Shut.closeTag {tag : String} (ht : isWord tag = true) : Shut (closeTag tag) := by
  have hn : '>' ∉ '/' :: tag.toList := by
    simp only [List.mem_cons, Char.reduceEq, false_or]
    exact fun hm => (word_safe ht hm).2.1 rfl
  simpa [Markup.closeTag] using Shut.of_tag hn

theorem shut_escapeList (s : String) : Shut (escapeList s.toList) :=
  .of_text fun hm => (escapeList_safe hm).1 rfl

namespace Node

mutual

theorem shut_write : (n : Node) → n.isSound = true → Shut n.write
  | text s, _ => by
    rw [write]
    exact shut_escapeList s
  | reference name, h => by
    rw [isSound] at h
    rw [write]
    refine .of_text ?_
    simp only [List.mem_cons, List.mem_append, Char.reduceEq, false_or, List.not_mem_nil, or_false]
    exact fun hm => (word_safe h hm).1 rfl
  | element tag attributes children, h => by
    simp only [isSound, Bool.and_eq_true] at h
    have hs := (Shut.openTag h.1.1 h.1.2 false).append ((shut_writeAll children h.2).append (.closeTag h.1.1))
    rw [write]
    simpa using hs
  | empty slash tag attributes, h => by
    simp only [isSound, Bool.and_eq_true] at h
    rw [write]
    exact .openTag h.1 h.2 slash

theorem shut_writeAll : (ns : List Node) → areSound ns = true → Shut (writeAll ns)
  | [], _ => by
    rw [writeAll]
    exact .nil
  | n :: rest, h => by
    simp only [areSound, Bool.and_eq_true] at h
    rw [writeAll]
    exact (shut_write n h.1).append (shut_writeAll rest h.2)

end

mutual

/-- Every element is written with its tag, which is a part of its own. -/
theorem tag_mem_parts : (n : Node) → n.isSound = true → (rest : List Char) → ∀ e ∈ n.elements,
    .inner (openTag e.1 e.2 ++ ['>']) ∈ parts tagClosing (n.write ++ rest)
  | text s, _, _ => by simp [elements]
  | reference name, _, _ => by simp [elements]
  | empty slash tag attributes, _, _ => by simp [elements]
  | element tag attributes children, h, rest => by
    simp only [isSound, Bool.and_eq_true] at h
    obtain ⟨body, hb, hn⟩ := openTag_eq h.1.1 h.1.2
    simp only [elements, List.forall_mem_cons, write, List.append_assoc, List.cons_append]
    constructor
    · rw [hb]
      exact inner_mem_parts_tag hn _
    · intro e he
      have hm := tag_mem_parts_all children h.2 (closeTag tag ++ rest) e he
      have hs := Shut.openTag h.1.1 h.1.2 false _ _ hm
      simpa using hs

theorem tag_mem_parts_all : (ns : List Node) → areSound ns = true → (rest : List Char) → ∀ e ∈ elementsAll ns,
    .inner (openTag e.1 e.2 ++ ['>']) ∈ parts tagClosing (writeAll ns ++ rest)
  | [], _, _ => by simp [elementsAll]
  | n :: ns, h, rest => by
    simp only [areSound, Bool.and_eq_true] at h
    simp only [elementsAll, List.mem_append, writeAll, List.append_assoc]
    rintro e (he | he)
    · exact tag_mem_parts n h.1 _ e he
    · exact shut_write n h.1 _ _ (tag_mem_parts_all ns h.2 rest e he)

end

mutual

theorem elements_sound : (n : Node) → n.isSound = true → ∀ e ∈ n.elements,
    isWord e.1 = true ∧ e.2.all (isWord ·.name) = true
  | text s, _ => by simp [elements]
  | reference name, _ => by simp [elements]
  | empty slash tag attributes, _ => by simp [elements]
  | element tag attributes children, h => by
    simp only [isSound, Bool.and_eq_true] at h
    simp only [elements, List.forall_mem_cons]
    exact ⟨h.1, elementsAll_sound children h.2⟩

theorem elementsAll_sound : (ns : List Node) → areSound ns = true → ∀ e ∈ elementsAll ns,
    isWord e.1 = true ∧ e.2.all (isWord ·.name) = true
  | [], _ => by simp [elementsAll]
  | n :: ns, h => by
    simp only [areSound, Bool.and_eq_true] at h
    simp only [elementsAll, List.mem_append]
    rintro e (he | he)
    · exact elements_sound n h.1 e he
    · exact elementsAll_sound ns h.2 e he

end

/-- The tag of every element stands in the collapsed markup as it was written. -/
theorem tag_infix_collapse {n : Node} (h : n.isSound = true) {e : String × List Attribute} (he : e ∈ n.elements) :
    openTag e.1 e.2 ++ ['>'] <:+: (collapse n.render).toList := by
  obtain ⟨ht, ha⟩ := elements_sound n h e he
  have hm := tag_mem_parts n h [] e he
  have hc := collapseTag_openTag ht ha false
  simp only [Bool.false_eq_true, if_false] at hc
  rw [List.append_nil] at hm
  simp only [collapse, render, String.toList_ofList, collapseList]
  apply infix_trimList
  · simp only [openTag, List.cons_append, List.head?_cons, Option.mem_some_iff, forall_eq']
    decide
  · simp only [List.getLast?_concat, Option.mem_some_iff, forall_eq']
    decide
  · obtain ⟨before, after, hp⟩ := List.append_of_mem hm
    rw [hp, List.flatMap_append, List.flatMap_cons, collapsePart, hc]
    exact ⟨before.flatMap collapsePart, after.flatMap collapsePart, by simp⟩

end Node

end ConsentBanner.Markup
