import ConsentBanner.Markup.Node
import ConsentBanner.Proofs.Text

/-!
Markup whose names are words, and the elements inside it. Escaped text is read back as it was.
-/

namespace ConsentBanner.Markup

/-- A character that opens and closes nothing in markup. -/
def IsSafe (c : Char) : Prop := c ≠ '<' ∧ c ≠ '>' ∧ c ≠ '\x22' ∧ c ≠ '\x27'

instance (c : Char) : Decidable (IsSafe c) := inferInstanceAs (Decidable (_ ∧ _))

theorem escapeChar_safe (c : Char) : ∀ d ∈ escapeChar c, IsSafe d := by
  unfold escapeChar
  split
  · exact Text.forall_mem_of_all (by decide)
  · exact Text.forall_mem_of_all (by decide)
  · exact Text.forall_mem_of_all (by decide)
  · exact Text.forall_mem_of_all (by decide)
  · exact Text.forall_mem_of_all (by decide)
  · rename_i hl hg ha hq
    rintro d hd
    rw [List.mem_singleton.1 hd]
    exact ⟨hl, hg, hq, ha⟩

theorem escapeList_safe {cs : List Char} {d : Char} (h : d ∈ escapeList cs) : IsSafe d := by
  obtain ⟨c, -, hd⟩ := List.mem_flatMap.1 h
  exact escapeChar_safe c d hd

/-- What references stand for. Those that markup is not written with stay as they are. -/
def unescapeList : List Char → List Char
  | [] => []
  | '&' :: 'a' :: 'm' :: 'p' :: ';' :: rest => '&' :: unescapeList rest
  | '&' :: 'l' :: 't' :: ';' :: rest => '<' :: unescapeList rest
  | '&' :: 'g' :: 't' :: ';' :: rest => '>' :: unescapeList rest
  | '&' :: '#' :: '3' :: '9' :: ';' :: rest => '\x27' :: unescapeList rest
  | '&' :: '#' :: '3' :: '4' :: ';' :: rest => '\x22' :: unescapeList rest
  | '&' :: 't' :: 'i' :: 'm' :: 'e' :: 's' :: ';' :: rest => '×' :: unescapeList rest
  | c :: rest => c :: unescapeList rest

/-- The text that markup stands for. -/
def unescape (s : String) : String := String.ofList (unescapeList s.toList)

theorem unescapeList_plain {c : Char} (h : c ≠ '&') (rest : List Char) :
    unescapeList (c :: rest) = c :: unescapeList rest := by
  rw [unescapeList]
  all_goals simp_all

theorem unescapeList_escapeList (cs : List Char) : unescapeList (escapeList cs) = cs := by
  induction cs with
  | nil => rfl
  | cons c cs ih =>
    have hcons : escapeList (c :: cs) = escapeChar c ++ escapeList cs := rfl
    rw [hcons]
    unfold escapeChar
    split
    iterate 5
      change _ :: unescapeList (escapeList cs) = _
      rw [ih]
    rename_i hreference _ _ _ _
    rw [List.singleton_append, unescapeList_plain hreference, ih]

theorem unescape_escape (s : String) : unescape (escape s) = s := by
  rw [unescape, escape, String.toList_ofList, unescapeList_escapeList, String.ofList_toList]

/-- A character of a name. -/
def isWordChar (c : Char) : Bool := c.isAlphanum || c == '-'

/-- A name of a tag, an attribute or a character. -/
def isWord (s : String) : Bool := !s.isEmpty && s.toList.all isWordChar

theorem isWordChar_range {c : Char} (h : isWordChar c = true) : 45 ≤ c.toNat ∧ c.toNat ≤ 122 := by
  rw [isWordChar, Bool.or_eq_true, beq_iff_eq] at h
  obtain h | rfl := h
  · have hrange := Text.isAlphanum_range h
    omega
  · decide

theorem isWordChar_not_blank {c : Char} (h : isWordChar c = true) : Text.isBlank c = false := by
  obtain ⟨hl, hu⟩ := isWordChar_range h
  simp only [Text.isBlank, Bool.or_eq_false_iff, Bool.and_eq_false_iff, decide_eq_false_iff_not, beq_eq_false_iff_ne]
  omega

theorem isWordChar_safe {c : Char} (h : isWordChar c = true) : IsSafe c ∧ c ≠ '/' := by
  refine ⟨⟨?_, ?_, ?_, ?_⟩, ?_⟩ <;> (rintro rfl; cases h)

namespace Attribute

def name : Attribute → String
  | valued name _ => name
  | flag name => name

end Attribute

namespace Node

mutual

/-- Whether all names inside a piece of markup are words. -/
def isSound : Node → Bool
  | text _ => true
  | reference name => isWord name
  | element tag attributes children =>
    isWord tag && attributes.all (isWord ·.name) && areSound children
  | empty _ tag attributes => isWord tag && attributes.all (isWord ·.name)

def areSound : List Node → Bool
  | [] => true
  | n :: rest => n.isSound && areSound rest

end

mutual

/-- The tags and attributes of the elements with content, in document order. -/
def elements : Node → List (String × List Attribute)
  | element tag attributes children => (tag, attributes) :: elementsAll children
  | _ => []

def elementsAll : List Node → List (String × List Attribute)
  | [] => []
  | n :: rest => n.elements ++ elementsAll rest

end

mutual

theorem tag_infix_write : (n : Node) → ∀ e ∈ n.elements, openTag e.1 e.2 ++ ['>'] <:+: n.write
  | text s => by simp [elements]
  | reference name => by simp [elements]
  | empty slash tag attributes => by simp [elements]
  | element tag attributes children => by
    simp only [elements, List.forall_mem_cons, write]
    constructor
    · exact ⟨[], writeAll children ++ closeTag tag, by simp⟩
    · intro e he
      have hm := tag_infix_writeAll children e he
      exact hm.trans ⟨openTag tag attributes ++ ['>'], closeTag tag, by simp⟩

theorem tag_infix_writeAll : (ns : List Node) → ∀ e ∈ elementsAll ns, openTag e.1 e.2 ++ ['>'] <:+: writeAll ns
  | [] => by simp [elementsAll]
  | n :: ns => by
    simp only [elementsAll, List.mem_append, writeAll]
    rintro e (he | he)
    · exact (tag_infix_write n e he).trans (List.prefix_append _ _).isInfix
    · exact (tag_infix_writeAll ns e he).trans (List.suffix_append _ _).isInfix

end

theorem elementsAll_append (ns ms : List Node) : elementsAll (ns ++ ms) = elementsAll ns ++ elementsAll ms := by
  induction ns with
  | nil => rfl
  | cons n ns ih => rw [List.cons_append, elementsAll, elementsAll, ih, List.append_assoc]

theorem areSound_append (ns ms : List Node) : areSound (ns ++ ms) = (areSound ns && areSound ms) := by
  induction ns with
  | nil => rfl
  | cons n ns ih => rw [List.cons_append, areSound, areSound, ih, Bool.and_assoc]

end Node

end ConsentBanner.Markup
