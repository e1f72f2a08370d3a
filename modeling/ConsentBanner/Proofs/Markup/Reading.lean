import ConsentBanner.Proofs.Markup.Collapse

/-!
Reading markup back: a text that is cut into tags and texts, and the tree that balanced tags form. Collapsed markup is
read as the tree that was written, without its blank texts.
-/

namespace ConsentBanner.Markup

/-- What markup is read as. Texts and values are as they are written, references and all. -/
inductive Tree where
  | text (s : String)
  | element (tag : String) (attributes : List (String × String)) (children : List Tree)
deriving Repr

/-- A text or a tag. A tag that ends in a slash is that of an empty element. -/
inductive Mark where
  | text (s : String)
  | opening (tag : String) (attributes : List (String × String))
  | closing (tag : String)
  | single (tag : String) (attributes : List (String × String))
deriving DecidableEq, Repr

/-- The attributes of a tag: after a space each, a name and a value in quotation marks. -/
def readAttributes (cs : List Char) : Option (List (String × String)) :=
  match cs with
  | [] => some []
  | ' ' :: rest =>
    match _hn : cutThrough? '=' rest with
    | some (name, '\x22' :: quoted) =>
      match _hv : cutThrough? '\x22' quoted with
      | some (value, after) =>
        if isWord (String.ofList name.dropLast) then
          (readAttributes after).map ((String.ofList name.dropLast, String.ofList value.dropLast) :: ·)
        else none
      | none => none
    | _ => none
  | _ => none
termination_by cs.length
decreasing_by
  have hn := cutThrough?_length _hn
  have hv := cutThrough?_length _hv
  simp only [List.length_cons] at hn ⊢
  omega

def readNamed (cs : List Char) (make : String → List (String × String) → Mark) : Option Mark :=
  let tag := String.ofList (cs.takeWhile (· != ' '))
  if isWord tag then (readAttributes (cs.dropWhile (· != ' '))).map (make tag) else none

/-- What stands between the angle brackets of a tag. -/
def readTag : List Char → Option Mark
  | '/' :: tag => if isWord (String.ofList tag) then some (.closing (String.ofList tag)) else none
  | body => if body.getLast? == some '/' then readNamed body.dropLast .single else readNamed body .opening

def readPart : Part → Option Mark
  | .inner ('<' :: rest) => readTag rest.dropLast
  | .inner _ => none
  | .outer text => if text.any fun c => c == '<' || c == '>' then none else some (.text (String.ofList text))

/-- An element that is open, with what stands before it. -/
structure Opened where
  tag : String
  attributes : List (String × String)
  before : List Tree
deriving Repr

/-- The trees that parts form. Every tag has to close the last element that is open, and none may be left open. -/
def build (opened : List Opened) (done : List Tree) : List Part → Option (List Tree)
  | [] => if opened.isEmpty then some done else none
  | p :: rest =>
    match readPart p with
    | some (.text s) => build opened (done ++ [.text s]) rest
    | some (.opening tag attributes) => build (⟨tag, attributes, done⟩ :: opened) [] rest
    | some (.single tag attributes) => build opened (done ++ [.element tag attributes []]) rest
    | some (.closing tag) =>
      match opened with
      | ⟨last, attributes, before⟩ :: opened =>
        if last == tag then build opened (before ++ [.element tag attributes done]) rest else none
      | [] => none
    | none => none

/-- The trees of markup, if its tags are balanced. -/
def read? (markup : String) : Option (List Tree) := build [] [] (parts tagClosing markup.toList)

namespace Attribute

def isValued : Attribute → Bool
  | valued _ _ => true
  | flag _ => false

/-- The name of an attribute with its value as it is written. -/
def pair : Attribute → String × String
  | valued name v => (name, escape v)
  | flag name => (name, "")

end Attribute

theorem flatMap_write_valued (name v : String) (attributes : List Attribute) :
    (Attribute.valued name v :: attributes).flatMap Attribute.write =
      ' ' :: (name.toList ++ '=' :: '\x22' :: (escapeList v.toList ++ '\x22' ::
        attributes.flatMap Attribute.write)) := by
  simp [Attribute.write]

theorem readAttributes_write {attributes : List Attribute} (hwords : attributes.all (isWord ·.name) = true)
    (hvalued : attributes.all Attribute.isValued = true) :
    readAttributes (attributes.flatMap Attribute.write) = some (attributes.map Attribute.pair) := by
  induction attributes with
  | nil =>
    rw [List.flatMap_nil, readAttributes]
    rfl
  | cons a attributes ih =>
    rw [List.all_cons, Bool.and_eq_true] at hwords hvalued
    cases a with
    | flag name => cases hvalued.1
    | valued name v =>
      have hword : isWord name = true := hwords.1
      have hname : '=' ∉ name.toList := by
        intro hm
        simp only [isWord, Bool.and_eq_true, List.all_eq_true] at hword
        cases hword.2 _ hm
      have hvalue : '\x22' ∉ escapeList v.toList := fun hm => (escapeList_safe hm).2.2.1 rfl
      rw [flatMap_write_valued, readAttributes]
      split
      · rename_i cut quoted hcut
        rw [cutThrough?_append hname] at hcut
        cases hcut
        split
        · rename_i cut after hcut
          rw [cutThrough?_append hvalue] at hcut
          cases hcut
          rw [List.dropLast_concat, List.dropLast_concat, String.ofList_toList, if_pos hword, ih hwords.2 hvalued.2]
          rfl
        · rename_i hcut
          rw [cutThrough?_append hvalue] at hcut
          cases hcut
      · rename_i hcut
        exact (hcut _ _ (cutThrough?_append hname _)).elim

theorem attributes_head {attributes : List Attribute} : ∀ c ∈ (attributes.flatMap Attribute.write).head?, c = ' ' := by
  intro c hc
  cases attributes with
  | nil => cases hc
  | cons a attributes =>
    cases a with
    | valued name v =>
      cases hc
      rfl
    | flag name =>
      cases hc
      rfl

section Tag

variable {tag : String} {attributes : List Attribute}

theorem readNamed_write (ht : isWord tag = true) (ha : attributes.all (isWord ·.name) = true)
    (hv : attributes.all Attribute.isValued = true) (make : String → List (String × String) → Mark) :
    readNamed (tag.toList ++ attributes.flatMap Attribute.write) make =
      some (make tag (attributes.map Attribute.pair)) := by
  have hword : ∀ c ∈ tag.toList, (c != ' ') = true := by
    intro c hc
    have hw := ht
    simp only [isWord, Bool.and_eq_true, List.all_eq_true] at hw
    rw [bne_iff_ne]
    rintro rfl
    cases hw.2 _ hc
  have hrest : ∀ c ∈ (attributes.flatMap Attribute.write).head?, (c != ' ') = false := by
    intro c hc
    rw [attributes_head c hc]
    rfl
  rw [readNamed, Text.takeWhile_append_of_end hword hrest, Text.dropWhile_append_of_end hword hrest,
    String.ofList_toList]
  simp only [ht, if_true, readAttributes_write ha hv, Option.map_some]

theorem readTag_of_word (ht : isWord tag = true) (rest : List Char) :
    readTag (tag.toList ++ rest) = if (tag.toList ++ rest).getLast? == some '/' then
      readNamed (tag.toList ++ rest).dropLast .single else readNamed (tag.toList ++ rest) .opening := by
  obtain ⟨c, cs, hc, hw⟩ := word_head ht
  rw [hc, List.cons_append]
  unfold readTag
  split
  · rename_i heq
    cases heq
    cases hw
  · rfl

theorem readPart_opening (ht : isWord tag = true) (ha : attributes.all (isWord ·.name) = true)
    (hv : attributes.all Attribute.isValued = true) :
    readPart (.inner (openTag tag attributes ++ ['>'])) = some (.opening tag (attributes.map Attribute.pair)) := by
  have hlast : ¬ ((tag.toList ++ attributes.flatMap Attribute.write).getLast? == some '/') = true := by
    obtain ⟨body, c, hb, -, hc⟩ := Firm.openTag ht ha
    have hopen : openTag tag attributes = '<' :: (tag.toList ++ attributes.flatMap Attribute.write) := rfl
    rw [hopen] at hb
    have hne : tag.toList ++ attributes.flatMap Attribute.write ≠ [] := by
      obtain ⟨d, cs, hd, -⟩ := word_head ht
      simp [hd]
    have hget := congrArg List.getLast? hb
    rw [List.getLast?_cons_of_ne_nil hne, List.getLast?_concat] at hget
    rw [hget]
    simpa using hc
  have hpart : readPart (.inner (openTag tag attributes ++ ['>'])) =
      readTag (tag.toList ++ attributes.flatMap Attribute.write) := by
    rw [openTag, List.cons_append, readPart, List.dropLast_concat]
  rw [hpart, readTag_of_word ht, if_neg hlast, readNamed_write ht ha hv]

theorem readPart_single (ht : isWord tag = true) (ha : attributes.all (isWord ·.name) = true)
    (hv : attributes.all Attribute.isValued = true) :
    readPart (.inner (openTag tag attributes ++ ['/', '>'])) = some (.single tag (attributes.map Attribute.pair)) := by
  have hpart : readPart (.inner (openTag tag attributes ++ ['/', '>'])) =
      readTag (tag.toList ++ (attributes.flatMap Attribute.write ++ ['/'])) := by
    have hend : openTag tag attributes ++ ['/', '>'] =
        '<' :: ((tag.toList ++ (attributes.flatMap Attribute.write ++ ['/'])) ++ ['>']) := by
      simp [openTag]
    rw [hend, readPart, List.dropLast_concat]
  rw [hpart, readTag_of_word ht, ← List.append_assoc, List.getLast?_concat, List.dropLast_concat,
    if_pos (by rfl), readNamed_write ht ha hv]

theorem readPart_closing (ht : isWord tag = true) : readPart (.inner (closeTag tag)) = some (.closing tag) := by
  have hclose : closeTag tag = '<' :: (('/' :: tag.toList) ++ ['>']) := rfl
  rw [hclose, readPart, List.dropLast_concat, readTag, String.ofList_toList, if_pos ht]

theorem readPart_text (s : String) : readPart (.outer (escapeList s.toList)) = some (.text (escape s)) := by
  have hsafe : ¬ ((escapeList s.toList).any fun c => c == '<' || c == '>') = true := by
    rw [Bool.not_eq_true, List.any_eq_false]
    intro c hc
    have hs := escapeList_safe hc
    simp [hs.1, hs.2.1]
  rw [readPart, if_neg hsafe]
  rfl

theorem collapseTag_closeTag (ht : isWord tag = true) : collapseTag (closeTag tag) = closeTag tag := by
  have htidy : Tidy (closeTag tag) := by
    have hstart : Tidy ['<', '/'] := .all (Text.forall_mem_of_all (by decide))
    have hend : Tidy ['>'] := .char (by decide) (by decide)
    exact hstart.append ((Tidy.word ht).append hend)
  have hfirm := ((Firm.word ht).append ['<', '/']).tightenEnd false
  have hstart : tightenStart (closeTag tag) = closeTag tag := tightenStart_of_head (by decide)
  rw [collapseTag, ← squeezeTag, squeezeTag_piece htidy, hstart]
  exact hfirm

end Tag

theorem escapeChar_ne_nil (c : Char) : escapeChar c ≠ [] := by
  unfold escapeChar
  split
  · decide
  · decide
  · decide
  · decide
  · decide
  · simp

theorem escapeList_ne_nil {s : String} (h : ¬ s.isEmpty = true) : escapeList s.toList ≠ [] := by
  rw [String.isEmpty_iff, ← String.toList_eq_nil_iff] at h
  obtain ⟨c, cs, hs⟩ := List.exists_cons_of_ne_nil h
  rw [hs, escapeList, List.flatMap_cons]
  exact List.append_ne_nil_of_left_ne_nil (escapeChar_ne_nil c) _

theorem all_blank_escapeChar (c : Char) : (escapeChar c).all Text.isBlank = Text.isBlank c := by
  unfold escapeChar
  split
  · decide
  · decide
  · decide
  · decide
  · decide
  · simp

theorem all_blank_escapeList (cs : List Char) : (escapeList cs).all Text.isBlank = cs.all Text.isBlank := by
  induction cs with
  | nil => rfl
  | cons c cs ih =>
    rw [escapeList, List.flatMap_cons, List.all_append, all_blank_escapeChar, ← escapeList, ih, List.all_cons]

namespace Part

def text : Part → List Char
  | outer text => text
  | inner text => text

/-- Whether a part stays when markup is collapsed. -/
def stays : Part → Bool
  | outer text => !text.all Text.isBlank
  | inner _ => true

def isOuter : Part → Bool
  | outer _ => true
  | inner _ => false

end Part

/-- Parts as a text is cut into them: tags, and texts without angle brackets of which no two stand side by side. -/
inductive Cut : List Part → Prop
  | nil : Cut []
  | tag {body : List Char} {ps : List Part} (h : '>' ∉ body) (hps : Cut ps) :
      Cut (.inner ('<' :: (body ++ ['>'])) :: ps)
  | text {text : List Char} {ps : List Part} (hne : text ≠ []) (h : '<' ∉ text)
      (hfirst : ∀ p ∈ ps.head?, p.isOuter = false) (hps : Cut ps) : Cut (.outer text :: ps)

namespace Cut

theorem parts_eq {ps : List Part} (h : Cut ps) : parts tagClosing (ps.flatMap Part.text) = ps := by
  induction h with
  | nil => rw [List.flatMap_nil, parts]
  | @tag body ps hb hps ih =>
    have hwrite : (Part.inner ('<' :: (body ++ ['>'])) :: ps).flatMap Part.text =
        '<' :: (body ++ '>' :: ps.flatMap Part.text) := by
      simp [Part.text]
    have hc : tagClosing '<' = some '>' := rfl
    rw [hwrite, parts_cons_inner hc hb, ih]
  | @text text ps hne ht hfirst hps ih =>
    have hplain : ∀ c ∈ text, tagClosing c = none := by
      intro c hc
      have hlt : c ≠ '<' := by
        rintro rfl
        exact ht hc
      simp [tagClosing, hlt]
    rw [List.flatMap_cons, Part.text, parts_outer hplain, ih, if_neg (by simpa using hne)]
    · rfl
    · intro u us hu
      rw [ih] at hu
      subst hu
      cases hfirst _ rfl

theorem first_filter {ps : List Part} (h : ∀ p ∈ ps.head?, p.isOuter = false) :
    ∀ p ∈ (ps.filter Part.stays).head?, p.isOuter = false := by
  cases ps with
  | nil => exact nofun
  | cons p ps =>
    cases p with
    | inner t =>
      intro q hq
      cases hq
      rfl
    | outer t => cases h _ rfl

theorem filter {ps : List Part} (h : Cut ps) : Cut (ps.filter Part.stays) := by
  induction h with
  | nil => exact nil
  | tag hb hps ih =>
    rw [List.filter_cons_of_pos rfl]
    exact tag hb ih
  | @text text ps hne ht hfirst hps ih =>
    cases hs : Part.stays (.outer text) with
    | true =>
      rw [List.filter_cons_of_pos hs]
      exact .text hne ht (first_filter hfirst) ih
    | false =>
      rw [List.filter_cons_of_neg (by simp [hs])]
      exact ih

end Cut

namespace Node

def isText : Node → Bool
  | text _ => true
  | _ => false

mutual

/-- Whether markup is made of texts and elements whose attributes have values, with a text only as the first of
siblings, and with a slash in the tag of each element without content. -/
def isPlain : Node → Bool
  | text _ => true
  | reference _ => false
  | element _ attributes children =>
    attributes.all Attribute.isValued && children.tail.all (!·.isText) && arePlain children
  | empty slash _ attributes => slash && attributes.all Attribute.isValued

def arePlain : List Node → Bool
  | [] => true
  | n :: rest => n.isPlain && arePlain rest

end

theorem arePlain_append (ns ms : List Node) : arePlain (ns ++ ms) = (arePlain ns && arePlain ms) := by
  induction ns with
  | nil => rfl
  | cons n ns ih => rw [List.cons_append, arePlain, arePlain, ih, Bool.and_assoc]

/-- Whether markup is a text of its own or a single reference. -/
def isInline : Node → Bool
  | text _ => true
  | reference _ => true
  | _ => false

mutual

/-- Whether a text or a reference stands only as the first of siblings, so that no two of them run together. -/
def isSeparated : Node → Bool
  | element _ _ children => children.tail.all (!·.isInline) && areSeparated children
  | _ => true

def areSeparated : List Node → Bool
  | [] => true
  | n :: rest => n.isSeparated && areSeparated rest

end

theorem isInline_of_isPlain {n : Node} (h : n.isPlain = true) : n.isInline = n.isText := by
  cases n with
  | text s => rfl
  | reference name =>
    rw [isPlain] at h
    cases h
  | element tag attributes children => rfl
  | empty slash tag attributes => rfl

theorem all_not_isInline {ns : List Node} (h : arePlain ns = true) :
    ns.all (!·.isInline) = ns.all (!·.isText) := by
  induction ns with
  | nil => rfl
  | cons n ns ih =>
    rw [arePlain, Bool.and_eq_true] at h
    rw [List.all_cons, List.all_cons, isInline_of_isPlain h.1, ih h.2]

mutual

theorem isSeparated_of_isPlain : (n : Node) → n.isPlain = true → n.isSeparated = true
  | text s, _ => by
    rw [isSeparated]
    exact nofun
  | reference name, _ => by
    rw [isSeparated]
    exact nofun
  | element tag attributes children, h => by
    simp only [isPlain, Bool.and_eq_true] at h
    have htail : arePlain children.tail = true := by
      cases children with
      | nil => exact h.2
      | cons n ns =>
        rw [arePlain, Bool.and_eq_true] at h
        exact h.2.2
    rw [isSeparated, all_not_isInline htail, h.1.2, areSeparated_of_arePlain children h.2]
    rfl
  | empty slash tag attributes, _ => by
    rw [isSeparated]
    exact nofun

theorem areSeparated_of_arePlain : (ns : List Node) → arePlain ns = true → areSeparated ns = true
  | [], _ => by rw [areSeparated]
  | n :: ns, h => by
    rw [arePlain, Bool.and_eq_true] at h
    rw [areSeparated, isSeparated_of_isPlain n h.1, areSeparated_of_arePlain ns h.2]
    rfl

end

theorem areSeparated_map {α : Type} {f : α → Node} (h : ∀ a, (f a).isSeparated = true) (as : List α) :
    areSeparated (as.map f) = true := by
  induction as with
  | nil => rfl
  | cons a as ih =>
    rw [List.map_cons, areSeparated, h, ih]
    rfl

theorem all_block_map {α : Type} {f : α → Node} (h : ∀ a, (f a).isInline = false) (as : List α) :
    (as.map f).all (!·.isInline) = true := by
  rw [List.all_map, List.all_eq_true]
  intro a _
  rw [Function.comp_apply, h]
  rfl

theorem all_block_tail {ns : List Node} (h : ns.all (!·.isInline) = true) : ns.tail.all (!·.isInline) = true := by
  cases ns with
  | nil => rfl
  | cons n ns => exact (Bool.and_eq_true_iff.1 h).2

mutual

def parts : Node → List Part
  | text s => if s.isEmpty then [] else [.outer (escapeList s.toList)]
  | reference name => [.outer ('&' :: (name.toList ++ [';']))]
  | element tag attributes children =>
    .inner (openTag tag attributes ++ ['>']) :: (partsAll children ++ [.inner (closeTag tag)])
  | empty slash tag attributes => [.inner (openTag tag attributes ++ if slash then ['/', '>'] else ['>'])]

def partsAll : List Node → List Part
  | [] => []
  | n :: rest => n.parts ++ partsAll rest

end

mutual

theorem flatMap_parts : (n : Node) → n.parts.flatMap Part.text = n.write
  | text s => by
    rw [parts, write]
    split
    · rename_i hs
      rw [String.isEmpty_iff.1 hs]
      rfl
    · simp [Part.text]
  | reference name => by simp [parts, write, Part.text]
  | element tag attributes children => by
    have hchildren := flatMap_partsAll children
    simp only [parts, write, List.flatMap_cons, List.flatMap_append, hchildren, Part.text, List.flatMap_nil,
      List.append_nil]
    simp
  | empty slash tag attributes => by simp [parts, write, Part.text]

theorem flatMap_partsAll : (ns : List Node) → (partsAll ns).flatMap Part.text = writeAll ns
  | [] => by rw [partsAll, writeAll, List.flatMap_nil]
  | n :: ns => by rw [partsAll, writeAll, List.flatMap_append, flatMap_parts n, flatMap_partsAll ns]

end

theorem parts_head {n : Node} (h : n.isInline = false) (rest : List Part) :
    ∀ p ∈ (n.parts ++ rest).head?, p.isOuter = false := by
  intro p hmem
  cases n with
  | text s => cases h
  | reference name => cases h
  | element tag attributes children =>
    rw [parts] at hmem
    cases hmem
    rfl
  | empty slash tag attributes =>
    rw [parts] at hmem
    cases hmem
    rfl

theorem partsAll_head {ns : List Node} (h : ns.all (!·.isInline) = true) {rest : List Part}
    (hrest : ∀ p ∈ rest.head?, p.isOuter = false) : ∀ p ∈ (partsAll ns ++ rest).head?, p.isOuter = false := by
  cases ns with
  | nil => simpa [partsAll] using hrest
  | cons n ns =>
    rw [List.all_cons, Bool.and_eq_true, Bool.not_eq_true'] at h
    rw [partsAll, List.append_assoc]
    exact parts_head h.1 _

theorem cut_openTag {tag : String} {attributes : List Attribute} (ht : isWord tag = true)
    (ha : attributes.all (isWord ·.name) = true) (slash : Bool) {ps : List Part} (hps : Cut ps) :
    Cut (.inner (openTag tag attributes ++ if slash then ['/', '>'] else ['>']) :: ps) := by
  obtain ⟨body, hb, hn⟩ := openTag_eq ht ha
  cases slash with
  | false =>
    rw [hb]
    exact .tag hn hps
  | true =>
    have hbody : '<' :: body ++ ['/', '>'] = '<' :: ((body ++ ['/']) ++ ['>']) := by simp
    rw [hb, if_pos rfl, hbody]
    exact .tag (by simp [hn]) hps

theorem cut_closeTag {tag : String} (ht : isWord tag = true) {ps : List Part} (hps : Cut ps) :
    Cut (.inner (closeTag tag) :: ps) := by
  have hn : '>' ∉ '/' :: tag.toList := by
    simp only [List.mem_cons, Char.reduceEq, false_or]
    exact fun hm => (word_safe ht hm).2.1 rfl
  exact .tag hn hps

theorem mem_reference {name : String} (h : isWord name = true) {c : Char} (hc : c ∈ '&' :: (name.toList ++ [';'])) :
    IsSafe c ∧ Text.isBlank c = false := by
  rw [List.mem_cons, List.mem_append, List.mem_singleton] at hc
  obtain rfl | hc | rfl := hc
  · decide
  · simp only [isWord, Bool.and_eq_true, List.all_eq_true] at h
    exact ⟨(isWordChar_safe (h.2 c hc)).1, isWordChar_not_blank (h.2 c hc)⟩
  · decide

mutual

theorem cut_parts : (n : Node) → n.isSound = true → n.isSeparated = true → {rest : List Part} → Cut rest →
    (n.isInline = true → ∀ p ∈ rest.head?, p.isOuter = false) → Cut (n.parts ++ rest)
  | text s, _, _, rest, hrest, hfirst => by
    rw [parts]
    split
    · exact hrest
    · rename_i hs
      -- A text that ran into the next one would be cut together with it.
      exact .text (escapeList_ne_nil hs) (fun hm => (escapeList_safe hm).1 rfl) (hfirst rfl) hrest
  | reference name, hs, _, rest, hrest, hfirst => by
    rw [isSound] at hs
    rw [parts]
    exact .text nofun (fun hm => (mem_reference hs hm).1.1 rfl) (hfirst rfl) hrest
  | element tag attributes children, hs, hp, rest, hrest, _ => by
    simp only [isSound, Bool.and_eq_true] at hs
    simp only [isSeparated, Bool.and_eq_true] at hp
    rw [parts, List.cons_append, List.append_assoc]
    have hinside := cut_partsAll children hs.2 hp.2 hp.1 (cut_closeTag hs.1.1 hrest) (by rintro p ⟨⟩; rfl)
    exact cut_openTag hs.1.1 hs.1.2 false hinside
  | empty slash tag attributes, hs, _, rest, hrest, _ => by
    simp only [isSound, Bool.and_eq_true] at hs
    rw [parts]
    exact cut_openTag hs.1 hs.2 slash hrest

/-- Markup in which no two texts run together is made of parts as its text is cut into them. -/
theorem cut_partsAll : (ns : List Node) → areSound ns = true → areSeparated ns = true →
    ns.tail.all (!·.isInline) = true → {rest : List Part} → Cut rest → (∀ p ∈ rest.head?, p.isOuter = false) →
    Cut (partsAll ns ++ rest)
  | [], _, _, _, rest, hrest, _ => by
    rw [partsAll]
    exact hrest
  | n :: ns, hs, hp, ht, rest, hrest, hfirst => by
    simp only [areSound, Bool.and_eq_true] at hs
    simp only [areSeparated, Bool.and_eq_true] at hp
    rw [List.tail_cons] at ht
    have htail : ns.tail.all (!·.isInline) = true := by
      rw [List.all_eq_true] at ht ⊢
      intro m hm
      exact ht m (List.mem_of_mem_tail hm)
    rw [partsAll, List.append_assoc]
    exact cut_parts n hs.1 hp.1 (cut_partsAll ns hs.2 hp.2 htail hrest hfirst) fun _ => partsAll_head ht hfirst

end

mutual

/-- The trees as which markup is read: its elements, and its texts that are not blank. -/
def trees : Node → List Tree
  | text s => if Text.isBlankText s then [] else [.text (escape s)]
  | reference name => [.text ("&" ++ name ++ ";")]
  | element tag attributes children => [.element tag (attributes.map Attribute.pair) (treesAll children)]
  | empty _ tag attributes => [.element tag (attributes.map Attribute.pair) []]

def treesAll : List Node → List Tree
  | [] => []
  | n :: rest => n.trees ++ treesAll rest

end

theorem filter_parts_text (s : String) : (text s).parts.filter Part.stays =
    if Text.isBlankText s then [] else [.outer (escapeList s.toList)] := by
  have hstays : (Part.outer (escapeList s.toList)).stays = !Text.isBlankText s := by
    rw [Part.stays, all_blank_escapeList, Text.isBlankText]
  rw [parts]
  split
  · rename_i hs
    rw [String.isEmpty_iff.1 hs]
    rfl
  · cases hs : Text.isBlankText s with
    | true => rw [List.filter_cons_of_neg (by rw [hstays, hs]; decide), List.filter_nil, if_pos rfl]
    | false => rw [List.filter_cons_of_pos (by rw [hstays, hs]; rfl), List.filter_nil, if_neg Bool.false_ne_true]

mutual

theorem build_parts : (n : Node) → n.isSound = true → n.isPlain = true → (opened : List Opened) →
    (done : List Tree) → (rest : List Part) →
    build opened done (n.parts.filter Part.stays ++ rest) = build opened (done ++ n.trees) rest
  | text s, _, _, opened, done, rest => by
    rw [filter_parts_text, trees]
    split
    · simp
    · rw [List.singleton_append, build, readPart_text]
  | reference name, _, hp, _, _, _ => by
    rw [isPlain] at hp
    cases hp
  | element tag attributes children, hs, hp, opened, done, rest => by
    simp only [isSound, Bool.and_eq_true] at hs
    simp only [isPlain, Bool.and_eq_true] at hp
    -- Inside the element more is open, and the tag that closes it stands behind its children.
    have hchildren := build_partsAll children hs.2 hp.2 (⟨tag, attributes.map Attribute.pair, done⟩ :: opened) []
      (.inner (closeTag tag) :: rest)
    rw [parts, List.filter_cons_of_pos rfl, List.filter_append, List.filter_cons_of_pos rfl, List.filter_nil,
      List.cons_append, List.append_assoc, List.singleton_append, build, readPart_opening hs.1.1 hs.1.2 hp.1.1]
    dsimp only
    rw [hchildren, build, readPart_closing hs.1.1]
    simp [trees]
  | empty slash tag attributes, hs, hp, opened, done, rest => by
    simp only [isSound, Bool.and_eq_true] at hs
    simp only [isPlain, Bool.and_eq_true] at hp
    obtain ⟨rfl, hv⟩ := hp
    rw [parts, if_pos rfl, List.filter_cons_of_pos rfl, List.filter_nil, List.singleton_append, build,
      readPart_single hs.1 hs.2 hv, trees]

theorem build_partsAll : (ns : List Node) → areSound ns = true → arePlain ns = true → (opened : List Opened) →
    (done : List Tree) → (rest : List Part) →
    build opened done ((partsAll ns).filter Part.stays ++ rest) = build opened (done ++ treesAll ns) rest
  | [], _, _, opened, done, rest => by
    rw [partsAll, treesAll, List.filter_nil, List.nil_append, List.append_nil]
  | n :: ns, hs, hp, opened, done, rest => by
    simp only [areSound, Bool.and_eq_true] at hs
    simp only [arePlain, Bool.and_eq_true] at hp
    rw [partsAll, treesAll, List.filter_append, List.append_assoc, build_parts n hs.1 hp.1,
      build_partsAll ns hs.2 hp.2, List.append_assoc]

end

/-- A text that begins with no tag stays unless it is blank. -/
theorem collapsePart_outer {c : Char} (h : IsSafe c) (cs : List Char) :
    collapsePart (.outer (c :: cs)) = if (Part.outer (c :: cs)).stays then c :: cs else [] := by
  have hcollapse : collapsePart (.outer (c :: cs)) = if (c :: cs).all Text.isBlank then [] else c :: cs := by
    unfold collapsePart
    split
    · rename_i heq
      cases heq
    · rename_i heq
      cases heq
      split
      · rename_i heq
        cases heq
        exact (h.1 rfl).elim
      · rfl
  rw [hcollapse, Part.stays]
  cases (c :: cs).all Text.isBlank with
  | true => rfl
  | false => rfl

theorem collapsePart_text (s : String) (h : ¬ s.isEmpty = true) :
    collapsePart (.outer (escapeList s.toList)) =
      if (Part.outer (escapeList s.toList)).stays then escapeList s.toList else [] := by
  obtain ⟨c, cs, hc⟩ := List.exists_cons_of_ne_nil (escapeList_ne_nil h)
  have hmem : c ∈ escapeList s.toList := by
    rw [hc]
    exact .head _
  rw [hc]
  exact collapsePart_outer (escapeList_safe hmem) cs

mutual

theorem collapsePart_parts : (n : Node) → n.isSound = true → ∀ p ∈ n.parts,
    collapsePart p = if p.stays then p.text else []
  | text s, _ => by
    rw [parts]
    split
    · exact nofun
    · rename_i hs
      rw [List.forall_mem_singleton, collapsePart_text s hs, Part.text]
  | reference name, _ => by
    rw [parts, List.forall_mem_singleton]
    exact collapsePart_outer (by decide) _
  | element tag attributes children, hs => by
    simp only [isSound, Bool.and_eq_true] at hs
    rw [parts, List.forall_mem_cons, List.forall_mem_append, List.forall_mem_singleton]
    refine ⟨?_, collapsePart_partsAll children hs.2, ?_⟩
    · exact collapseTag_openTag hs.1.1 hs.1.2 false
    · exact collapseTag_closeTag hs.1.1
  | empty slash tag attributes, hs => by
    simp only [isSound, Bool.and_eq_true] at hs
    rw [parts, List.forall_mem_singleton]
    exact collapseTag_openTag hs.1 hs.2 slash

/-- To collapse markup is to leave its blank texts out. -/
theorem collapsePart_partsAll : (ns : List Node) → areSound ns = true → ∀ p ∈ partsAll ns,
    collapsePart p = if p.stays then p.text else []
  | [], _ => by
    rw [partsAll]
    exact nofun
  | n :: ns, hs => by
    simp only [areSound, Bool.and_eq_true] at hs
    rw [partsAll, List.forall_mem_append]
    exact ⟨collapsePart_parts n hs.1, collapsePart_partsAll ns hs.2⟩

end

theorem flatMap_collapsePart {ps : List Part} (h : ∀ p ∈ ps, collapsePart p = if p.stays then p.text else []) :
    ps.flatMap collapsePart = (ps.filter Part.stays).flatMap Part.text := by
  induction ps with
  | nil => rfl
  | cons p ps ih =>
    rw [List.forall_mem_cons] at h
    rw [List.flatMap_cons, h.1, ih h.2]
    cases hs : p.stays with
    | true => rw [List.filter_cons_of_pos hs, List.flatMap_cons, if_pos rfl]
    | false =>
      rw [List.filter_cons_of_neg (by simp [hs]), if_neg (by decide)]
      rfl

end Node

theorem trimList_of_ends {first last : Char} (hf : Text.isBlank first = false) (hl : Text.isBlank last = false)
    (cs : List Char) : Text.trimList (first :: (cs ++ [last])) = first :: (cs ++ [last]) := by
  rw [Text.trimList, List.dropWhile_cons_of_neg (by simp [hf]), Text.dropTrailing]
  have hr : (first :: (cs ++ [last])).reverse = last :: (cs.reverse ++ [first]) := by simp
  rw [hr, List.dropWhile_cons_of_neg (by simp [hl]), ← hr, List.reverse_reverse]

namespace Node

/-- What is kept of markup when it is collapsed: all of it but for blank texts. -/
def kept (n : Node) : List Char := (n.parts.filter Part.stays).flatMap Part.text

def keptAll (ns : List Node) : List Char := ((partsAll ns).filter Part.stays).flatMap Part.text

theorem keptAll_cons (n : Node) (ns : List Node) : keptAll (n :: ns) = n.kept ++ keptAll ns := by
  rw [keptAll, partsAll, List.filter_append, List.flatMap_append, kept, keptAll]

theorem keptAll_append (ns ms : List Node) : keptAll (ns ++ ms) = keptAll ns ++ keptAll ms := by
  induction ns with
  | nil => rfl
  | cons n ns ih => rw [List.cons_append, keptAll_cons, keptAll_cons, ih, List.append_assoc]

theorem kept_element (tag : String) (attributes : List Attribute) (children : List Node) :
    (Node.element tag attributes children).kept =
      openTag tag attributes ++ '>' :: (keptAll children ++ closeTag tag) := by
  rw [kept, parts, List.filter_cons_of_pos rfl, List.filter_append, List.filter_cons_of_pos rfl, List.filter_nil,
    keptAll]
  simp [Part.text]

theorem kept_empty (tag : String) (attributes : List Attribute) :
    (Node.empty true tag attributes).kept = openTag tag attributes ++ ['/', '>'] := by
  rw [kept, parts, List.filter_cons_of_pos rfl]
  simp [Part.text]

theorem kept_text (s : String) : (Node.text s).kept = if Text.isBlankText s then [] else escapeList s.toList := by
  rw [kept, filter_parts_text]
  split
  · rfl
  · simp [Part.text]

end Node

section Element

variable {tag : String} {attributes : List Attribute} {children : List Node}

theorem Node.cut_element (hs : (Node.element tag attributes children).isSound = true)
    (hp : (Node.element tag attributes children).isSeparated = true) :
    Cut (Node.element tag attributes children).parts := by
  have h := Node.cut_parts _ hs hp .nil nofun
  rwa [List.append_nil] at h

/-- The markup of an element is collapsed to what is kept of it. -/
theorem collapse_element (hs : (Node.element tag attributes children).isSound = true)
    (hp : (Node.element tag attributes children).isSeparated = true) :
    (collapse (Node.element tag attributes children).render).toList = (Node.element tag attributes children).kept := by
  have hparts := (Node.cut_element hs hp).parts_eq
  rw [Node.flatMap_parts] at hparts
  rw [collapse, Node.render, String.toList_ofList, String.toList_ofList, collapseList, hparts,
    Node.flatMap_collapsePart (Node.collapsePart_parts _ hs), ← Node.kept]
  have hends : (Node.element tag attributes children).kept =
      '<' :: (tag.toList ++ attributes.flatMap Attribute.write ++
        '>' :: (Node.keptAll children ++ '<' :: '/' :: tag.toList) ++ ['>']) := by
    rw [Node.kept_element]
    simp [openTag, closeTag]
  rw [hends]
  exact trimList_of_ends (by decide) (by decide) _

/-- An element whose markup is collapsed is read as it was written, but for its blank texts. -/
theorem read_collapse (hs : (Node.element tag attributes children).isSound = true)
    (hp : (Node.element tag attributes children).isPlain = true) :
    read? (collapse (Node.element tag attributes children).render) =
      some [.element tag (attributes.map Attribute.pair) (Node.treesAll children)] := by
  have hseparated := Node.isSeparated_of_isPlain _ hp
  rw [read?, collapse_element hs hseparated, Node.kept, (Node.cut_element hs hseparated).filter.parts_eq]
  have hbuild := Node.build_parts (.element tag attributes children) hs hp [] [] []
  rw [List.append_nil] at hbuild
  rw [hbuild, Node.trees, build]
  rfl

end Element

end ConsentBanner.Markup
