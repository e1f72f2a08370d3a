import ConsentBanner.Proofs.Markup.Reading

/-!
Markup read as a row of tags and texts, as a page is read: the tag of an element without content needs no slash, and
attributes may stand without a value. Collapsed markup is read as the tags and texts that were written, without its
blank texts.
-/

namespace ConsentBanner.Markup

/-- A tag or a text. Texts and values are as they are written, references and all. -/
inductive Token where
  | text (s : String)
  | opening (tag : String) (attributes : List Attribute)
  | closing (tag : String)
deriving DecidableEq, Repr

/-- The attributes of a tag: after a space each, a name and, when it has one, a value in quotation marks. -/
def scanAttributes (cs : List Char) : Option (List Attribute) :=
  match cs with
  | [] => some []
  | ' ' :: rest =>
    let name := String.ofList (rest.takeWhile isWordChar)
    if isWord name then
      match _hn : rest.dropWhile isWordChar with
      | '=' :: '\x22' :: quoted =>
        match _hv : cutThrough? '\x22' quoted with
        | some (value, after) => (scanAttributes after).map (.valued name (String.ofList value.dropLast) :: ·)
        | none => none
      | after => (scanAttributes after).map (.flag name :: ·)
    else none
  | _ => none
termination_by cs.length
decreasing_by
  all_goals have hn := (List.dropWhile_suffix isWordChar (l := rest)).length_le
  all_goals rw [_hn] at hn
  · have hv := cutThrough?_length _hv
    simp only [List.length_cons] at hn ⊢
    omega
  · simp only [List.length_cons]
    omega

/-- A tag without the slash that it may end in, which says nothing. -/
def dropSlash (body : List Char) : List Char := if body.getLast? == some '/' then body.dropLast else body

/-- A name and the attributes after it. -/
def scanOpening (body : List Char) : Option Token :=
  let tag := String.ofList (body.takeWhile isWordChar)
  if isWord tag then (scanAttributes (body.dropWhile isWordChar)).map (.opening tag) else none

/-- What stands between the angle brackets of a tag. -/
def scanTag : List Char → Option Token
  | '/' :: tag => if isWord (String.ofList tag) then some (.closing (String.ofList tag)) else none
  | body => scanOpening (dropSlash body)

def scanPart : Part → Option Token
  | .inner ('<' :: rest) => scanTag rest.dropLast
  | .inner _ => none
  | .outer text => if text.any fun c => c == '<' || c == '>' then none else some (.text (String.ofList text))

/-- The tags and texts of a page, if all its tags can be read. -/
def tokens? (markup : String) : Option (List Token) := (parts tagClosing markup.toList).mapM scanPart

/-- An attribute with its value as it is written. -/
def Attribute.written : Attribute → Attribute
  | valued name v => valued name (escape v)
  | flag name => flag name

section Attributes

variable {name : String} {after : List Char}

theorem word_all {s : String} (h : isWord s = true) : ∀ c ∈ s.toList, isWordChar c = true := by
  simp only [isWord, Bool.and_eq_true, List.all_eq_true] at h
  exact h.2

theorem scanAttributes_valued {value : List Char} (h : isWord name = true) (hv : '\x22' ∉ value) :
    scanAttributes (' ' :: (name.toList ++ '=' :: '\x22' :: (value ++ '\x22' :: after))) =
      (scanAttributes after).map (.valued name (String.ofList value) :: ·) := by
  have hend : ∀ c ∈ ('=' :: '\x22' :: (value ++ '\x22' :: after)).head?, isWordChar c = false := by
    rintro c ⟨⟩
    decide
  have hdrop := Text.dropWhile_append_of_end (word_all h) hend
  rw [scanAttributes, Text.takeWhile_append_of_end (word_all h) hend, String.ofList_toList,
    if_pos h]
  split
  · rename_i quoted hq
    rw [hdrop] at hq
    cases hq
    split
    · rename_i cut rest hcut
      rw [cutThrough?_append hv] at hcut
      cases hcut
      rw [List.dropLast_concat]
    · rename_i hcut
      rw [cutThrough?_append hv] at hcut
      cases hcut
  · rename_i hq
    exact (hq _ hdrop).elim

theorem scanAttributes_flag (h : isWord name = true) (hafter : ∀ c ∈ after.head?, c = ' ') :
    scanAttributes (' ' :: (name.toList ++ after)) = (scanAttributes after).map (.flag name :: ·) := by
  have hend : ∀ c ∈ after.head?, isWordChar c = false := by
    intro c hc
    rw [hafter c hc]
    decide
  have hdrop := Text.dropWhile_append_of_end (word_all h) hend
  rw [scanAttributes, Text.takeWhile_append_of_end (word_all h) hend, String.ofList_toList,
    if_pos h]
  split
  · rename_i quoted hq
    rw [hdrop] at hq
    cases hafter '=' (by rw [hq]; rfl)
  · rw [hdrop]

theorem scanAttributes_write {attributes : List Attribute} (h : attributes.all (isWord ·.name) = true) :
    scanAttributes (attributes.flatMap Attribute.write) = some (attributes.map Attribute.written) := by
  induction attributes with
  | nil =>
    rw [List.flatMap_nil, scanAttributes]
    rfl
  | cons a attributes ih =>
    rw [List.all_cons, Bool.and_eq_true] at h
    cases a with
    | flag name =>
      have hscan : scanAttributes (' ' :: (name.toList ++ attributes.flatMap Attribute.write)) = _ :=
        scanAttributes_flag h.1 attributes_head
      rw [ih h.2] at hscan
      exact hscan
    | valued name v =>
      have hname : isWord name = true := h.1
      have hv : '\x22' ∉ escapeList v.toList := fun hm => (escapeList_safe hm).2.2.1 rfl
      rw [flatMap_write_valued, scanAttributes_valued hname hv, ih h.2]
      rfl

end Attributes

section Tag

variable {tag : String} {attributes : List Attribute}

theorem dropSlash_of_firm {cs : List Char} (h : Firm cs) (slash : Bool) :
    dropSlash (cs ++ if slash then ['/'] else []) = cs := by
  cases slash with
  | true =>
    rw [if_pos rfl, dropSlash, List.getLast?_concat, if_pos (by rfl), List.dropLast_concat]
  | false =>
    obtain ⟨body, c, rfl, -, hc⟩ := h
    rw [if_neg nofun, List.append_nil, dropSlash, List.getLast?_concat, if_neg (by simpa using hc)]

theorem firm_inside (ht : isWord tag = true) (ha : attributes.all (isWord ·.name) = true) :
    Firm (tag.toList ++ attributes.flatMap Attribute.write) := by
  obtain ⟨body, c, hopen, hc⟩ := Firm.openTag ht ha
  rw [openTag] at hopen
  cases body with
  | nil =>
    obtain ⟨d, cs, hd, -⟩ := word_head ht
    rw [hd] at hopen
    cases hopen
  | cons first body =>
    rw [List.cons_append, List.cons.injEq] at hopen
    exact ⟨body, c, hopen.2, hc⟩

theorem scanOpening_write (ht : isWord tag = true) (ha : attributes.all (isWord ·.name) = true) :
    scanOpening (tag.toList ++ attributes.flatMap Attribute.write) =
      some (.opening tag (attributes.map Attribute.written)) := by
  have hend : ∀ c ∈ (attributes.flatMap Attribute.write).head?, isWordChar c = false := by
    intro c hc
    rw [attributes_head c hc]
    decide
  rw [scanOpening, Text.takeWhile_append_of_end (word_all ht) hend, Text.dropWhile_append_of_end (word_all ht) hend,
    String.ofList_toList, if_pos ht, scanAttributes_write ha]
  rfl

theorem scanTag_of_word (ht : isWord tag = true) (rest : List Char) :
    scanTag (tag.toList ++ rest) = scanOpening (dropSlash (tag.toList ++ rest)) := by
  obtain ⟨c, cs, hc, hw⟩ := word_head ht
  rw [hc, List.cons_append]
  unfold scanTag
  split
  · rename_i heq
    cases heq
    cases hw
  · rfl

theorem scanPart_openTag (ht : isWord tag = true) (ha : attributes.all (isWord ·.name) = true) (slash : Bool) :
    scanPart (.inner (openTag tag attributes ++ if slash then ['/', '>'] else ['>'])) =
      some (.opening tag (attributes.map Attribute.written)) := by
  have htag : openTag tag attributes ++ (if slash then ['/', '>'] else ['>']) =
      '<' :: ((tag.toList ++ attributes.flatMap Attribute.write ++ if slash then ['/'] else []) ++ ['>']) := by
    cases slash <;> simp [openTag]
  rw [htag, scanPart, List.dropLast_concat, List.append_assoc, scanTag_of_word ht, ← List.append_assoc,
    dropSlash_of_firm (firm_inside ht ha), scanOpening_write ht ha]

theorem scanPart_closeTag (ht : isWord tag = true) : scanPart (.inner (closeTag tag)) = some (.closing tag) := by
  have hclose : closeTag tag = '<' :: (('/' :: tag.toList) ++ ['>']) := rfl
  rw [hclose, scanPart, List.dropLast_concat, scanTag, String.ofList_toList, if_pos ht]

end Tag

theorem scanPart_outer {text : List Char} (h : ∀ c ∈ text, IsSafe c) :
    scanPart (.outer text) = some (.text (String.ofList text)) := by
  have hsafe : ¬ (text.any fun c => c == '<' || c == '>') = true := by
    rw [Bool.not_eq_true, List.any_eq_false]
    intro c hc
    simp [(h c hc).1, (h c hc).2.1]
  rw [scanPart, if_neg hsafe]

namespace Node

mutual

/-- The tags and texts of markup, but for blank texts. -/
def tokens : Node → List Token
  | text s => if Text.isBlankText s then [] else [.text (escape s)]
  | reference name => [.text ("&" ++ name ++ ";")]
  | element tag attributes children =>
    .opening tag (attributes.map Attribute.written) :: (tokensAll children ++ [.closing tag])
  | empty _ tag attributes => [.opening tag (attributes.map Attribute.written)]

def tokensAll : List Node → List Token
  | [] => []
  | n :: rest => n.tokens ++ tokensAll rest

end

mutual

theorem scan_parts : (n : Node) → n.isSound = true →
    (n.parts.filter Part.stays).map scanPart = n.tokens.map some
  | text s, _ => by
    rw [filter_parts_text, tokens]
    split
    · rfl
    · rw [List.map_singleton, scanPart_outer fun c hc => escapeList_safe hc]
      rfl
  | reference name, hs => by
    rw [isSound] at hs
    have hstays : (Part.outer ('&' :: (name.toList ++ [';']))).stays = true := rfl
    have hname : String.ofList ('&' :: (name.toList ++ [';'])) = "&" ++ name ++ ";" := by
      rw [← String.toList_inj]
      simp
    rw [parts, List.filter_cons_of_pos hstays, List.filter_nil, List.map_singleton,
      scanPart_outer fun c hc => (mem_reference hs hc).1, hname, tokens]
    rfl
  | element tag attributes children, hs => by
    simp only [isSound, Bool.and_eq_true] at hs
    have hchildren := scan_partsAll children hs.2
    have hopen := scanPart_openTag hs.1.1 hs.1.2 false
    rw [if_neg nofun] at hopen
    rw [parts, List.filter_cons_of_pos rfl, List.filter_append, List.filter_cons_of_pos rfl, List.filter_nil,
      List.map_cons, List.map_append, List.map_singleton, hopen, hchildren, scanPart_closeTag hs.1.1, tokens,
      List.map_cons, List.map_append, List.map_singleton]
  | empty slash tag attributes, hs => by
    simp only [isSound, Bool.and_eq_true] at hs
    rw [parts, List.filter_cons_of_pos rfl, List.filter_nil, List.map_singleton, scanPart_openTag hs.1 hs.2, tokens,
      List.map_singleton]

theorem scan_partsAll : (ns : List Node) → areSound ns = true →
    ((partsAll ns).filter Part.stays).map scanPart = (tokensAll ns).map some
  | [], _ => by rw [partsAll, tokensAll, List.filter_nil, List.map_nil, List.map_nil]
  | n :: ns, hs => by
    simp only [areSound, Bool.and_eq_true] at hs
    rw [partsAll, tokensAll, List.filter_append, List.map_append, List.map_append, scan_parts n hs.1,
      scan_partsAll ns hs.2]

end

end Node

theorem mapM_of_map_eq {α β : Type} {f : α → Option β} {as : List α} {bs : List β} (h : as.map f = bs.map some) :
    as.mapM f = some bs := by
  induction as generalizing bs with
  | nil =>
    cases bs with
    | nil => rfl
    | cons b bs => cases h
  | cons a as ih =>
    cases bs with
    | nil => cases h
    | cons b bs =>
      rw [List.map_cons, List.map_cons, List.cons.injEq] at h
      rw [List.mapM_cons, h.1, ih h.2]
      rfl

theorem tokens?_collapse {tag : String} {attributes : List Attribute} {children : List Node}
    (hs : (Node.element tag attributes children).isSound = true)
    (hp : (Node.element tag attributes children).isSeparated = true) :
    tokens? (collapse (Node.element tag attributes children).render) =
      some (Node.element tag attributes children).tokens := by
  rw [tokens?, collapse_element hs hp, Node.kept, (Node.cut_element hs hp).filter.parts_eq]
  exact mapM_of_map_eq (Node.scan_parts _ hs)

namespace Attribute

/-- Whether an attribute says how an element looks or is called, and not what it does. -/
@[simp] def isCosmetic (name : String) : Bool := name == "style" || name == "aria-label"

/-- An attribute, without its value where that is cosmetic. -/
@[simp] def outline : Attribute → Attribute
  | valued name v => valued name (if isCosmetic name then "" else v)
  | flag name => flag name

@[simp] def label? : Attribute → Option String
  | valued name v => if name = "aria-label" then some v else none
  | flag _ => none

end Attribute

namespace Token

def outline? : Token → Option Token
  | text _ => none
  | opening tag attributes => some (.opening tag (attributes.map Attribute.outline))
  | closing tag => some (.closing tag)

def labels : Token → List String
  | opening _ attributes => attributes.filterMap Attribute.label?
  | _ => []

/-- The tags of a page in order, with the names of their attributes and all values but the cosmetic ones. -/
def outline (ts : List Token) : List Token := ts.filterMap outline?

/-- What the texts of a page stand for, each with the number of tags before it. -/
def placed : List Token → List (Nat × String)
  | [] => []
  | text s :: rest => (0, unescape s) :: placed rest
  | opening _ _ :: rest | closing _ :: rest => (placed rest).map (Prod.map (· + 1) id)

/-- What the labels of a page stand for that are read out in place of its texts. -/
def spoken (ts : List Token) : List String := (ts.flatMap labels).map unescape

end Token

theorem Attribute.outline_written (a : Attribute) : a.written.outline = a.outline.written := by
  cases a with
  | flag name => rfl
  | valued name v =>
    rw [written, outline, outline, written]
    split
    · rfl
    · rfl

theorem Attribute.label?_written (a : Attribute) : a.written.label?.map unescape = a.label? := by
  cases a with
  | flag name => rfl
  | valued name v =>
    rw [written, label?, label?]
    split
    · rw [Option.map_some, unescape_escape]
    · rfl

namespace Token

variable (ts us : List Token)

theorem outline_append : outline (ts ++ us) = outline ts ++ outline us := List.filterMap_append

theorem placed_append :
    placed (ts ++ us) = placed ts ++ (placed us).map (Prod.map (· + (outline ts).length) id) := by
  have hshift (vs : List (Nat × String)) (n : Nat) :
      (vs.map (Prod.map (· + n) id)).map (Prod.map (· + 1) id) = vs.map (Prod.map (· + (n + 1)) id) := by
    rw [List.map_map]
    rfl
  induction ts with
  | nil => exact (List.map_id' (placed us)).symm
  | cons t ts ih =>
    cases t with
    | text s => exact congrArg ((0, unescape s) :: ·) ih
    | opening tag attributes =>
      rw [List.cons_append, placed, ih, List.map_append, hshift]
      rfl
    | closing tag =>
      rw [List.cons_append, placed, ih, List.map_append, hshift]
      rfl

theorem spoken_append : spoken (ts ++ us) = spoken ts ++ spoken us := by
  rw [spoken, List.flatMap_append, List.map_append]
  rfl

theorem outline_opening (tag : String) (attributes : List Attribute) :
    outline [.opening tag (attributes.map Attribute.written)] =
      [.opening tag ((attributes.map Attribute.outline).map Attribute.written)] := by
  change [Token.opening tag _] = _
  rw [List.map_map, List.map_map, List.map_congr_left fun a _ => a.outline_written]
  rfl

theorem spoken_opening (tag : String) (attributes : List Attribute) :
    spoken [.opening tag (attributes.map Attribute.written)] = attributes.filterMap Attribute.label? := by
  rw [spoken, List.flatMap_singleton, labels, List.filterMap_map, List.map_filterMap]
  exact congrArg (List.filterMap · attributes) (funext Attribute.label?_written)

end Token

/-- Texts at their places, without the blank ones. -/
def shownAt (places : List Nat) (texts : List String) : List (Nat × String) :=
  (places.zip texts).filter fun x => !Text.isBlankText x.2

theorem shownAt_append {places places' : List Nat} {texts texts' : List String} (h : places.length = texts.length) :
    shownAt (places ++ places') (texts ++ texts') = shownAt places texts ++ shownAt places' texts' := by
  rw [shownAt, List.zip_append h, List.filter_append]
  rfl

theorem shownAt_shift (places : List Nat) (texts : List String) (n : Nat) :
    shownAt (places.map (· + n)) texts = (shownAt places texts).map (Prod.map (· + n) id) := by
  rw [shownAt, List.zip_map_left, List.filter_map]
  rfl

theorem shownAt_of_shown {places : List Nat} {texts : List String} (h : ∀ s ∈ texts, Text.isBlankText s = false) :
    shownAt places texts = places.zip texts := by
  rw [shownAt, List.filter_eq_self]
  intro x hx
  rw [h x.2 (List.of_mem_zip hx).2]
  rfl

/-- Markup that depends on some data only by its texts, each of which has its place between the tags, by its labels
and by its style. -/
structure IsForm {α : Type} (ts : α → List Token) (texts labels : α → List String) : Prop where
  outline : ∀ a b, Token.outline (ts a) = Token.outline (ts b)
  placed : ∃ places : List Nat, ∀ a, places.length = (texts a).length ∧ Token.placed (ts a) = shownAt places (texts a)
  spoken : ∀ a, Token.spoken (ts a) = labels a

namespace IsForm

open Node

variable {α : Type} {ts ts' : α → List Token} {texts texts' labels labels' : α → List String}

theorem cast (h : IsForm ts texts labels) (ht : ∀ a, texts a = texts' a) (hl : ∀ a, labels a = labels' a) :
    IsForm ts texts' labels' := by
  rwa [funext ht, funext hl] at h

theorem nil : IsForm (fun _ : α => tokensAll []) (fun _ => []) (fun _ => []) := by
  simp only [tokensAll]
  exact ⟨fun _ _ => rfl, ⟨[], fun _ => ⟨rfl, rfl⟩⟩, fun _ => rfl⟩

theorem append (h : IsForm ts texts labels) (h' : IsForm ts' texts' labels') :
    IsForm (fun a => ts a ++ ts' a) (fun a => texts a ++ texts' a) (fun a => labels a ++ labels' a) where
  outline a b := by rw [Token.outline_append, Token.outline_append, h.outline a b, h'.outline a b]
  placed := by
    obtain ⟨places, hplaces⟩ := h.placed
    obtain ⟨places', hplaces'⟩ := h'.placed
    -- The number of tags before the second part is the same whatever the data are.
    by_cases hα : Nonempty α
    · obtain ⟨b⟩ := hα
      refine ⟨places ++ places'.map (· + (Token.outline (ts b)).length), fun a => ⟨?_, ?_⟩⟩
      · rw [List.length_append, List.length_map, List.length_append, (hplaces a).1, (hplaces' a).1]
      · rw [Token.placed_append, shownAt_append (hplaces a).1, shownAt_shift, (hplaces a).2, (hplaces' a).2,
          h.outline a b]
    · exact ⟨[], fun a => (hα ⟨a⟩).elim⟩
  spoken a := by rw [Token.spoken_append, h.spoken, h'.spoken]

theorem opening (tag : String) {attributes : α → List Attribute}
    (h : ∀ a b, (attributes a).map Attribute.outline = (attributes b).map Attribute.outline) :
    IsForm (fun a => [.opening tag ((attributes a).map Attribute.written)]) (fun _ => [])
      (fun a => (attributes a).filterMap Attribute.label?) where
  outline a b := by rw [Token.outline_opening, Token.outline_opening, h a b]
  placed := ⟨[], fun _ => ⟨rfl, rfl⟩⟩
  spoken a := Token.spoken_opening tag (attributes a)

theorem closing (tag : String) : IsForm (fun _ : α => [.closing tag]) (fun _ => []) (fun _ => []) :=
  ⟨fun _ _ => rfl, ⟨[], fun _ => ⟨rfl, rfl⟩⟩, fun _ => rfl⟩

theorem text (s : α → String) : IsForm (fun a => (Node.text (s a)).tokens) (fun a => [s a]) (fun _ => []) := by
  have houtline (s : String) : Token.outline (Node.text s).tokens = [] := by
    rw [tokens]
    split
    · rfl
    · rfl
  refine ⟨fun a b => (houtline (s a)).trans (houtline (s b)).symm, ⟨[0], fun a => ⟨rfl, ?_⟩⟩, fun a => ?_⟩
  · rw [tokens, shownAt]
    cases hs : Text.isBlankText (s a) with
    | true => simp [Token.placed, hs]
    | false => simp [Token.placed, hs, unescape_escape]
  · rw [tokens]
    split
    · rfl
    · rfl

theorem reference (name : String) {s : String} (h : unescape ("&" ++ name ++ ";") = s)
    (hs : Text.isBlankText s = false) :
    IsForm (fun _ : α => (Node.reference name).tokens) (fun _ => [s]) (fun _ => []) where
  outline _ _ := rfl
  placed := by
    refine ⟨[0], fun _ => ⟨rfl, ?_⟩⟩
    rw [tokens, shownAt, List.zip_cons_cons, List.filter_cons_of_pos (by simp [hs]), ← h]
    rfl
  spoken _ := by
    rw [tokens]
    rfl

theorem cons {n : α → Node} {ns : α → List Node} (h : IsForm (fun a => (n a).tokens) texts labels)
    (hs : IsForm (fun a => tokensAll (ns a)) texts' labels') :
    IsForm (fun a => tokensAll (n a :: ns a)) (fun a => texts a ++ texts' a) (fun a => labels a ++ labels' a) := by
  simp only [tokensAll]
  exact h.append hs

theorem single {n : α → Node} (h : IsForm (fun a => (n a).tokens) texts labels) :
    IsForm (fun a => tokensAll [n a]) texts labels :=
  (cons h nil).cast (fun _ => List.append_nil _) fun _ => List.append_nil _

theorem empty {slash : Bool} {tag : String} {attributes : α → List Attribute}
    (h : ∀ a b, (attributes a).map Attribute.outline = (attributes b).map Attribute.outline) :
    IsForm (fun a => (Node.empty slash tag (attributes a)).tokens) (fun _ => [])
      (fun a => (attributes a).filterMap Attribute.label?) := by
  simp only [tokens]
  exact opening tag h

theorem element {tag : String} {attributes : α → List (String × String)} {children : α → List Node}
    (h : ∀ a b, (valued (attributes a)).map Attribute.outline = (valued (attributes b)).map Attribute.outline)
    (hc : IsForm (fun a => tokensAll (children a)) texts labels) :
    IsForm (fun a => (element tag (attributes a) (children a)).tokens) texts
      (fun a => (valued (attributes a)).filterMap Attribute.label? ++ labels a) := by
  simp only [Markup.element, tokens]
  have hall := (opening tag h).append (hc.append (closing tag))
  exact hall.cast (fun _ => by rw [List.append_nil, List.nil_append]) fun _ => by rw [List.append_nil]

theorem map {β : Type} {f : β → α → Node} {texts labels : β → α → List String}
    (h : ∀ b, IsForm (fun a => (f b a).tokens) (texts b) (labels b)) (bs : List β) :
    IsForm (fun a => tokensAll (bs.map (f · a))) (fun a => bs.flatMap (texts · a))
      (fun a => bs.flatMap (labels · a)) := by
  induction bs with
  | nil => exact nil
  | cons b bs ih =>
    simp only [List.map_cons, List.flatMap_cons]
    exact cons (h b) ih

end IsForm

end ConsentBanner.Markup
