import ConsentBanner.Proofs.Asset.Picture
import ConsentBanner.Proofs.Markup.Document

/-!
The images in the markup of a template are those of its images and logos, in document order.
-/

namespace ConsentBanner

/-- Whether a component is shown as an image. -/
def ComponentData.isPicture (c : ComponentData) : Bool :=
  match c.kind with
  | .logo | .image => true
  | _ => false

namespace Markup

open Node Asset

/-- The address of the image of a component, or that of the image that stands in for a missing one. -/
def imageAddress (language : String) (c : ComponentData) : String :=
  Text.orDefault (some (c.text (some language))) "/images/placeholder.png"

section Escape

variable {word : List Char}

/-- The characters that are escaped. -/
def escapedChars : List Char := ['&', '<', '>', '\x27', '\x22']

/-- Whether a word goes on with no character that is escaped. -/
def isUnescaped (word : List Char) : Bool := word.all fun p => escapedChars.all fun c => !matchesLetter p c

theorem escapeChar_cases (c : Char) :
    (c ∈ escapedChars ∧ ∃ reference, escapeChar c = '&' :: reference) ∨ escapeChar c = [c] := by
  unfold escapeChar
  split
  · exact .inl ⟨by decide, _, rfl⟩
  · exact .inl ⟨by decide, _, rfl⟩
  · exact .inl ⟨by decide, _, rfl⟩
  · exact .inl ⟨by decide, _, rfl⟩
  · exact .inl ⟨by decide, _, rfl⟩
  · exact .inr rfl

/-- A word stands at the start of an escaped text exactly if it stands at the start of the text. -/
theorem afterIgnoringCase?_escapeList (h : isUnescaped word = true) (cs : List Char) :
    afterIgnoringCase? word (escapeList cs) = (afterIgnoringCase? word cs).map escapeList := by
  induction word generalizing cs with
  | nil => rfl
  | cons p word ih =>
    rw [isUnescaped, List.all_cons, Bool.and_eq_true] at h
    have hp : ∀ c ∈ escapedChars, matchesLetter p c = false := by simpa using h.1
    cases cs with
    | nil => rfl
    | cons c cs =>
      rw [escapeList, List.flatMap_cons, ← escapeList]
      obtain ⟨hc, reference, he⟩ | he := escapeChar_cases c
      · have hand : matchesLetter p '&' = false := hp '&' (by decide)
        rw [he, List.cons_append, afterIgnoringCase?, afterIgnoringCase?, hand, hp c hc]
        rfl
      · rw [he, List.singleton_append, afterIgnoringCase?, afterIgnoringCase?]
        split
        · exact ih h.2 cs
        · rfl

theorem isPrefixOf_escapeList (h : ∀ p ∈ word, p ∉ escapedChars) (cs : List Char) :
    word.isPrefixOf (escapeList cs) = word.isPrefixOf cs := by
  induction word generalizing cs with
  | nil => simp
  | cons p word ih =>
    rw [List.forall_mem_cons] at h
    cases cs with
    | nil => rfl
    | cons c cs =>
      rw [escapeList, List.flatMap_cons, ← escapeList, List.isPrefixOf_cons_cons]
      obtain ⟨hc, reference, he⟩ | he := escapeChar_cases c
      · have hp : (p == c) = false := beq_eq_false_iff_ne.2 fun hpc => h.1 (hpc ▸ hc)
        have hand : (p == '&') = false := beq_eq_false_iff_ne.2 fun hpc => h.1 (hpc ▸ .head _)
        rw [he, List.cons_append, List.isPrefixOf_cons_cons, hp, hand, Bool.false_and, Bool.false_and]
      · rw [he, List.singleton_append, List.isPrefixOf_cons_cons, ih h.2]

theorem isEmpty_escapeList (cs : List Char) : (escapeList cs).isEmpty = cs.isEmpty := by
  cases cs with
  | nil => rfl
  | cons c cs =>
    have hne : escapeList (c :: cs) ≠ [] := List.append_ne_nil_of_left_ne_nil (escapeChar_ne_nil c) _
    rw [List.isEmpty_eq_false_iff.2 hne]
    rfl

/-- Escaping an address does not change of which kind it is. -/
theorem isRooted_escapeList (cs : List Char) : isRooted (escapeList cs) = isRooted cs := by
  have hfolder : ∀ folder ∈ ["/templates", "/images", "/assets"], isUnescaped folder.toList = true := by decide
  rw [isRooted, isRooted, Bool.eq_iff_iff, List.any_eq_true, List.any_eq_true]
  refine exists_congr fun folder => and_congr_right fun hmem => ?_
  rw [afterIgnoringCase?_escapeList (hfolder folder hmem)]
  cases afterIgnoringCase? folder.toList cs with
  | none => rfl
  | some rest =>
    rw [Option.map_some]
    dsimp only
    rw [isEmpty_escapeList]

theorem isRelative_escapeList (cs : List Char) : isRelative (escapeList cs) = isRelative cs := by
  have hstart : ∀ start ∈ ["/", "http:", "https:", "data:"], isUnescaped start.toList = true := by decide
  rw [isRelative, isRelative, isEmpty_escapeList]
  congr 1
  rw [Bool.eq_iff_iff, List.all_eq_true, List.all_eq_true]
  refine forall₂_congr fun start hmem => ?_
  rw [afterIgnoringCase?_escapeList (hstart start hmem), Option.isNone_map]

theorem startsAbsolute_escapeList (cs : List Char) : startsAbsolute (escapeList cs) = startsAbsolute cs := by
  have hstart : ∀ start ∈ absoluteStarts, (start.all fun p => decide (p ∉ escapedChars)) = true := by decide
  rw [startsAbsolute, startsAbsolute, Bool.eq_iff_iff, List.any_eq_true, List.any_eq_true]
  refine exists_congr fun start => and_congr_right fun hmem => ?_
  rw [isPrefixOf_escapeList (Text.forall_mem_of_all (hstart start hmem))]

end Escape

/-- Markup that has given images and can stand before any other. -/
structure Lays {κ : Type} (R : κ → List Char → Prop) (ks : List κ) (text : List Char) : Prop where
  before : ∀ {js rest}, Pictures R js rest → Pictures R (ks ++ js) (text ++ rest)

namespace Lays

variable {κ : Type} {R : κ → List Char → Prop} {ks js : List κ} {text more : List Char}

theorem append (h : Lays R ks text) (h' : Lays R js more) : Lays R (ks ++ js) (text ++ more) := by
  constructor
  intro is rest hp
  rw [List.append_assoc, List.append_assoc]
  exact h.before (h'.before hp)

theorem of_not_mem (h : '<' ∉ text) : Lays R [] text := ⟨fun hp => hp.chars h⟩

theorem tag (himg : ∀ rest, begins "img".toList (text ++ rest) = false) (h : '<' ∉ text) : Lays R [] ('<' :: text) :=
  ⟨fun hp => .tag (himg _) (hp.chars h)⟩

end Lays

/-- The name of an element that is not an image. -/
structure IsOther (tag : String) : Prop where
  word : isWord tag = true
  begins : ∀ rest, Asset.begins "img".toList (tag.toList ++ rest) = false

section Node

variable {κ : Type} {R : κ → List Char → Prop} {ks : List κ} {tag : String} {attributes : List (String × String)}
  {children : List Node}

theorem attributes_closed (ha : (attributes.map (·.1)).all isWord = true) :
    '<' ∉ (valued attributes).flatMap Attribute.write := by
  intro hm
  rw [valued, List.flatMap_map, List.mem_flatMap] at hm
  obtain ⟨⟨name, v⟩, hmem, hm⟩ := hm
  have hname : isWord name = true := List.all_eq_true.1 ha name (List.mem_map_of_mem hmem)
  simp only [Attribute.write, List.mem_cons, List.mem_append, Char.reduceEq, false_or, List.not_mem_nil, or_false] at hm
  obtain hm | hm := hm
  · exact (word_safe hname hm).1 rfl
  · exact (escapeList_safe hm).1 rfl

theorem attributes_last (attributes : List (String × String)) :
    ((valued attributes).flatMap Attribute.write).getLast? = if attributes.isEmpty then none else some '\x22' := by
  induction attributes with
  | nil => rfl
  | cons a attributes ih =>
    have hwrite : (Attribute.valued a.1 a.2).write.getLast? = some '\x22' := by
      simp [Attribute.write, List.getLast?_cons, List.getLast?_append]
    rw [valued, List.map_cons, List.flatMap_cons, ← valued, List.getLast?_append, ih, hwrite]
    cases attributes with
    | nil => rfl
    | cons => rfl

theorem lays_openTag (ht : IsOther tag) (ha : (attributes.map (·.1)).all isWord = true) :
    Lays R [] (openTag tag (valued attributes)) := by
  refine .tag (fun rest => ?_) ?_
  · rw [List.append_assoc]
    exact ht.begins _
  · rw [List.mem_append, not_or]
    exact ⟨fun hm => (word_safe ht.word hm).1 rfl, attributes_closed ha⟩

theorem lays_closeTag (ht : isWord tag = true) : Lays R [] (closeTag tag) := by
  refine .tag (fun rest => rfl) ?_
  rw [List.mem_cons, List.mem_append, not_or, not_or]
  refine ⟨by decide, ?_, by decide⟩
  exact fun hm => (word_safe ht hm).1 rfl

theorem lays_text (s : String) : Lays R [] (Node.text s).kept := by
  refine .of_not_mem ?_
  rw [kept_text]
  split
  · exact List.not_mem_nil
  · exact fun hm => (escapeList_safe hm).1 rfl

theorem lays_nil : Lays R [] (keptAll []) := .of_not_mem List.not_mem_nil

theorem lays_cons {n : Node} {js : List κ} (hn : Lays R ks n.kept) (h : Lays R js (keptAll children)) :
    Lays R (ks ++ js) (keptAll (n :: children)) := by
  rw [keptAll_cons]
  exact hn.append h

theorem lays_element (ht : IsOther tag) (ha : (attributes.map (·.1)).all isWord = true)
    (h : Lays R ks (keptAll children)) : Lays R ks (element tag attributes children).kept := by
  have hend : Lays R [] ['>'] := .of_not_mem (by decide)
  have hall := (lays_openTag ht ha).append (hend.append (h.append (lays_closeTag ht.word)))
  rw [element, kept_element]
  simpa using hall

theorem lays_empty (ht : IsOther tag) (ha : (attributes.map (·.1)).all isWord = true) :
    Lays R [] (Node.empty true tag (valued attributes)).kept := by
  have hend : Lays R [] ['/', '>'] := .of_not_mem (by decide)
  rw [kept_empty]
  exact (lays_openTag ht ha).append hend

/-- An image alone inside an element with attributes. -/
theorem lays_image {k : κ} {src : String} {more : List (String × String)} (ht : IsOther tag) (hne : attributes ≠ [])
    (ha : (attributes.map (·.1)).all isWord = true) (hmore : (more.map (·.1)).all isWord = true)
    (hk : R k (escapeList src.toList ++ '\x22' :: (valued more).flatMap Attribute.write)) :
    Lays R [k] (element tag attributes [.empty true "img" (valued (("src", src) :: more))]).kept := by
  have hbody : IsBody (escapeList src.toList ++ '\x22' :: (valued more).flatMap Attribute.write) := by
    constructor
    · rw [List.mem_append, List.mem_cons, not_or, not_or]
      exact ⟨fun hm => (escapeList_safe hm).1 rfl, by decide, attributes_closed hmore⟩
    · rw [List.getLast?_append, List.getLast?_cons, attributes_last]
      cases more with
      | nil => rfl
      | cons => rfl
  have hlast := attributes_last attributes
  rw [List.isEmpty_eq_false_iff.2 hne, if_neg (by decide), List.getLast?_eq_some_iff] at hlast
  obtain ⟨front, hfront⟩ := hlast
  have hopen : openTag tag (valued attributes) = '<' :: (tag.toList ++ front) ++ ['\x22'] := by
    rw [openTag, hfront, List.cons_append, List.append_assoc]
  have hclosed : '<' ∉ tag.toList ++ front := by
    have hattributes := attributes_closed ha
    rw [hfront, List.mem_append, not_or] at hattributes
    rw [List.mem_append, not_or]
    exact ⟨fun hm => (word_safe ht.word hm).1 rfl, hattributes.1⟩
  have hbegin : Lays R [] ('<' :: (tag.toList ++ front)) := by
    refine .tag (fun rest => ?_) hclosed
    rw [List.append_assoc]
    exact ht.begins _
  constructor
  intro js rest hp
  have hall := hbegin.before (.image hbody hk ((lays_closeTag ht.word).before hp))
  rw [element, kept_element, hopen, keptAll_cons, kept_empty]
  have htext : '<' :: (tag.toList ++ front) ++ ['\x22'] ++ '>' :: (openTag "img" (valued (("src", src) :: more)) ++
      ['/', '>'] ++ keptAll [] ++ closeTag tag) ++ rest = '<' :: (tag.toList ++ front) ++ '\x22' :: '>' :: '<' ::
        (imageStart ++ (escapeList src.toList ++ '\x22' :: (valued more).flatMap Attribute.write ++
          '/' :: '>' :: (closeTag tag ++ rest))) := by
    have himg : openTag "img" (valued (("src", src) :: more)) = '<' :: (imageStart ++ (escapeList src.toList ++
        '\x22' :: (valued more).flatMap Attribute.write)) := by
      rw [openTag, valued, List.map_cons, List.flatMap_cons, ← valued, Attribute.write, imageStart]
      simp
    rw [himg, keptAll, partsAll]
    simp
  rw [htext]
  exact hall

end Node

/-- The body of the image of a component: its address, as it is escaped, up to a quotation mark. -/
def Pictured (language : String) (c : ComponentData) (body : List Char) : Prop :=
  ∃ more, body = escapeList (imageAddress language c).toList ++ '\x22' :: more

section Component

variable {language : String} {parent : Option ComponentData} {depth count : Nat} {c : ComponentData}
  {ks : List ComponentData} {children : List Node}

theorem isOther_div : IsOther "div" := ⟨by decide, fun _ => rfl⟩

theorem isOther_button : IsOther "button" := ⟨by decide, fun _ => rfl⟩

theorem isOther_a : IsOther "a" := ⟨by decide, fun _ => rfl⟩

theorem isOther_label : IsOther "label" := ⟨by decide, fun _ => rfl⟩

theorem isOther_p : IsOther "p" := ⟨by decide, fun _ => rfl⟩

theorem isOther_span : IsOther "span" := ⟨by decide, fun _ => rfl⟩

theorem isOther_input : IsOther "input" := ⟨by decide, fun _ => rfl⟩

theorem lays_imageNode : Lays (Pictured language) [c] (imageNode parent c (c.text (some language))).kept := by
  refine lays_image isOther_div (List.cons_ne_nil _ _) ?_ ?_ ⟨_, rfl⟩
  · simp only [List.map_append, List.all_append, inlineStyle_names, List.map_cons, List.map_nil]
    decide
  · simp only [List.append_eq, List.map_append, List.all_append, inlineStyle_names, List.map_cons, List.map_nil]
    decide

theorem lays_inputNode {κ : Type} {R : κ → List Char → Prop} : Lays R [] (inputNode c).kept := by
  refine lays_empty isOther_input ?_
  simp only [List.map_cons, List.map_nil]
  decide

/-- The images of a component are its own, if it is one, and those of its children. -/
theorem lays_componentNodes (h : Lays (Pictured language) ks (keptAll children)) :
    Lays (Pictured language) ([c].filter ComponentData.isPicture ++ ks)
      (keptAll (componentNodes language parent depth count c children)) := by
  have hone {n : Node} (hn : Lays (Pictured language) ks n.kept) : Lays (Pictured language) ks (keptAll [n]) := by
    simpa using lays_cons hn lays_nil
  have htext (s : String) {js : List ComponentData} {ns : List Node} (hns : Lays (Pictured language) js (keptAll ns)) :
      Lays (Pictured language) js (keptAll (.text s :: ns)) := lays_cons (lays_text s) hns
  have himage : Lays (Pictured language) (c :: ks)
      (keptAll (imageNode parent c (c.text (some language)) :: children)) := lays_cons lays_imageNode h
  cases hk : c.kind
  all_goals simp only [componentNodes, hk, ComponentData.isPicture, List.filter_cons, List.filter_nil]
  case logo => exact himage
  case image => exact himage
  -- Of the others each leaves that the names of its attributes are words.
  case' text =>
    refine hone (lays_element isOther_div ?_ (htext _ h))
    split
  case' button => refine hone (lays_element isOther_button ?_ (htext _ h))
  case' link => refine hone (lays_element isOther_a ?_ (htext _ h))
  case' checkbox =>
    refine hone (lays_element isOther_label ?_ (lays_cons lays_inputNode
      (lays_cons (lays_element isOther_span ?_ (htext _ lays_nil)) h)))
  case' toggle =>
    refine hone (lays_element isOther_label ?_ (lays_cons lays_inputNode
      (lays_cons (lays_element isOther_span ?_ lays_nil)
        (lays_cons (lays_element isOther_span ?_ (htext _ lays_nil)) h))))
  case' container => refine hone (lays_element isOther_div ?_ h)
  case' panel =>
    refine hone (lays_element isOther_div ?_ (lays_cons (lays_element isOther_div ?_ (htext _ lays_nil))
      (hone (lays_element isOther_div ?_ h))))
  all_goals
    simp only [List.map_append, List.map_cons, List.map_nil]
    decide

mutual

theorem lays_treeNodes (language : String) (parent : Option ComponentData) (depth : Nat) : (c : Component) →
    Lays (Pictured language) (c.everyData.filter ComponentData.isPicture) (keptAll (treeNodes language parent depth c))
  | .node data children => by
    have hchildren := lays_forestNodes language (some data) (depth + 1) children
    rw [treeNodes, Component.everyData, ← List.singleton_append, List.filter_append]
    exact lays_componentNodes hchildren

/-- The images of a forest are those of its images and logos, in document order. -/
theorem lays_forestNodes (language : String) (parent : Option ComponentData) (depth : Nat) : (cs : List Component) →
    Lays (Pictured language) ((Component.everyDataIn cs).filter ComponentData.isPicture)
      (keptAll (forestNodes language parent depth cs))
  | [] => by
    rw [forestNodes, Component.everyDataIn]
    exact lays_nil
  | c :: rest => by
    rw [forestNodes, Component.everyDataIn, List.filter_append, keptAll_append]
    exact (lays_treeNodes language parent depth c).append (lays_forestNodes language parent depth rest)

end

theorem lays_bannerNode {l : DeviceLayout} {entry : Option AnimationKind} {body : List Node}
    (h : Lays (Pictured language) ks (keptAll body)) : Lays (Pictured language) ks (bannerNode l entry body).kept := by
  have hbanner (modal : List (String × String)) (hmodal : (modal.map (·.1)).all isWord = true) :
      Lays (Pictured language) ks (element "div" ([
        ("id", "cmp-banner"), ("class", bannerClass l entry), ("data-position", Named.name l.position),
        ("role", "dialog")] ++ modal ++ [
        ("aria-labelledby", "cmp-title"), ("aria-describedby", "cmp-description"),
        ("data-width", widthPercent l.kind)] ++ floatingAttributes l) body).kept := by
    refine lays_element isOther_div ?_ h
    simp only [List.map_append, List.all_append, floatingAttributes_names, hmodal, List.map_cons, List.map_nil]
    decide
  rw [bannerNode]
  split
  · refine lays_element isOther_div (by simp only [List.map_cons, List.map_nil]; decide) ?_
    simpa using lays_cons (hbanner [("aria-modal", "true")] (by decide)) lays_nil
  · exact hbanner [] rfl

end Component

theorem pictures_ofTemplate (language : String) {t : Template} (hne : t.components ≠ []) :
    Pictures (Pictured language) ((Component.everyDataIn t.components).filter ComponentData.isPicture)
      (ofTemplate language t).toList := by
  have hlays : Lays (Pictured language) ((Component.everyDataIn t.components).filter ComponentData.isPicture)
      (bannerNode t.layout.desktop t.entryAnimation? (forestNodes language none 0 t.components)).kept :=
    lays_bannerNode (lays_forestNodes language none 0 t.components)
  have hpictures := hlays.before .nil
  rw [List.append_nil, List.append_nil] at hpictures
  rw [ofTemplate, if_neg (by rwa [List.isEmpty_iff]),
    collapse_bannerNode (forestNodes_sound _ _ _ _) (forestNodes_plain _ _ _ _)]
  exact hpictures

end Markup

end ConsentBanner
