import ConsentBanner.Proofs.Json.Fields
import ConsentBanner.Proofs.Markup.Banner
import ConsentBanner.Proofs.Markup.Reading

/-!
The markup of a template is read as one tree: the banner, around one element for each component, in document order.
-/

namespace ConsentBanner.Markup

namespace Tree

def children : Tree → List Tree
  | text _ => []
  | element _ _ children => children

def attribute? (name : String) : Tree → Option String
  | text _ => none
  | element _ attributes _ => Fields.get? name attributes

mutual

/-- The elements of a tree in document order. -/
def elements : Tree → List Tree
  | text _ => []
  | element tag attributes children => element tag attributes children :: elementsAll children

def elementsAll : List Tree → List Tree
  | [] => []
  | t :: rest => t.elements ++ elementsAll rest

end

mutual

/-- The texts of a tree in document order. -/
def texts : Tree → List String
  | text s => [s]
  | element _ _ children => textsAll children

def textsAll : List Tree → List String
  | [] => []
  | t :: rest => t.texts ++ textsAll rest

end

theorem elementsAll_append (ts us : List Tree) : elementsAll (ts ++ us) = elementsAll ts ++ elementsAll us := by
  induction ts with
  | nil => rfl
  | cons t ts ih => rw [List.cons_append, elementsAll, elementsAll, ih, List.append_assoc]

theorem textsAll_append (ts us : List Tree) : textsAll (ts ++ us) = textsAll ts ++ textsAll us := by
  induction ts with
  | nil => rfl
  | cons t ts ih => rw [List.cons_append, textsAll, textsAll, ih, List.append_assoc]

/-- The components of which elements tell, by their identifiers as they are written. -/
def components (ts : List Tree) : List String := (elementsAll ts).filterMap (attribute? "data-component-id")

theorem components_append (ts us : List Tree) : components (ts ++ us) = components ts ++ components us := by
  rw [components, elementsAll_append, List.filterMap_append]
  rfl

def isBanner (t : Tree) : Bool := t.attribute? "id" == some "cmp-banner"

end Tree

open Node

def written (attributes : List (String × String)) : List (String × String) :=
  attributes.map fun (name, v) => (name, escape v)

theorem get?_written (key : String) (attributes : List (String × String)) :
    Fields.get? key (written attributes) = (Fields.get? key attributes).map escape := by
  induction attributes with
  | nil => rfl
  | cons a attributes ih =>
    obtain ⟨name, v⟩ := a
    rw [written, List.map_cons]
    by_cases hk : name = key
    · subst hk
      rw [Fields.get?_cons_self, Fields.get?_cons_self]
      rfl
    · rw [Fields.get?_cons_of_ne hk, Fields.get?_cons_of_ne hk]
      exact ih

theorem trees_element (tag : String) (attributes : List (String × String)) (children : List Node) :
    (element tag attributes children).trees = [.element tag (written attributes) (treesAll children)] := by
  rw [element, trees, valued, List.map_map]
  rfl

theorem trees_empty (slash : Bool) (tag : String) (attributes : List (String × String)) :
    (Node.empty slash tag (valued attributes)).trees = [.element tag (written attributes) []] := by
  rw [trees, valued, List.map_map]
  rfl

theorem treesAll_append (ns ms : List Node) : treesAll (ns ++ ms) = treesAll ns ++ treesAll ms := by
  induction ns with
  | nil => rfl
  | cons n ns ih => rw [List.cons_append, treesAll, treesAll, ih, List.append_assoc]

/-- The text that is shown of a component, if its kind shows one. -/
def shownText? (language : String) (c : ComponentData) : Option String :=
  match c.kind with
  | .text | .checkbox | .toggle | .panel => some (c.text (some language))
  | .button | .link => some (label c (c.text (some language)))
  | .container | .logo | .image => none

/-- The texts that are shown of components, but for blank ones, as they are written. -/
def shownTexts (language : String) (cs : List ComponentData) : List String :=
  ((cs.filterMap (shownText? language)).filter (!Text.isBlankText ·)).map escape

theorem shownTexts_cons (language : String) (c : ComponentData) (cs : List ComponentData) :
    shownTexts language (c :: cs) = shownTexts language [c] ++ shownTexts language cs := by
  rw [shownTexts, shownTexts, shownTexts, ← List.map_append, ← List.filter_append, ← List.filterMap_append,
    List.singleton_append]

theorem shownTexts_append (language : String) (cs ds : List ComponentData) :
    shownTexts language (cs ++ ds) = shownTexts language cs ++ shownTexts language ds := by
  rw [shownTexts, List.filterMap_append, List.filter_append, List.map_append]
  rfl

theorem textsAll_text (s : String) :
    Tree.textsAll (Node.text s).trees = ([s].filter (!Text.isBlankText ·)).map escape := by
  rw [trees]
  cases hs : Text.isBlankText s with
  | true => simp [Tree.textsAll, hs]
  | false => simp [Tree.textsAll, Tree.texts, hs]

theorem elementsAll_text (s : String) : Tree.elementsAll (Node.text s).trees = [] := by
  rw [trees]
  split
  · rfl
  · rfl

theorem get?_inlineStyle {key : String} (h : "style" ≠ key) (declarations : List (String × String)) :
    Fields.get? key (inlineStyle declarations) = none := by
  rw [inlineStyle]
  split
  · rfl
  · rw [Fields.get?_cons_of_ne h]
    rfl

section Component

variable (language : String) (parent : Option ComponentData) (depth count : Nat) (c : ComponentData)
  (children : List Node)

theorem componentNodes_components :
    Tree.components (treesAll (componentNodes language parent depth count c children)) =
      escape c.id :: Tree.components (treesAll children) := by
  cases hk : c.kind
  all_goals
    simp [componentNodes, hk, Tree.components, treesAll, textNode, buttonNode, linkNode, checkboxNode, toggleNode,
      containerNode, panelNode, imageNode, inputNode, trees_element, trees_empty, Tree.elementsAll, Tree.elements,
      elementsAll_text, Tree.elementsAll_append, Tree.attribute?, get?_written, Fields.get?, get?_inlineStyle]

theorem componentNodes_texts :
    Tree.textsAll (treesAll (componentNodes language parent depth count c children)) =
      shownTexts language [c] ++ Tree.textsAll (treesAll children) := by
  cases hk : c.kind
  all_goals
    simp [componentNodes, hk, shownTexts, shownText?, treesAll, textNode, buttonNode, linkNode, checkboxNode,
      toggleNode, containerNode, panelNode, imageNode, inputNode, trees_element, trees_empty, Tree.textsAll, Tree.texts,
      textsAll_text, Tree.textsAll_append]

/-- The identifier of a text's element is that of a title or of a description. -/
theorem textNode_isBanner (text : String) :
    (Tree.element "div" (written ([("class", lockedClass c "cmp-text"), ("data-component-id", c.id)] ++
      if c.id == "cmp-title" || c.id == "cmp-description" then [("id", c.id)] else []))
      (treesAll (.text text :: children))).isBanner = false := by
  have htitle : (some (escape "cmp-title") == some "cmp-banner") = false := by decide
  have hdescription : (some (escape "cmp-description") == some "cmp-banner") = false := by decide
  rw [Tree.isBanner, Tree.attribute?, get?_written]
  split
  · rename_i hid
    rw [Bool.or_eq_true, beq_iff_eq, beq_iff_eq] at hid
    obtain hid | hid := hid
    · simpa [hid, Fields.get?] using htitle
    · simpa [hid, Fields.get?] using hdescription
  · simp [Fields.get?]

theorem componentNodes_banner :
    (Tree.elementsAll (treesAll (componentNodes language parent depth count c children))).filter Tree.isBanner =
      (Tree.elementsAll (treesAll children)).filter Tree.isBanner := by
  cases hk : c.kind
  case text =>
    have hbanner := textNode_isBanner c children (c.text (some language))
    simp only [componentNodes, hk, textNode, treesAll, trees_element, List.append_nil, Tree.elementsAll,
      Tree.elements, Tree.elementsAll_append, elementsAll_text, List.nil_append] at hbanner ⊢
    exact List.filter_cons_of_neg (ne_true_of_eq_false hbanner)
  all_goals
    simp [componentNodes, hk, treesAll, buttonNode, linkNode, checkboxNode, toggleNode, containerNode,
      panelNode, imageNode, inputNode, trees_element, trees_empty, Tree.elementsAll, Tree.elements, elementsAll_text,
      Tree.elementsAll_append, Tree.isBanner, Tree.attribute?, get?_written, Fields.get?, get?_inlineStyle]

end Component

mutual

theorem treeNodes_read (language : String) (parent : Option ComponentData) (depth : Nat) : (c : Component) →
    Tree.components (treesAll (treeNodes language parent depth c)) = c.everyData.map (escape ·.id) ∧
      Tree.textsAll (treesAll (treeNodes language parent depth c)) = shownTexts language c.everyData ∧
      (Tree.elementsAll (treesAll (treeNodes language parent depth c))).filter Tree.isBanner = []
  | .node data children => by
    obtain ⟨hcomponents, htexts, hbanner⟩ := forestNodes_read language (some data) (depth + 1) children
    rw [treeNodes, Component.everyData, List.map_cons, componentNodes_components, componentNodes_texts,
      componentNodes_banner, hcomponents, htexts, hbanner, ← shownTexts_cons]
    exact ⟨rfl, rfl, rfl⟩

/-- A forest has an element for each component and the texts of all of them, in document order, and no banner. -/
theorem forestNodes_read (language : String) (parent : Option ComponentData) (depth : Nat) : (cs : List Component) →
    Tree.components (treesAll (forestNodes language parent depth cs)) =
        (Component.everyDataIn cs).map (escape ·.id) ∧
      Tree.textsAll (treesAll (forestNodes language parent depth cs)) =
        shownTexts language (Component.everyDataIn cs) ∧
      (Tree.elementsAll (treesAll (forestNodes language parent depth cs))).filter Tree.isBanner = []
  | [] => by
    rw [forestNodes, Component.everyDataIn]
    exact ⟨rfl, rfl, rfl⟩
  | c :: rest => by
    obtain ⟨hcomponents, htexts, hbanner⟩ := treeNodes_read language parent depth c
    obtain ⟨hcomponents', htexts', hbanner'⟩ := forestNodes_read language parent depth rest
    rw [forestNodes, treesAll_append, Component.everyDataIn, List.map_append, Tree.components_append, hcomponents,
      hcomponents', Tree.textsAll_append, htexts, htexts', ← shownTexts_append, Tree.elementsAll_append,
      List.filter_append, hbanner, hbanner']
    exact ⟨rfl, rfl, rfl⟩

end

end ConsentBanner.Markup
