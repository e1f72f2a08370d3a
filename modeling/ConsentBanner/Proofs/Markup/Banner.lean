import ConsentBanner.Markup.Banner
import ConsentBanner.Markup.Component
import ConsentBanner.Proofs.Asset.Reference
import ConsentBanner.Proofs.Markup.Collapse
import ConsentBanner.Proofs.Markup.Node
import ConsentBanner.Proofs.Template.Read

/-!
The markup of components has names that are words, and its buttons and links carry their actions. The controls of a
banner: an element with the attribute of an action is written with that attribute, and it stays in the finished markup.
-/

namespace ConsentBanner.Markup

open Node

/-- The attribute by which a control asks for an action. -/
def actionAttribute (a : ActionKind) : Attribute := .valued "data-cmp-action" (Named.name a)

theorem names_valued (attributes : List (String × String)) :
    (valued attributes).all (isWord ·.name) = (attributes.map (·.1)).all isWord := by
  rw [valued, List.all_map, List.all_map]
  rfl

theorem isSound_element {tag : String} {attributes : List (String × String)} {children : List Node} :
    (element tag attributes children).isSound =
      (isWord tag && (attributes.map (·.1)).all isWord && areSound children) := by
  rw [element, isSound, names_valued]

theorem isSound_empty {slash : Bool} {tag : String} {attributes : List (String × String)} :
    (Node.empty slash tag (valued attributes)).isSound = (isWord tag && (attributes.map (·.1)).all isWord) := by
  rw [isSound, names_valued]

theorem isSound_text (s : String) : (Node.text s).isSound = true := by rw [isSound]

theorem areSound_map {α : Type} {f : α → Node} (h : ∀ a, (f a).isSound = true) (as : List α) :
    areSound (as.map f) = true := by
  induction as with
  | nil => rfl
  | cons a as ih =>
    rw [List.map_cons, areSound, h, ih]
    rfl

section Sound

variable {c : ComponentData} {text : String} {children : List Node}

theorem textNode_sound (h : areSound children = true) : (textNode c text children).isSound = true := by
  simp only [textNode, isSound_element, areSound, isSound, h]
  split <;> (simp only [List.map_append, List.map_cons, List.map_nil]; decide)

theorem buttonNode_sound (h : areSound children = true) : (buttonNode c text children).isSound = true := by
  simp only [buttonNode, isSound_element, areSound, isSound_text, h, List.map_cons, List.map_nil]
  decide

theorem linkNode_sound (h : areSound children = true) : (linkNode c text children).isSound = true := by
  simp only [linkNode, isSound_element, areSound, isSound_text, h, List.map_cons, List.map_nil]
  decide

theorem checkboxNode_sound (h : areSound children = true) : (checkboxNode c text children).isSound = true := by
  simp only [checkboxNode, inputNode, isSound_element, isSound_empty, areSound, isSound_text, h, List.map_cons,
    List.map_nil]
  decide

theorem toggleNode_sound (h : areSound children = true) : (toggleNode c text children).isSound = true := by
  simp only [toggleNode, inputNode, isSound_element, isSound_empty, areSound, isSound_text, h, List.map_cons,
    List.map_nil]
  decide

theorem containerNode_sound (depth count : Nat) (h : areSound children = true) :
    (containerNode c depth count children).isSound = true := by
  simp only [containerNode, isSound_element, h, List.map_cons, List.map_nil]
  decide

theorem panelNode_sound (h : areSound children = true) : (panelNode c text children).isSound = true := by
  simp only [panelNode, isSound_element, areSound, isSound_text, h, List.map_cons, List.map_nil]
  decide

theorem inlineStyle_names (declarations : List (String × String)) :
    ((inlineStyle declarations).map (·.1)).all isWord = true := by
  rw [inlineStyle]
  split
  · rfl
  · simp only [List.map_cons, List.map_nil]
    decide

theorem imageNode_sound (parent : Option ComponentData) : (imageNode parent c text).isSound = true := by
  simp only [imageNode, isSound_element, isSound_empty, areSound, List.map_append, List.all_append,
    inlineStyle_names, List.map_cons, List.map_nil]
  decide

end Sound

theorem componentNodes_sound (language : String) (parent : Option ComponentData) (depth count : Nat)
    (c : ComponentData) {children : List Node} (h : areSound children = true) :
    areSound (componentNodes language parent depth count c children) = true := by
  have hone : ∀ n : Node, n.isSound = true → areSound [n] = true := by
    intro n hn
    rw [areSound, hn, areSound]
    rfl
  have himage : areSound (imageNode parent c (c.text (some language)) :: children) = true := by
    rw [areSound, imageNode_sound, h]
    rfl
  cases hk : c.kind
  all_goals simp only [componentNodes, hk]
  case text => exact hone _ (textNode_sound h)
  case button => exact hone _ (buttonNode_sound h)
  case link => exact hone _ (linkNode_sound h)
  case logo => exact himage
  case checkbox => exact hone _ (checkboxNode_sound h)
  case toggle => exact hone _ (toggleNode_sound h)
  case container => exact hone _ (containerNode_sound depth count h)
  case panel => exact hone _ (panelNode_sound h)
  case image => exact himage

mutual

theorem treeNodes_sound (language : String) (parent : Option ComponentData) (depth : Nat) :
    (c : Component) → areSound (treeNodes language parent depth c) = true
  | .node data children => by
    rw [treeNodes]
    exact componentNodes_sound _ _ _ _ _ (forestNodes_sound language (some data) (depth + 1) children)

theorem forestNodes_sound (language : String) (parent : Option ComponentData) (depth : Nat) :
    (cs : List Component) → areSound (forestNodes language parent depth cs) = true
  | [] => rfl
  | c :: rest => by
    rw [forestNodes, areSound_append, treeNodes_sound, forestNodes_sound]
    rfl

end

theorem mem_componentNodes (language : String) (parent : Option ComponentData) (depth count : Nat)
    (c : ComponentData) {children : List Node} {e : String × List Attribute} (h : e ∈ elementsAll children) :
    e ∈ elementsAll (componentNodes language parent depth count c children) := by
  cases hk : c.kind
  all_goals
    simp only [componentNodes, hk, textNode, buttonNode, linkNode, checkboxNode, toggleNode, containerNode,
      panelNode, element, elementsAll, elements, List.mem_append, List.mem_cons, h, or_true, true_or]

theorem control_mem_componentNodes (language : String) (parent : Option ComponentData) (depth count : Nat)
    {a : ActionKind} {c : ComponentData} (children : List Node) (h : Component.IsControl a c) :
    ∃ e ∈ elementsAll (componentNodes language parent depth count c children), actionAttribute a ∈ e.2 := by
  obtain ⟨hk | hk, rfl⟩ := h
  · refine ⟨_, by simp only [componentNodes, hk, elementsAll, buttonNode, element, elements]; exact .head _, ?_⟩
    simp [valued, actionAttribute]
  · refine ⟨_, by simp only [componentNodes, hk, elementsAll, linkNode, element, elements]; exact .head _, ?_⟩
    simp [valued, actionAttribute]

mutual

theorem control_mem_treeNodes {a : ActionKind} {data : ComponentData} (ha : Component.IsControl a data)
    (language : String) (parent : Option ComponentData) (depth : Nat) : (c : Component) → data ∈ c.everyData →
    ∃ e ∈ elementsAll (treeNodes language parent depth c), actionAttribute a ∈ e.2
  | .node d children, h => by
    rw [Component.everyData, List.mem_cons] at h
    rw [treeNodes]
    rcases h with rfl | h
    · exact control_mem_componentNodes _ _ _ _ _ ha
    · obtain ⟨e, he, hm⟩ := control_mem_forestNodes ha language (some d) (depth + 1) children h
      exact ⟨e, mem_componentNodes _ _ _ _ _ he, hm⟩

theorem control_mem_forestNodes {a : ActionKind} {data : ComponentData} (ha : Component.IsControl a data)
    (language : String) (parent : Option ComponentData) (depth : Nat) : (cs : List Component) →
    data ∈ Component.everyDataIn cs →
    ∃ e ∈ elementsAll (forestNodes language parent depth cs), actionAttribute a ∈ e.2
  | [], h => by
    rw [Component.everyDataIn] at h
    cases h
  | c :: rest, h => by
    rw [Component.everyDataIn, List.mem_append] at h
    rw [forestNodes, elementsAll_append]
    rcases h with h | h
    · obtain ⟨e, he, hm⟩ := control_mem_treeNodes ha language parent depth c h
      exact ⟨e, List.mem_append_left _ he, hm⟩
    · obtain ⟨e, he, hm⟩ := control_mem_forestNodes ha language parent depth rest h
      exact ⟨e, List.mem_append_right _ he, hm⟩

end

/-- An element of a page asks for an action. -/
def Node.Carries (a : ActionKind) (n : Node) : Prop := ∃ e ∈ n.elements, actionAttribute a ∈ e.2

/-- The text of the attribute by which a control asks for an action. -/
def controlMark (a : ActionKind) : String := "data-cmp-action=\x22" ++ Named.name a ++ "\x22"

theorem controlMark_infix_write (a : ActionKind) : (controlMark a).toList <:+: (actionAttribute a).write := by
  refine ⟨[' '], [], ?_⟩
  cases a <;> decide

theorem controlMark_infix_openTag {a : ActionKind} {tag : String} {attributes : List Attribute}
    (h : actionAttribute a ∈ attributes) : (controlMark a).toList <:+: openTag tag attributes := by
  obtain ⟨before, after, rfl⟩ := List.append_of_mem h
  refine (controlMark_infix_write a).trans ?_
  exact ⟨'<' :: (tag.toList ++ before.flatMap Attribute.write), after.flatMap Attribute.write, by simp [openTag]⟩

/-- The answers that a banner has to offer are asked for by texts that no image reference overlaps. -/
theorem controlMark_intact {a : ActionKind} (h : a = .acceptAll ∨ a = .rejectAll) :
    Asset.Intact (controlMark a).toList := by
  rcases h with rfl | rfl
  · exact .of_all (by decide) (by decide) (by decide) (by decide)
  · exact .of_all (by decide) (by decide) (by decide) (by decide)

theorem Node.Carries.contains_render {a : ActionKind} {n : Node} (h : n.Carries a) :
    Text.contains (controlMark a) n.render = true := by
  obtain ⟨e, he, hm⟩ := h
  rw [Text.contains_iff, render, String.toList_ofList]
  exact (controlMark_infix_openTag hm).trans ((List.prefix_append _ _).isInfix.trans (tag_infix_write n e he))

theorem Node.Carries.contains_collapse {a : ActionKind} {n : Node} (h : n.Carries a) (hs : n.isSound = true) :
    Text.contains (controlMark a) (collapse n.render) = true := by
  obtain ⟨e, he, hm⟩ := h
  rw [Text.contains_iff]
  exact (controlMark_infix_openTag hm).trans ((List.prefix_append _ _).isInfix.trans (tag_infix_collapse hs he))

theorem floatingAttributes_names (l : DeviceLayout) : ((floatingAttributes l).map (·.1)).all isWord = true := by
  rw [floatingAttributes]
  split
  · simp only [List.map_cons, List.map_nil]
    decide
  · rfl

theorem bannerNode_sound {l : DeviceLayout} {entry : Option AnimationKind} {body : List Node}
    (h : areSound body = true) : (bannerNode l entry body).isSound = true := by
  rw [bannerNode]
  split
  all_goals
    simp only [isSound_element, areSound, List.map_append, List.all_append, floatingAttributes_names, h,
      List.map_cons, List.map_nil]
    decide

theorem elements_bannerNode {l : DeviceLayout} {entry : Option AnimationKind} {body : List Node}
    {e : String × List Attribute} (h : e ∈ elementsAll body) : e ∈ (bannerNode l entry body).elements := by
  rw [bannerNode]
  split
  all_goals simp [element, elements, elementsAll, h]

theorem bannerNode_carries {a : ActionKind} {l : DeviceLayout} {entry : Option AnimationKind} {body : List Node}
    (h : ∃ e ∈ elementsAll body, actionAttribute a ∈ e.2) : (bannerNode l entry body).Carries a := by
  obtain ⟨e, he, hm⟩ := h
  exact ⟨e, elements_bannerNode he, hm⟩

theorem fallbackNode_carries (l : DeviceLayout) {a : ActionKind} (h : a = .acceptAll ∨ a = .rejectAll) :
    (fallbackNode l).Carries a := by
  have hbutton : ∀ action color label, ∃ e ∈ (fallbackButton action color label).elements,
      Attribute.valued "data-cmp-action" action ∈ e.2 := by
    intro action color label
    simp [fallbackButton, element, elements, valued]
  have hmem : ∀ e, e ∈ (fallbackButton "accept_all" "#4CAF50" "Accept").elements ∨
      e ∈ (fallbackButton "reject_all" "#f44336" "Reject").elements → e ∈ (fallbackNode l).elements := by
    intro e he
    simp only [fallbackNode, element, elements, elementsAll, List.mem_cons, List.mem_append]
    rcases he with he | he
    · simp [he]
    · simp [he]
  rcases h with rfl | rfl
  · obtain ⟨e, he, hm⟩ := hbutton "accept_all" "#4CAF50" "Accept"
    exact ⟨e, hmem e (.inl he), hm⟩
  · obtain ⟨e, he, hm⟩ := hbutton "reject_all" "#f44336" "Reject"
    exact ⟨e, hmem e (.inr he), hm⟩

/-- The page of a template, before white space is taken out. -/
def page (language : String) (t : Template) : Node :=
  if t.components.isEmpty then fallbackNode t.layout.desktop
  else bannerNode t.layout.desktop t.entryAnimation? (forestNodes language none 0 t.components)

theorem ofTemplate_eq (language : String) (t : Template) :
    ofTemplate language t = (page language t).render ∨ ofTemplate language t = collapse (page language t).render := by
  rw [ofTemplate, page]
  split
  · exact .inl rfl
  · exact .inr rfl

theorem page_carries {language : String} {t : Template} {a : ActionKind} {data : ComponentData}
    (ha : Component.IsControl a data) (h : data ∈ Component.everyDataIn t.components) :
    (page language t).Carries a := by
  have hne : ¬ t.components.isEmpty = true := by
    intro he
    rw [List.isEmpty_iff.1 he, Component.everyDataIn] at h
    cases h
  rw [page, if_neg hne]
  exact bannerNode_carries (control_mem_forestNodes ha language none 0 t.components h)

theorem ofTemplate_contains {language : String} {t : Template} {a : ActionKind} (h : (page language t).Carries a) :
    Text.contains (controlMark a) (ofTemplate language t) = true := by
  rw [page] at h
  rw [ofTemplate]
  split at h
  · rename_i he
    rw [if_pos he]
    exact h.contains_render
  · rename_i he
    rw [if_neg he]
    exact h.contains_collapse (bannerNode_sound (forestNodes_sound language none 0 t.components))

end ConsentBanner.Markup
