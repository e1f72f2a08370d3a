import ConsentBanner.Proofs.Markup.Tree
import Mathlib.Data.List.Nodup

/-!
The markup of a banner is read as a single tree. Whatever texts a template brings, they neither open nor close an
element: the banner is the root, or the one child of its container, and the components stand in it in document order.
The values of attributes are read with the references that stand for characters of markup.
-/

namespace ConsentBanner.Markup

open Node

theorem isPlain_element {tag : String} {attributes : List (String × String)} {children : List Node} :
    (element tag attributes children).isPlain = (children.tail.all (!·.isText) && arePlain children) := by
  have hvalued : (valued attributes).all Attribute.isValued = true := by
    rw [valued, List.all_map, List.all_eq_true]
    intro a _
    rfl
  rw [element, isPlain, hvalued, Bool.true_and]

theorem isPlain_empty {tag : String} {attributes : List (String × String)} :
    (Node.empty true tag (valued attributes)).isPlain = true := by
  rw [isPlain, valued, List.all_map, Bool.true_and, List.all_eq_true]
  intro a _
  rfl

theorem isPlain_text (s : String) : (Node.text s).isPlain = true := by rw [isPlain]

theorem isText_element (tag : String) (attributes : List (String × String)) (children : List Node) :
    (element tag attributes children).isText = false := rfl

/-- Elements whose markup is plain. -/
def Node.areElements (ns : List Node) : Bool := ns.all (!·.isText) && arePlain ns

theorem Node.areElements_append (ns ms : List Node) :
    areElements (ns ++ ms) = (areElements ns && areElements ms) := by
  rw [areElements, areElements, areElements, List.all_append, arePlain_append]
  ac_rfl

theorem Node.tail_of_areElements {ns : List Node} (h : areElements ns = true) :
    ns.tail.all (!·.isText) = true := by
  rw [areElements, Bool.and_eq_true, List.all_eq_true] at h
  rw [List.all_eq_true]
  intro n hn
  exact h.1 n (List.mem_of_mem_tail hn)

theorem componentNodes_plain (language : String) (parent : Option ComponentData) (depth count : Nat)
    (c : ComponentData) {children : List Node} (h : areElements children = true) :
    areElements (componentNodes language parent depth count c children) = true := by
  have htail := tail_of_areElements h
  rw [areElements, Bool.and_eq_true] at h
  cases hk : c.kind
  all_goals
    simp only [componentNodes, hk, textNode, buttonNode, linkNode, checkboxNode, toggleNode, containerNode, panelNode,
      imageNode, inputNode, areElements, arePlain, List.all_cons, List.all_nil, List.tail_cons, List.tail_nil,
      isText_element, isPlain_element, isPlain_empty, isPlain_text, h, htail]
    decide

mutual

theorem treeNodes_plain (language : String) (parent : Option ComponentData) (depth : Nat) : (c : Component) →
    areElements (treeNodes language parent depth c) = true
  | .node data children => by
    rw [treeNodes]
    exact componentNodes_plain _ _ _ _ _ (forestNodes_plain language (some data) (depth + 1) children)

theorem forestNodes_plain (language : String) (parent : Option ComponentData) (depth : Nat) : (cs : List Component) →
    areElements (forestNodes language parent depth cs) = true
  | [] => by
    rw [forestNodes]
    rfl
  | c :: rest => by
    rw [forestNodes, areElements_append, treeNodes_plain language parent depth c,
      forestNodes_plain language parent depth rest]
    rfl

end

theorem bannerNode_plain {l : DeviceLayout} {entry : Option AnimationKind} {body : List Node}
    (h : areElements body = true) : (bannerNode l entry body).isPlain = true := by
  have htail := tail_of_areElements h
  rw [areElements, Bool.and_eq_true] at h
  rw [bannerNode]
  split
  all_goals
    simp only [isPlain_element, arePlain, List.tail_cons, h, htail]
    decide

theorem escape_injective : Function.Injective escape := Function.LeftInverse.injective unescape_escape

theorem filter_of_nodup_filterMap {α β : Type} [DecidableEq β] {f : α → Option β} {xs : List α}
    (hnodup : (xs.filterMap f).Nodup) {b : β} (hb : b ∈ xs.filterMap f) :
    ∃ x, xs.filter (f · == some b) = [x] := by
  induction xs with
  | nil => cases hb
  | cons x xs ih =>
    cases hx : f x with
    | none =>
      rw [List.filterMap_cons_none hx] at hnodup hb
      rw [List.filter_cons_of_neg (by simp [hx])]
      exact ih hnodup hb
    | some a =>
      rw [List.filterMap_cons_some hx] at hnodup hb
      rw [List.nodup_cons] at hnodup
      by_cases hab : a = b
      · subst hab
        refine ⟨x, ?_⟩
        rw [List.filter_cons_of_pos (by simp [hx]), List.filter_eq_nil_iff.2]
        intro y hy heq
        exact hnodup.1 (List.mem_filterMap.2 ⟨y, hy, beq_iff_eq.1 heq⟩)
      · rw [List.filter_cons_of_neg (by simpa [hx] using hab)]
        exact ih hnodup.2 ((List.mem_cons.1 hb).resolve_left fun h => hab h.symm)

/-- Every text that is shown is that of a component or the label of an action. -/
theorem mem_shownTexts {language s : String} {cs : List ComponentData} (h : s ∈ shownTexts language cs) :
    (∃ c ∈ cs, s = escape (c.text (some language))) ∨
      ∃ (a : ActionKind) (text : String), a.defaultLabel? = some text ∧ s = escape text := by
  rw [shownTexts, List.mem_map] at h
  obtain ⟨text, htext, rfl⟩ := h
  rw [List.mem_filter, List.mem_filterMap] at htext
  obtain ⟨⟨c, hc, hshown⟩, hblank⟩ := htext
  have hlabel : label c (c.text (some language)) = text →
      (∃ d ∈ cs, escape text = escape (d.text (some language))) ∨
        ∃ (a : ActionKind) (t : String), a.defaultLabel? = some t ∧ escape text = escape t := by
    rintro rfl
    rw [label] at hblank ⊢
    split
    · rename_i hempty
      rw [if_pos hempty] at hblank
      cases hdefault : c.action.kind.defaultLabel? with
      | none =>
        rw [hdefault] at hblank
        cases hblank
      | some t => exact .inr ⟨_, t, hdefault, rfl⟩
    · exact .inl ⟨c, hc, rfl⟩
  rw [shownText?] at hshown
  split at hshown
  all_goals first
    | exact .inl ⟨c, hc, congrArg escape (Option.some.inj hshown).symm⟩
    | exact hlabel (Option.some.inj hshown)
    | cases hshown

/-- The tree of a banner around other trees. -/
def bannerTree (l : DeviceLayout) (entry : Option AnimationKind) (children : List Tree) : Tree :=
  .element "div" (written ([
    ("id", "cmp-banner"), ("class", bannerClass l entry), ("data-position", Named.name l.position),
    ("role", "dialog")] ++ (if l.kind = .modal then [("aria-modal", "true")] else []) ++ [
    ("aria-labelledby", "cmp-title"), ("aria-describedby", "cmp-description"),
    ("data-width", widthPercent l.kind)] ++ floatingAttributes l)) children

section Banner

variable (l : DeviceLayout) (entry : Option AnimationKind) (children : List Tree)

theorem attribute?_id_bannerTree : (bannerTree l entry children).attribute? "id" = some "cmp-banner" := by
  have hid : escape "cmp-banner" = "cmp-banner" := by decide
  rw [bannerTree, Tree.attribute?, get?_written, List.cons_append, List.cons_append, List.cons_append,
    Fields.get?_cons_self, Option.map_some, hid]

theorem attribute?_component_bannerTree : (bannerTree l entry children).attribute? "data-component-id" = none := by
  rw [bannerTree, Tree.attribute?, get?_written, floatingAttributes]
  split
  all_goals split
  all_goals simp [Fields.get?]

end Banner

/-- A tree tells of a template: it is one banner, inside a container of its own when it is modal, with an element for
each component, and with no texts but theirs. -/
structure Displays (language : String) (t : Template) (root : Tree) : Prop where
  banner : ∃ banner, root.elements.filter Tree.isBanner = [banner] ∧
    if t.layout.desktop.kind = .modal then
      root.attribute? "id" = some "cmp-modal-container" ∧ root.children = [banner]
    else root = banner
  components : root.elements.filterMap (Tree.attribute? "data-component-id") =
    (Component.everyDataIn t.components).map (escape ·.id)
  each : ∀ c ∈ Component.everyDataIn t.components,
    ∃ e, root.elements.filter (·.attribute? "data-component-id" == some (escape c.id)) = [e]
  texts : root.texts = shownTexts language (Component.everyDataIn t.components)
  given : ∀ s ∈ root.texts, (∃ c ∈ Component.everyDataIn t.components, s = escape (c.text (some language))) ∨
    ∃ (a : ActionKind) (text : String), a.defaultLabel? = some text ∧ s = escape text

/-- The tree of the container of a modal banner. -/
def containerTree (banner : Tree) : Tree :=
  .element "div" (written [
    ("id", "cmp-modal-container"), ("class", "cmp-modal-container"), ("data-cmp-role", "modal-container")]) [banner]

theorem trees_bannerNode (l : DeviceLayout) (entry : Option AnimationKind) (body : List Node) :
    (bannerNode l entry body).trees = if l.kind = .modal then
        [containerTree (bannerTree l entry (treesAll body))]
      else [bannerTree l entry (treesAll body)] := by
  rw [bannerNode]
  split
  · rename_i hmodal
    rw [trees_element, treesAll, treesAll, trees_element, List.append_nil, containerTree, bannerTree, if_pos hmodal]
  · rename_i hmodal
    rw [trees_element, bannerTree, if_neg hmodal]

theorem bannerNode_eq_element (l : DeviceLayout) (entry : Option AnimationKind) (body : List Node) :
    ∃ tag attributes children, bannerNode l entry body = .element tag attributes children := by
  rw [bannerNode]
  split
  · exact ⟨_, _, _, rfl⟩
  · exact ⟨_, _, _, rfl⟩

section Collapse

variable {l : DeviceLayout} {entry : Option AnimationKind} {body : List Node}

theorem collapse_bannerNode (hs : areSound body = true) (hp : areElements body = true) :
    (collapse (bannerNode l entry body).render).toList = (bannerNode l entry body).kept := by
  have hsound : (bannerNode l entry body).isSound = true := bannerNode_sound hs
  have hplain : (bannerNode l entry body).isPlain = true := bannerNode_plain hp
  obtain ⟨tag, attributes, children, hnode⟩ := bannerNode_eq_element l entry body
  rw [hnode] at hsound hplain ⊢
  exact collapse_element hsound (isSeparated_of_isPlain _ hplain)

theorem read_bannerNode (hs : areSound body = true) (hp : areElements body = true) :
    read? (collapse (bannerNode l entry body).render) = some (bannerNode l entry body).trees := by
  have hsound : (bannerNode l entry body).isSound = true := bannerNode_sound hs
  have hplain : (bannerNode l entry body).isPlain = true := bannerNode_plain hp
  obtain ⟨tag, attributes, children, hnode⟩ := bannerNode_eq_element l entry body
  rw [hnode] at hsound hplain ⊢
  rw [read_collapse hsound hplain, trees]

end Collapse

theorem read_ofTemplate (language : String) {t : Template} (hne : t.components ≠ []) :
    read? (ofTemplate language t) =
      some (bannerNode t.layout.desktop t.entryAnimation? (forestNodes language none 0 t.components)).trees := by
  rw [ofTemplate, if_neg (by rwa [List.isEmpty_iff]),
    read_bannerNode (forestNodes_sound _ _ _ _) (forestNodes_plain _ _ _ _)]

/-- The elements of a banner are itself and those inside it, also when it has a container. -/
theorem exists_root (l : DeviceLayout) (entry : Option AnimationKind) (body : List Node) :
    ∃ root, (bannerNode l entry body).trees = [root] ∧ root.texts = Tree.textsAll (treesAll body) ∧
      ∃ outside, root.elements = outside ++ bannerTree l entry (treesAll body) :: Tree.elementsAll (treesAll body) ∧
        (∀ t ∈ outside, t.isBanner = false ∧ t.attribute? "data-component-id" = none) ∧
        if l.kind = .modal then
          root.attribute? "id" = some "cmp-modal-container" ∧ root.children = [bannerTree l entry (treesAll body)]
        else root = bannerTree l entry (treesAll body) := by
  rw [trees_bannerNode]
  split
  · refine ⟨_, rfl, ?_, [containerTree (bannerTree l entry (treesAll body))], ?_, ?_, ?_, rfl⟩
    · simp [containerTree, bannerTree, Tree.texts, Tree.textsAll]
    · simp [containerTree, bannerTree, Tree.elements, Tree.elementsAll]
    · rw [List.forall_mem_singleton, Tree.isBanner, containerTree, Tree.attribute?, Tree.attribute?]
      decide
    · rw [containerTree, Tree.attribute?]
      decide
  · refine ⟨_, rfl, ?_, [], ?_, fun _ ht => absurd ht List.not_mem_nil, rfl⟩
    · rw [bannerTree, Tree.texts]
    · rw [bannerTree, Tree.elements]
      rfl

/-- The markup of a template with components is read as a single tree, whatever texts the template brings. -/
theorem ofTemplate_displays (language : String) {t : Template} (hne : t.components ≠ [])
    (hids : ((Component.everyDataIn t.components).map (·.id)).Nodup) :
    ∃ root, read? (ofTemplate language t) = some [root] ∧ Displays language t root := by
  obtain ⟨hcomponents, htexts, hbanner⟩ := forestNodes_read language none 0 t.components
  obtain ⟨root, hroot, hrootTexts, outside, helements, houtside, hkind⟩ :=
    exists_root t.layout.desktop t.entryAnimation? (forestNodes language none 0 t.components)
  have hread : read? (ofTemplate language t) = some [root] := by rw [read_ofTemplate language hne, hroot]
  have hnone : outside.filterMap (Tree.attribute? "data-component-id") = [] :=
    List.filterMap_eq_nil_iff.2 fun u hu => (houtside u hu).2
  have hcarry : root.elements.filterMap (Tree.attribute? "data-component-id") =
      (Component.everyDataIn t.components).map (escape ·.id) := by
    rw [helements, List.filterMap_append, hnone, List.nil_append,
      List.filterMap_cons_none (attribute?_component_bannerTree _ _ _)]
    exact hcomponents
  refine ⟨root, hread, ?_, hcarry, fun c hc => ?_, hrootTexts.trans htexts, fun s hs => ?_⟩
  · refine ⟨_, ?_, hkind⟩
    -- Neither the container nor a component has the identifier of the banner.
    have hself : Tree.isBanner (bannerTree t.layout.desktop t.entryAnimation?
        (treesAll (forestNodes language none 0 t.components))) = true := by
      rw [Tree.isBanner, attribute?_id_bannerTree]
      rfl
    rw [helements, List.filter_append, List.filter_eq_nil_iff.2 fun u hu => by simp [(houtside u hu).1],
      List.filter_cons_of_pos hself, hbanner, List.nil_append]
  · have hescaped : ((Component.everyDataIn t.components).map (escape ·.id)).Nodup := by
      have hmap := List.Nodup.map escape_injective hids
      rwa [List.map_map] at hmap
    refine filter_of_nodup_filterMap (hcarry ▸ hescaped) ?_
    rw [hcarry]
    exact List.mem_map_of_mem hc
  · rw [hrootTexts, htexts] at hs
    exact mem_shownTexts hs

/-- A modal banner whose texts are full of markup. -/
def hostileTemplate : Template where
  layout := { desktop := { kind := .modal, position := .center } }
  components := [
    .node { id := "a\x22 id=\x22cmp-banner", kind := .panel, content := .plain "</div><div id=\x22cmp-banner\x22>" } [
      .node { id := "yes", kind := .button, action := { kind := .acceptAll } } [],
      .node { id := "no", kind := .button, content := .plain "<b", action := { kind := .rejectAll } } []],
    .node { id := "logo", kind := .logo } []]

theorem ofTemplate_displays_hostile :
    hostileTemplate.components ≠ [] ∧
      ((Component.everyDataIn hostileTemplate.components).map (·.id)).Nodup ∧
      ∃ root, read? (ofTemplate "en" hostileTemplate) = some [root] ∧ Displays "en" hostileTemplate root ∧
        root.texts = ["&lt;/div&gt;&lt;div id=&#34;cmp-banner&#34;&gt;", "Accept all", "&lt;b"] := by
  have hne : hostileTemplate.components ≠ [] := nofun
  have hids : ((Component.everyDataIn hostileTemplate.components).map (·.id)).Nodup := by decide
  obtain ⟨root, hroot, hdisplays⟩ := ofTemplate_displays "en" hne hids
  refine ⟨hne, hids, root, hroot, hdisplays, ?_⟩
  rw [hdisplays.texts]
  decide

end ConsentBanner.Markup

namespace ConsentBanner.Text

/-- A character as documents and stylesheets show it: the null character is replaced. -/
def shownChar (c : Char) : Char := if c = '\x00' then '\ufffd' else c

theorem map_shownChar {text : List Char} (h : '\x00' ∉ text) : text.map shownChar = text := by
  have hkept : ∀ c ∈ text, shownChar c = c := by
    intro c hc
    apply if_neg
    rintro rfl
    exact h hc
  rw [List.map_congr_left hkept, List.map_id']

theorem not_mem_map_shownChar (text : List Char) : '\x00' ∉ text.map shownChar := by
  intro hc
  obtain ⟨d, -, hd⟩ := List.mem_map.1 hc
  rw [shownChar] at hd
  split at hd
  · cases hd
  · rename_i hne
    exact hne hd

end ConsentBanner.Text

namespace ConsentBanner.Markup

/-- What the value of an attribute stands for. Other references, and line ends that a document does not keep, are not
read. -/
def readValue? : List Char → Option (List Char)
  | [] => some []
  | '&' :: 'a' :: 'm' :: 'p' :: ';' :: rest => (readValue? rest).map ('&' :: ·)
  | '&' :: 'l' :: 't' :: ';' :: rest => (readValue? rest).map ('<' :: ·)
  | '&' :: 'g' :: 't' :: ';' :: rest => (readValue? rest).map ('>' :: ·)
  | '&' :: '#' :: '3' :: '9' :: ';' :: rest => (readValue? rest).map ('\x27' :: ·)
  | '&' :: '#' :: '3' :: '4' :: ';' :: rest => (readValue? rest).map ('\x22' :: ·)
  | '&' :: _ => none
  | '\r' :: _ => none
  | c :: rest => (readValue? rest).map (Text.shownChar c :: ·)

theorem readValue?_plain {c : Char} (hreference : c ≠ '&') (hreturn : c ≠ '\r') (rest : List Char) :
    readValue? (c :: rest) = (readValue? rest).map (Text.shownChar c :: ·) := by
  rw [readValue?]
  all_goals simp_all

theorem readValue?_escapeList {text : List Char} (h : '\r' ∉ text) :
    readValue? (escapeList text) = some (text.map Text.shownChar) := by
  induction text with
  | nil => rfl
  | cons c text ih =>
    rw [List.mem_cons, not_or] at h
    have htail := ih h.2
    have hcons : escapeList (c :: text) = escapeChar c ++ escapeList text := rfl
    rw [hcons]
    unfold escapeChar
    split
    iterate 5
      change (readValue? (escapeList text)).map _ = _
      rw [htail]
      rfl
    rename_i hreference _ _ _ _
    rw [List.singleton_append, readValue?_plain hreference fun he => h.1 he.symm, htail]
    rfl

/-- The markup of a template is one tree with an element for each component. -/
theorem exists_read_components (language : String) {t : Template} (hne : t.components ≠ []) :
    ∃ root, read? (ofTemplate language t) = some [root] ∧
      root.elements.filterMap (Tree.attribute? "data-component-id") =
        (Component.everyDataIn t.components).map (escape ·.id) := by
  obtain ⟨hcomponents, -, -⟩ := forestNodes_read language none 0 t.components
  obtain ⟨root, hroot, -, outside, helements, houtside, -⟩ :=
    exists_root t.layout.desktop t.entryAnimation? (forestNodes language none 0 t.components)
  have hnone : outside.filterMap (Tree.attribute? "data-component-id") = [] :=
    List.filterMap_eq_nil_iff.2 fun u hu => (houtside u hu).2
  refine ⟨root, ?_, ?_⟩
  · rw [read_ofTemplate language hne, hroot]
  · rw [helements, List.filterMap_append, hnone, List.nil_append,
      List.filterMap_cons_none (attribute?_component_bannerTree _ _ _)]
    exact hcomponents

end ConsentBanner.Markup
