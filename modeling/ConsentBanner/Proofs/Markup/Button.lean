import ConsentBanner.Proofs.Markup.Picture
import Mathlib.Data.List.Forall2

/-!
The buttons of a banner. Each component that is a button is one element in the finished markup, and its text stands for
that of the component. Its accessible name is escaped once more than its text, so that the two tell the same only where
there is nothing to escape. The markup that stands in for another has two buttons, one for either answer, and as it refers to
no image it stays as it is where addresses are made absolute.
-/

namespace ConsentBanner.Markup

/-- A text that escaping leaves alone. -/
def IsBare (s : String) : Prop := ∀ c ∈ s.toList, IsSafe c ∧ c ≠ '&'

instance (s : String) : Decidable (IsBare s) := List.decidableBAll _ s.toList

theorem escapeChar_eq_singleton {c : Char} : escapeChar c = [c] ↔ IsSafe c ∧ c ≠ '&' := by
  unfold escapeChar
  split
  case h_6 => exact iff_of_true rfl ⟨⟨‹_›, ‹_›, ‹_›, ‹_›⟩, ‹_›⟩
  all_goals decide

theorem escape_eq_self {s : String} : escape s = s ↔ IsBare s := by
  rw [escape, ← String.toList_inj, String.toList_ofList, escapeList, Text.flatMap_eq_self escapeChar_ne_nil, IsBare]
  exact forall₂_congr fun c _ => escapeChar_eq_singleton

namespace Tree

def text? : Tree → Option String
  | text s => some s
  | element _ _ _ => none

/-- The texts of an element that are not inside an element of its own. -/
def ownTexts (t : Tree) : List String := t.children.filterMap text?

def isButton : Tree → Bool
  | text _ => false
  | element tag _ _ => tag == "button"

/-- An element is what is read of a button: its text stands for that of the component or the label of its action, and
the accessible name of one with a text stands for the escaped text. -/
structure IsButtonOf (language : String) (c : ComponentData) (t : Tree) : Prop where
  component : t.attribute? "data-component-id" = some (escape c.id)
  action : t.attribute? "data-cmp-action" = some (escape (Named.name c.action.kind))
  texts : t.ownTexts.map unescape = [label c (c.text (some language))].filter (!Text.isBlankText ·)
  name : c.text (some language) ≠ "" →
    (t.attribute? "aria-label").map unescape = some (escape (c.text (some language)))

/-- The name and the text of a button whose text is not blank tell the same just when the text has nothing to escape;
then both are the text. -/
theorem IsButtonOf.agrees {language : String} {c : ComponentData} {t : Tree} (h : IsButtonOf language c t)
    (hc : Text.isBlankText (c.text (some language)) = false) :
    t.ownTexts.map unescape = [c.text (some language)] ∧
      ((t.attribute? "aria-label").map unescape = some (c.text (some language)) ↔
        IsBare (c.text (some language))) := by
  have hne : c.text (some language) ≠ "" := by
    intro he
    rw [he] at hc
    cases hc
  have hlabel : label c (c.text (some language)) = c.text (some language) := by
    rw [label, if_neg (by simpa using hne)]
  have htexts : t.ownTexts.map unescape = [c.text (some language)] := by
    rw [h.texts, hlabel, List.filter_cons_of_pos (by simp [hc]), List.filter_nil]
  refine ⟨htexts, ?_⟩
  rw [h.name hne, Option.some.injEq]
  exact escape_eq_self

end Tree

open Asset Node

/-- Elements have no texts beside them. -/
theorem filterMap_text?_trees {ns : List Node} (h : ns.all (!·.isText) = true) (hp : arePlain ns = true) :
    (treesAll ns).filterMap Tree.text? = [] := by
  induction ns with
  | nil => rfl
  | cons n ns ih =>
    rw [List.all_cons, Bool.and_eq_true] at h
    rw [arePlain, Bool.and_eq_true] at hp
    rw [treesAll, List.filterMap_append, ih h.2 hp.2, List.append_nil]
    cases n with
    | text s => cases h.1
    | reference name =>
      rw [isPlain] at hp
      cases hp.1
    | element tag attributes children => rfl
    | empty slash tag attributes => rfl

theorem filterMap_text?_text (s : String) :
    (Node.text s).trees.filterMap Tree.text? = ([s].filter (!Text.isBlankText ·)).map escape := by
  rw [trees]
  cases hs : Text.isBlankText s with
  | true => simp [hs]
  | false => simp [hs, Tree.text?]

/-- A button is read as an element with its identifier, its text and its name. -/
theorem buttonNode_isButtonOf (language : String) (c : ComponentData) {children : List Node}
    (h : areElements children = true) :
    ∃ t, (buttonNode c (c.text (some language)) children).trees = [t] ∧ t.isButton = true ∧
      Tree.elementsAll t.children = Tree.elementsAll (treesAll children) ∧ Tree.IsButtonOf language c t := by
  rw [areElements, Bool.and_eq_true] at h
  rw [buttonNode, trees_element]
  refine ⟨_, rfl, rfl, ?_, ?_, ?_, ?_, fun hne => ?_⟩
  · rw [Tree.children, treesAll, Tree.elementsAll_append, elementsAll_text, List.nil_append]
  · rw [Tree.attribute?, get?_written]
    rfl
  · rw [Tree.attribute?, get?_written]
    rfl
  · rw [Tree.ownTexts, Tree.children, treesAll, List.filterMap_append, filterMap_text?_text,
      filterMap_text?_trees h.1 h.2, List.append_nil, List.map_map]
    exact List.map_id'' unescape_escape _
  · have hlabel : label c (c.text (some language)) = c.text (some language) := by
      rw [label, if_neg (by simpa using hne)]
    have hempty : ¬ (escape (c.text (some language))).isEmpty = true := by
      rw [String.isEmpty_iff]
      intro he
      rw [← unescape_escape (c.text (some language)), he] at hne
      exact hne rfl
    rw [Tree.attribute?, get?_written, hlabel, if_neg hempty]
    exact congrArg some (unescape_escape _)

/-- A button tells of its component, and no other component is read as one. -/
theorem componentNodes_buttons (language : String) (parent : Option ComponentData) (depth count : Nat)
    (c : ComponentData) {children : List Node} (h : areElements children = true) :
    ∃ ts, (Tree.elementsAll (treesAll (componentNodes language parent depth count c children))).filter Tree.isButton =
        ts ++ (Tree.elementsAll (treesAll children)).filter Tree.isButton ∧
      List.Forall₂ (Tree.IsButtonOf language) ([c].filter (·.kind == .button)) ts := by
  cases hk : c.kind
  case button =>
    obtain ⟨t, ht, hbutton, hinside, hof⟩ := buttonNode_isButtonOf language c h
    refine ⟨[t], ?_, by simpa [hk] using hof⟩
    have helements : t.elements = t :: Tree.elementsAll t.children := by
      cases t with
      | text s => cases hbutton
      | element tag attributes ts => rw [Tree.elements, Tree.children]
    simp only [componentNodes, hk, treesAll, ht, List.append_nil, Tree.elementsAll, helements, hinside]
    rw [List.filter_cons_of_pos hbutton, List.singleton_append]
  all_goals
    refine ⟨[], ?_, by simp [hk]⟩
    simp [componentNodes, hk, treesAll, textNode, linkNode, checkboxNode, toggleNode, containerNode, panelNode,
      imageNode, inputNode, trees_element, trees_empty, Tree.elementsAll, Tree.elements, elementsAll_text,
      Tree.elementsAll_append, Tree.isButton]

mutual

theorem treeNodes_buttons (language : String) (parent : Option ComponentData) (depth : Nat) : (c : Component) →
    List.Forall₂ (Tree.IsButtonOf language) (c.everyData.filter (·.kind == .button))
      ((Tree.elementsAll (treesAll (treeNodes language parent depth c))).filter Tree.isButton)
  | .node data children => by
    obtain ⟨ts, hfilter, hself⟩ := componentNodes_buttons language parent depth children.length data
      (forestNodes_plain language (some data) (depth + 1) children)
    rw [treeNodes, Component.everyData, hfilter, ← List.singleton_append, List.filter_append]
    exact List.rel_append hself (forestNodes_buttons language (some data) (depth + 1) children)

/-- The buttons of a forest tell of its components that are buttons, in document order. -/
theorem forestNodes_buttons (language : String) (parent : Option ComponentData) (depth : Nat) :
    (cs : List Component) →
    List.Forall₂ (Tree.IsButtonOf language) ((Component.everyDataIn cs).filter (·.kind == .button))
      ((Tree.elementsAll (treesAll (forestNodes language parent depth cs))).filter Tree.isButton)
  | [] => by
    rw [forestNodes, Component.everyDataIn]
    exact .nil
  | c :: rest => by
    rw [forestNodes, Component.everyDataIn, List.filter_append, treesAll_append, Tree.elementsAll_append,
      List.filter_append]
    exact List.rel_append (treeNodes_buttons language parent depth c) (forestNodes_buttons language parent depth rest)

end

theorem exists_root_buttons (l : DeviceLayout) (entry : Option AnimationKind) (body : List Node) :
    ∃ root, (bannerNode l entry body).trees = [root] ∧
      root.elements.filter Tree.isButton = (Tree.elementsAll (treesAll body)).filter Tree.isButton := by
  rw [trees_bannerNode]
  split
  · exact ⟨_, rfl, by simp [containerTree, bannerTree, Tree.elements, Tree.elementsAll, Tree.isButton]⟩
  · exact ⟨_, rfl, by simp [bannerTree, Tree.elements, Tree.isButton]⟩

/-- The buttons in the markup of a template are those of its components, in document order. Where the text of one is not
blank, it is what the button shows; the accessible name tells the same just when the text has nothing to escape. -/
theorem ofTemplate_buttons (language : String) {t : Template} (hne : t.components ≠ []) :
    ∃ root, read? (ofTemplate language t) = some [root] ∧
      List.Forall₂
        (fun c e => Tree.IsButtonOf language c e ∧
          (Text.isBlankText (c.text (some language)) = false →
            e.ownTexts.map unescape = [c.text (some language)] ∧
              ((e.attribute? "aria-label").map unescape = some (c.text (some language)) ↔
                IsBare (c.text (some language)))))
        ((Component.everyDataIn t.components).filter (·.kind == .button)) (root.elements.filter Tree.isButton) := by
  obtain ⟨root, hroot, hbuttons⟩ :=
    exists_root_buttons t.layout.desktop t.entryAnimation? (forestNodes language none 0 t.components)
  refine ⟨root, by rw [read_ofTemplate language hne, hroot], ?_⟩
  rw [hbuttons]
  exact (forestNodes_buttons language none 0 t.components).imp fun c e h => ⟨h, h.agrees⟩

/-- A button whose text has a character to escape. -/
def ampersandButton : ComponentData :=
  { id := "ok", kind := .button, content := .plain "Terms & more", action := { kind := .acceptAll } }

def ampersandTemplate : Template where
  layout := { desktop := { kind := .banner, position := .bottom } }
  components := [.node ampersandButton []]

theorem ofTemplate_buttons_ampersand :
    ampersandTemplate.components ≠ [] ∧
      ∃ root button, read? (ofTemplate "en" ampersandTemplate) = some [root] ∧
        root.elements.filter Tree.isButton = [button] ∧ button.ownTexts.map unescape = ["Terms & more"] ∧
        (button.attribute? "aria-label").map unescape = some "Terms &amp; more" := by
  have hne : ampersandTemplate.components ≠ [] := nofun
  obtain ⟨root, hroot, hbuttons⟩ := ofTemplate_buttons "en" hne
  obtain ⟨button, rest, ⟨hof, hagrees⟩, hrest, hfilter⟩ :=
    (List.forall₂_cons_left_iff (a := ampersandButton) (l := [])).1 hbuttons
  rw [List.forall₂_nil_left_iff.1 hrest] at hfilter
  have hname : escape "Terms & more" = "Terms &amp; more" := by decide
  refine ⟨hne, root, button, hroot, hfilter, (hagrees (by decide)).1, ?_⟩
  rw [hof.name (by decide)]
  exact congrArg some hname

theorem bracket_mem_escapeList {cs : List Char} (h : '(' ∈ escapeList cs) : '(' ∈ cs := by
  obtain ⟨c, hc, h⟩ := List.mem_flatMap.1 h
  unfold escapeChar at h
  split at h
  case h_6 =>
    rw [List.mem_singleton.1 h]
    exact hc
  all_goals exact absurd h (by decide)

theorem bracket_not_mem_word {s : String} (h : isWord s = true) : '(' ∉ s.toList := by
  intro hmem
  simp only [isWord, Bool.and_eq_true, List.all_eq_true] at h
  cases h.2 _ hmem

theorem bracket_not_mem_openTag {tag : String} {attributes : List (String × String)} (ht : isWord tag = true)
    (ha : (attributes.map (·.1)).all isWord = true) (hvalues : ∀ a ∈ attributes, '(' ∉ a.2.toList) :
    '(' ∉ openTag tag (valued attributes) := by
  rw [openTag, List.mem_cons, List.mem_append, not_or, not_or]
  refine ⟨by decide, bracket_not_mem_word ht, ?_⟩
  intro hm
  rw [valued, List.flatMap_map, List.mem_flatMap] at hm
  obtain ⟨⟨name, v⟩, hmem, hm⟩ := hm
  have hname : isWord name = true := List.all_eq_true.1 ha name (List.mem_map_of_mem hmem)
  simp only [Attribute.write, List.mem_cons, List.mem_append, Char.reduceEq, false_or, List.not_mem_nil, or_false] at hm
  obtain hm | hm := hm
  · exact bracket_not_mem_word hname hm
  · exact hvalues _ hmem (bracket_mem_escapeList hm)

theorem bracket_not_mem_closeTag {tag : String} (ht : isWord tag = true) : '(' ∉ closeTag tag := by
  rw [closeTag, List.mem_cons, List.mem_cons, List.mem_append, not_or, not_or, not_or]
  exact ⟨by decide, by decide, bracket_not_mem_word ht, by decide⟩

/-- Markup of which nothing is left out when it is collapsed, without images and without brackets. -/
structure Inert (ns : List Node) : Prop where
  kept : keptAll ns = writeAll ns
  lays : Lays (fun (_ : Empty) _ => True) [] (keptAll ns)
  bracket : '(' ∉ writeAll ns

namespace Inert

variable {tag : String} {attributes : List (String × String)} {children ns : List Node}

theorem nil : Inert [] := ⟨rfl, lays_nil, List.not_mem_nil⟩

theorem text {s : String} (hs : Text.isBlankText s = false) (hbracket : '(' ∉ s.toList) (h : Inert ns) :
    Inert (.text s :: ns) where
  kept := by rw [keptAll_cons, kept_text, if_neg (by simp [hs]), writeAll, write, h.kept]
  lays := lays_cons (lays_text s) h.lays
  bracket := by
    rw [writeAll, write, List.mem_append, not_or]
    exact ⟨fun hm => hbracket (bracket_mem_escapeList hm), h.bracket⟩

theorem element (ht : IsOther tag) (ha : (attributes.map (·.1)).all isWord = true)
    (hvalues : ∀ a ∈ attributes, '(' ∉ a.2.toList) (hchildren : Inert children) (h : Inert ns) :
    Inert (element tag attributes children :: ns) where
  kept := by rw [keptAll_cons, writeAll, Markup.element, kept_element, write, hchildren.kept, h.kept]
  lays := lays_cons (lays_element ht ha hchildren.lays) h.lays
  bracket := by
    simp only [writeAll, Markup.element, write, List.mem_append, List.mem_cons, not_or]
    exact ⟨⟨bracket_not_mem_openTag ht.word ha hvalues, by decide, hchildren.bracket,
      bracket_not_mem_closeTag ht.word⟩, h.bracket⟩

end Inert

section Fallback

variable (l : DeviceLayout)

theorem bracket_not_mem_bannerClass : '(' ∉ (bannerClass l none).toList := by
  have hkind : '(' ∉ (Named.name l.kind).toList := by
    cases l.kind
    all_goals decide
  have hclass : bannerClass l none = "cmp-banner cmp-banner--" ++ Named.name l.kind ++ "" := rfl
  simp only [hclass, String.toList_append, List.mem_append, not_or]
  exact ⟨⟨by decide, hkind⟩, by decide⟩

theorem bracket_not_mem_position : '(' ∉ (Named.name l.position).toList := by
  cases l.position
  all_goals decide

theorem inert_fallbackButton {action color label : String} (haction : '(' ∉ action.toList) (hcolor : '(' ∉ color.toList)
    (hblank : Text.isBlankText label = false) (hlabel : '(' ∉ label.toList) {ns : List Node} (h : Inert ns) :
    Inert (fallbackButton action color label :: ns) := by
  refine .element isOther_button ?_ ?_ (.text hblank hlabel .nil) h
  · simp only [List.map_cons, List.map_nil]
    decide
  · simp only [List.forall_mem_cons, String.toList_append, List.mem_append, not_or]
    exact ⟨by decide, haction, ⟨⟨by decide, hcolor⟩, by decide⟩, List.forall_mem_nil _⟩

theorem inert_fallbackNode : Inert [fallbackNode l] := by
  have hsentence : Inert [.text "This site uses cookies to improve your experience."] := .text (by decide) (by decide) .nil
  have hbuttons : Inert [fallbackButton "reject_all" "#f44336" "Reject", fallbackButton "accept_all" "#4CAF50" "Accept"] :=
    inert_fallbackButton (by decide) (by decide) (by decide) (by decide)
      (inert_fallbackButton (by decide) (by decide) (by decide) (by decide) .nil)
  refine .element isOther_div ?_ ?_ ?_ .nil
  · simp only [List.map_cons, List.map_nil]
    decide
  · simp only [List.forall_mem_cons]
    exact ⟨by decide, bracket_not_mem_bannerClass l, bracket_not_mem_position l, by decide, by decide, by decide,
      List.forall_mem_nil _⟩
  · exact .element isOther_div (by decide) (by decide)
      (.element isOther_p (by decide) (by decide) hsentence .nil)
      (.element isOther_div (by decide) (by decide) hbuttons .nil)

theorem fallbackNode_sound : (fallbackNode l).isSound = true := by
  simp only [fallbackNode, fallbackButton, isSound_element, areSound, isSound_text, List.map_cons, List.map_nil]
  decide

theorem fallbackNode_plain : (fallbackNode l).isPlain = true := by
  simp only [fallbackNode, fallbackButton, isPlain_element, arePlain, isPlain_text, List.tail_cons, List.all_cons,
    List.all_nil, isText_element]
  decide

theorem kept_fallbackNode : (fallbackNode l).kept = (fallbackNode l).write := by
  have hkept := (inert_fallbackNode l).kept
  rwa [keptAll_cons, writeAll, writeAll, List.append_nil, keptAll, partsAll, List.filter_nil, List.flatMap_nil,
    List.append_nil] at hkept

theorem collapse_fallback : collapse (fallback l) = fallback l := by
  have hcollapse : (collapse (fallback l)).toList = (fallbackNode l).kept :=
    collapse_element (fallbackNode_sound l) (isSeparated_of_isPlain _ (fallbackNode_plain l))
  rw [← String.toList_inj, hcollapse, kept_fallbackNode, fallback, render, String.toList_ofList]

theorem trees_fallbackButton (action color label : String) : ∃ t, (fallbackButton action color label).trees = [t] ∧
    t.elements.filter Tree.isButton = [t] ∧ t.attribute? "data-cmp-action" = some (escape action) := by
  rw [fallbackButton, trees_element]
  refine ⟨_, rfl, ?_, ?_⟩
  · simp [Tree.elements, treesAll, elementsAll_text, Tree.isButton]
  · rw [Tree.attribute?, get?_written]
    rfl

/-- The fallback is read as one element with two buttons, which ask to reject and to accept everything. -/
theorem fallback_buttons : ∃ root reject accept, read? (fallback l) = some [root] ∧
    root.elements.filter Tree.isButton = [reject, accept] ∧
    reject.attribute? "data-cmp-action" = some (Named.name ActionKind.rejectAll) ∧
    accept.attribute? "data-cmp-action" = some (Named.name ActionKind.acceptAll) := by
  obtain ⟨reject, hreject, hrejects, haction⟩ := trees_fallbackButton "reject_all" "#f44336" "Reject"
  obtain ⟨accept, haccept, haccepts, haction'⟩ := trees_fallbackButton "accept_all" "#4CAF50" "Accept"
  have hread : read? (collapse (fallback l)) = some [_] := read_collapse (fallbackNode_sound l) (fallbackNode_plain l)
  rw [collapse_fallback] at hread
  have hescape : escape "reject_all" = "reject_all" ∧ escape "accept_all" = "accept_all" := by decide
  rw [hescape.1] at haction
  rw [hescape.2] at haction'
  refine ⟨_, reject, accept, hread, ?_, haction, haction'⟩
  simp [treesAll, trees_element, hreject, haccept, Tree.elements, Tree.elementsAll, elementsAll_text, Tree.isButton,
    hrejects, haccepts]

theorem absoluteReferences_fallback (baseUrl : String) :
    Asset.absoluteReferences (fallback l) baseUrl = fallback l := by
  have hpictures : Pictures (fun (_ : Empty) _ => True) [] (fallbackNode l).write := by
    have h := (inert_fallbackNode l).lays.before .nil
    rwa [(inert_fallbackNode l).kept, writeAll, writeAll, List.append_nil, List.append_nil, List.append_nil] at h
  have hbracket : '(' ∉ (fallbackNode l).write := by
    have h := (inert_fallbackNode l).bracket
    rwa [writeAll, writeAll, List.append_nil] at h
  rw [Asset.absoluteReferences, fallback, render, String.toList_ofList, hpictures.absoluteList_eq_self hbracket]

end Fallback

end ConsentBanner.Markup
