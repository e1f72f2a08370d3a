import ConsentBanner.Panel.Basic
import ConsentBanner.Proofs.Json.Path
import ConsentBanner.Proofs.Markup.Banner
import ConsentBanner.Proofs.Markup.Token

/-!
The preferences panel: where its texts come from, and what they can do to it. A caption is looked up in the language
asked for, in English and in the languages that are there, and has its default where none of them has a text for it. A
panel is read as tags and texts; its colours and captions change none of the tags but for their styles and labels, and
the captions stand where they stand in the panel without overrides.
-/

namespace ConsentBanner.Panel

section Captions

/-- Texts by language, each under the name of a caption. -/
structure Overrides where
  texts : List (String × List (String × String))

namespace Overrides

/-- The texts of a language as a value. -/
def languageJson (texts : List (String × String)) : Json := .obj (texts.map fun x => (x.1, .str x.2))

def fields (o : Overrides) : List (String × Json) := o.texts.map fun x => (x.1, languageJson x.2)

def json (o : Overrides) : Json := .obj o.fields

/-- The text of a caption in a language, if there is one. -/
def text? (o : Overrides) (c : Caption) (language : String) : Option String :=
  ((Fields.get? language o.texts).bind (Fields.get? (Named.name c))).filter (· != "")

/-- The text that is shown for a caption. -/
def shown (o : Overrides) (language : String) (c : Caption) : String :=
  ((language :: "en" :: o.texts.map (·.1)).findSome? (o.text? c)).getD c.default

end Overrides

theorem findSome?_filter {α β : Type} {p : α → Bool} {f : α → Option β} (as : List α)
    (h : ∀ a, p a = false → f a = none) : (as.filter p).findSome? f = as.findSome? f := by
  induction as with
  | nil => rfl
  | cons a as ih =>
    cases hp : p a with
    | true => rw [List.filter_cons_of_pos hp, List.findSome?_cons, List.findSome?_cons, ih]
    | false => rw [List.filter_cons_of_neg (by simp [hp]), List.findSome?_cons, h a hp, ih]

variable (o : Overrides) (language : String) (c : Caption)

theorem override?_fields : override? o.fields c language = .ok ((o.text? c language).map .str) := by
  have hlanguage := Fields.get?_mapValues (fun _ => Overrides.languageJson) language o.texts
  rw [override?, Overrides.fields, hlanguage, Overrides.text?]
  cases Fields.get? language o.texts with
  | none => rfl
  | some texts =>
    cases texts with
    | nil => rfl
    | cons text texts =>
      have hname := Fields.get?_mapValues (fun _ => Json.str) (Named.name c) (text :: texts)
      simp only [Option.map_some, Option.getD_some, Option.bind_some, Overrides.languageJson, hname]
      cases Fields.get? (Named.name c) (text :: texts) with
      | none => rfl
      | some s =>
        by_cases hs : s = ""
        · rw [hs]
          rfl
        · simp [Json.isSet, hs, Option.filter]

theorem resolve_fields (ls : List String) :
    resolve o.fields c ls = .ok (.str ((ls.findSome? (o.text? c)).getD c.default)) := by
  induction ls with
  | nil => rfl
  | cons l ls ih =>
    rw [resolve, override?_fields, List.findSome?_cons]
    cases o.text? c l with
    | none => exact ih
    | some s => rfl

theorem resolve_languages :
    resolve o.fields c (languages o.fields language) = .ok (.str (o.shown language c)) := by
  have hkeys : o.fields.map (·.1) = o.texts.map (·.1) := Fields.keys_mapValues (fun _ => Overrides.languageJson) o.texts
  rw [languages, hkeys, resolve_fields, Overrides.shown, List.findSome?_cons, List.findSome?_cons,
    List.findSome?_cons, List.findSome?_cons]
  -- Where the first two languages have no text, it does not matter whether they are asked again.
  cases hfirst : o.text? c language with
  | some s => rfl
  | none =>
    cases hen : o.text? c "en" with
    | some s => rfl
    | none =>
      rw [findSome?_filter]
      intro l hl
      rw [Bool.and_eq_false_iff, bne_eq_false_iff_eq, bne_eq_false_iff_eq] at hl
      rcases hl with rfl | rfl
      · exact hfirst
      · exact hen

theorem resolveAll_languages (cs : List Caption) :
    resolveAll o.fields (languages o.fields language) cs = .ok (cs.map fun c => (c, .str (o.shown language c))) := by
  induction cs with
  | nil => rfl
  | cons c cs ih =>
    rw [resolveAll, resolve_languages, ih]
    rfl

theorem resolveAll_nil (cs : List Caption) : resolveAll [] [] cs = .ok (cs.map fun c => (c, .str c.default)) := by
  induction cs with
  | nil => rfl
  | cons c cs ih =>
    rw [resolveAll, ih]
    rfl

theorem captions_json : captions o.json language = .ok (Named.all.map fun c => (c, .str (o.shown language c))) := by
  obtain ⟨texts⟩ := o
  cases texts with
  | nil =>
    exact resolveAll_nil Named.all
  | cons text texts => exact resolveAll_languages ⟨text :: texts⟩ language Named.all

theorem find?_all : (Named.all : List Caption).find? (· == c) = some c := by
  cases c with
  | category c => cases c <;> rfl
  | categoryDescription c => cases c <;> rfl
  | _ => rfl

/-- What a panel shows whose captions have given texts. -/
def Content.filled (palette : Palette) (text : Caption → String) : Content :=
  ⟨palette, Named.all.map fun c => (c, .str (text c))⟩

theorem Content.caption_filled (palette : Palette) (text : Caption → String) : (filled palette text).caption = text := by
  funext c
  have hfind : (Named.all.map fun c => (c, Json.str (text c))).find? (·.1 == c) = some (c, .str (text c)) := by
    rw [List.find?_map]
    exact congrArg (Option.map _) (find?_all c)
  rw [caption, filled, hfind]
  rfl

theorem ofTheme_json (colors : ThemeColors) :
    ofTheme colors o.json language =
      .ok (Markup.collapse (Content.filled (.ofColors colors) (o.shown language)).node.render) := by
  rw [ofTheme, captions_json]
  rfl

/-- Without overrides a panel shows the defaults, whatever the language. -/
theorem ofTheme_null (colors : ThemeColors) :
    ofTheme colors .null language =
      .ok (Markup.collapse (Content.filled (.ofColors colors) Caption.default).node.render) := by
  have hcaptions : captions .null language = .ok (Named.all.map fun c => (c, .str c.default)) :=
    resolveAll_nil Named.all
  rw [ofTheme, hcaptions]
  rfl

end Captions

open Markup Node

/-- The texts of a panel, in the order in which they are read. -/
def texts (text : Caption → String) : List String :=
  [text .title, "×", text .tabGeneral, text .tabVendors, text .tabPurposes, text .description] ++
  ((Named.all : List Category).flatMap fun c => [text (.category c), text (.categoryDescription c)]) ++
  (Vendor.known.map fun vendor => vendor.2) ++
  (Purpose.known.map fun purpose => toString purpose.1 ++ ". " ++ purpose.2) ++
  [text .rejectAll, text .save, text .acceptAll]

/-- The labels of a panel, in the order in which they are read. -/
def labels (text : Caption → String) : List String :=
  text .close :: ((Named.all : List Category).map fun c => text (.category c)) ++
  Vendor.known.map fun vendor => vendor.2

namespace Content

theorem headerNode_form :
    IsForm (fun p : Content => p.headerNode.tokens) (fun p => [p.caption .title, "×"]) fun p => [p.caption .close] := by
  have htimes : IsForm (fun _ : Content => (Node.reference "times").tokens) (fun _ => ["×"]) fun _ => [] :=
    .reference "times" (by decide) (by decide)
  simp only [headerNode]
  refine .cast (.element ?_ (.cons (.element ?_ (.single (.text _)))
    (.single (.element ?_ (.single htimes))))) (fun _ => rfl) ?_
  all_goals simp [valued]

theorem tabNode_form (active : Bool) (id : String) (c : Caption) :
    IsForm (fun p : Content => (p.tabNode active id c).tokens) (fun p => [p.caption c]) fun _ => [] := by
  simp only [tabNode]
  refine .cast (.element ?_ (.single (.text _))) (fun _ => rfl) ?_
  all_goals simp [valued]

theorem tabsNode_form :
    IsForm (fun p : Content => p.tabsNode.tokens)
      (fun p => [p.caption .tabGeneral, p.caption .tabVendors, p.caption .tabPurposes]) fun _ => [] := by
  simp only [tabsNode]
  refine .cast (.element ?_ (.cons (tabNode_form _ _ _) (.cons (tabNode_form _ _ _) (.single (tabNode_form _ _ _)))))
    (fun _ => rfl) ?_
  all_goals simp [valued]

theorem switchNode_form (c : Category) :
    IsForm (fun p : Content => (p.switchNode c).tokens) (fun _ => []) fun p => [p.caption (.category c)] := by
  cases hc : c == Category.necessary
  all_goals
    simp only [switchNode, hc]
    refine .cast (.element ?_ (.cons (.empty ?_) (.single (.element ?_ .nil)))) (fun _ => rfl) ?_
    all_goals simp [valued, List.filterMap]

theorem categoryNode_form (c : Category) :
    IsForm (fun p : Content => (p.categoryNode c).tokens)
      (fun p => [p.caption (.category c), p.caption (.categoryDescription c)]) fun p => [p.caption (.category c)] := by
  simp only [categoryNode]
  refine .cast (.element ?_ (.cons (.element ?_ (.cons (.element ?_ (.single (.text _)))
    (.single (.element ?_ (.single (.text _))))))
      (.single (switchNode_form c)))) (fun _ => rfl) ?_
  all_goals simp [valued]

theorem vendorNode_form (vendor : Int × String) :
    IsForm (fun p : Content => (p.vendorNode vendor).tokens) (fun _ => [vendor.2]) fun _ => [vendor.2] := by
  simp only [vendorNode]
  refine .cast (.element ?_ (.cons (.element ?_ (.single (.text _))) (.single (.empty ?_))))
    (fun _ => rfl) ?_
  all_goals simp [valued]

theorem purposeNode_form (purpose : Int × String) :
    IsForm (fun p : Content => (p.purposeNode purpose).tokens) (fun _ => [toString purpose.1 ++ ". " ++ purpose.2])
      fun _ => [] := by
  simp only [purposeNode]
  refine .cast (.element ?_ (.single (.text _))) (fun _ => rfl) ?_
  all_goals simp [valued]

theorem bodyNode_form :
    IsForm (fun p : Content => p.bodyNode.tokens)
      (fun p => p.caption .description ::
        ((Named.all : List Category).flatMap fun c => [p.caption (.category c), p.caption (.categoryDescription c)]) ++
        (Vendor.known.map fun vendor => vendor.2) ++
        (Purpose.known.map fun purpose => toString purpose.1 ++ ". " ++ purpose.2))
      fun p => ((Named.all : List Category).map fun c => p.caption (.category c)) ++
        Vendor.known.map fun vendor => vendor.2 := by
  have hcategories := IsForm.map categoryNode_form Named.all
  have hvendors := IsForm.map vendorNode_form Vendor.known
  have hpurposes := IsForm.map purposeNode_form Purpose.known
  simp only [bodyNode, tabPanel, listNode]
  refine .cast (.element ?_ (.cons (.element ?_ (.cons (.element ?_ (.single (.text _))) hcategories))
    (.cons (.element ?_ (.single (.element ?_ hvendors)))
      (.single (.element ?_ (.single (.element ?_ hpurposes))))))) ?_ ?_
  all_goals simp [valued, List.map_eq_flatMap]

theorem footerButton_form (action : String) (style label : Content → String) :
    IsForm (fun p : Content => (footerButton action (style p) (label p)).tokens) (fun p => [label p]) fun _ => [] := by
  simp only [footerButton]
  refine .cast (.element ?_ (.single (.text _))) (fun _ => rfl) ?_
  all_goals simp [valued]

theorem footerNode_form :
    IsForm (fun p : Content => p.footerNode.tokens)
      (fun p => [p.caption .rejectAll, p.caption .save, p.caption .acceptAll]) fun _ => [] := by
  simp only [footerNode]
  refine .cast (.element ?_ (.cons (footerButton_form _ _ _) (.cons (footerButton_form _ _ _)
    (.single (footerButton_form _ _ _))))) (fun _ => rfl) ?_
  all_goals simp [valued]

theorem node_form :
    IsForm (fun p : Content => p.node.tokens) (fun p => texts p.caption) fun p => labels p.caption := by
  simp only [node]
  refine .cast (.element ?_ (.single (.element ?_ (.cons headerNode_form (.cons tabsNode_form
    (.cons bodyNode_form (.single footerNode_form))))))) ?_ ?_
  all_goals simp [valued, Panel.texts, Panel.labels]

section Read

variable (p : Content)

theorem tabNode_sound (active : Bool) (id : String) (c : Caption) : (p.tabNode active id c).isSound = true := by
  simp only [tabNode, isSound_element, areSound, isSound_text, List.map_cons, List.map_nil]
  decide

theorem switchNode_sound (c : Category) : (p.switchNode c).isSound = true := by
  have hlocked : (if (c == Category.necessary) = true then [Attribute.flag "checked", .flag "disabled"] else []).all
      (isWord ·.name) = true := by
    cases c <;> decide
  simp only [switchNode, isSound_element, isSound, areSound, List.all_append, names_valued, hlocked, List.map_cons,
    List.map_nil]
  decide

theorem categoryNode_sound (c : Category) : (p.categoryNode c).isSound = true := by
  simp only [categoryNode, isSound_element, areSound, isSound_text, List.map_cons, List.map_nil, switchNode_sound]
  decide

theorem vendorNode_sound (vendor : Int × String) : (p.vendorNode vendor).isSound = true := by
  simp only [vendorNode, isSound_element, isSound_empty, areSound, isSound_text, List.map_cons, List.map_nil]
  decide

theorem purposeNode_sound (purpose : Int × String) : (p.purposeNode purpose).isSound = true := by
  simp only [purposeNode, isSound_element, areSound, isSound_text, List.map_cons, List.map_nil]
  decide

theorem node_sound : p.node.isSound = true := by
  simp only [node, headerNode, tabsNode, bodyNode, footerNode, footerButton, tabPanel, listNode, isSound_element,
    isSound, areSound, tabNode_sound, areSound_map p.categoryNode_sound, areSound_map p.vendorNode_sound,
    areSound_map p.purposeNode_sound, List.map_cons, List.map_nil]
  decide

theorem switchNode_separated (c : Category) : (p.switchNode c).isSeparated = true := by
  simp only [switchNode, Markup.element, isSeparated, areSeparated]
  rfl

theorem categoryNode_separated (c : Category) : (p.categoryNode c).isSeparated = true := by
  simp only [categoryNode, Markup.element, isSeparated, areSeparated, switchNode_separated]
  rfl

theorem vendorNode_separated (vendor : Int × String) : (p.vendorNode vendor).isSeparated = true := by
  simp only [vendorNode, Markup.element, isSeparated, areSeparated]
  rfl

theorem purposeNode_separated (purpose : Int × String) : (p.purposeNode purpose).isSeparated = true := by
  simp only [purposeNode, Markup.element, isSeparated, areSeparated]
  rfl

theorem node_separated : p.node.isSeparated = true := by
  have hcategories := all_block_map (f := p.categoryNode) (fun c => rfl) Named.all
  have hvendors := all_block_tail (all_block_map (f := p.vendorNode) (fun v => rfl) Vendor.known)
  have hpurposes := all_block_tail (all_block_map (f := p.purposeNode) (fun v => rfl) Purpose.known)
  simp only [node, headerNode, tabsNode, tabNode, bodyNode, footerNode, footerButton, tabPanel, listNode,
    Markup.element, isSeparated, areSeparated, areSeparated_map p.categoryNode_separated,
    areSeparated_map p.vendorNode_separated, areSeparated_map p.purposeNode_separated, List.tail_cons, hcategories,
    hvendors, hpurposes]
  rfl

theorem tokens?_node : tokens? (collapse p.node.render) = some p.node.tokens :=
  tokens?_collapse p.node_sound p.node_separated

end Read

end Content

section Default

theorem not_isBlankText_ofList {cs : List Char} (h : cs.all Text.isBlank = false) :
    Text.isBlankText (String.ofList cs) = false := by
  rw [Text.isBlankText_ofList, h]

theorem not_isBlankText_append {s t : String} (h : Text.isBlankText t = false) : Text.isBlankText (s ++ t) = false := by
  rw [Text.isBlankText_append, h, Bool.and_false]

theorem not_isBlankText_default (c : Caption) : Text.isBlankText c.default = false := by
  cases c with
  | description => exact not_isBlankText_append (not_isBlankText_ofList (by decide))
  | category c => cases c <;> exact not_isBlankText_ofList (by decide)
  | categoryDescription c => cases c <;> exact not_isBlankText_ofList (by decide)
  | _ => exact not_isBlankText_ofList (by decide)

theorem not_isBlankText_vendor : ∀ vendor ∈ Vendor.known, Text.isBlankText vendor.2 = false := by
  repeat
    first
      | exact List.forall_mem_nil _
      | refine List.forall_mem_cons.2 ⟨not_isBlankText_ofList (by decide), ?_⟩

theorem not_isBlankText_purpose : ∀ purpose ∈ Purpose.known, Text.isBlankText purpose.2 = false := by
  repeat
    first
      | exact List.forall_mem_nil _
      | refine List.forall_mem_cons.2 ⟨not_isBlankText_ofList (by decide), ?_⟩

theorem texts_default : ∀ s ∈ texts Caption.default, Text.isBlankText s = false := by
  intro s hs
  simp only [texts, List.mem_append, List.mem_cons, List.not_mem_nil, or_false, List.mem_flatMap, List.mem_map] at hs
  obtain (((h | ⟨c, -, h⟩) | ⟨vendor, hvendor, rfl⟩) | ⟨purpose, hpurpose, rfl⟩) | h := hs
  · obtain rfl | rfl | h := h
    · exact not_isBlankText_default .title
    · exact not_isBlankText_ofList (by decide)
    · obtain rfl | rfl | rfl | rfl := h
      all_goals exact not_isBlankText_default _
  · obtain rfl | rfl := h
    all_goals exact not_isBlankText_default _
  · exact not_isBlankText_vendor vendor hvendor
  · exact not_isBlankText_append (not_isBlankText_purpose purpose hpurpose)
  · obtain rfl | rfl | rfl := h
    all_goals exact not_isBlankText_default _

end Default

/-- The panel of a theme and of overrides by language, in any language, has the tags of the panel without overrides,
with the same attributes and, but for styles and labels, the same values. Each text that is not blank stands where its
default stands, and each text and label is that of its caption. -/
theorem ofTheme_outline (colors : ThemeColors) (o : Overrides) (language : String) :
    ∃ default defaults panel tokens,
      ofTheme {} .null "en" = .ok default ∧ tokens? default = some defaults ∧
      ofTheme colors o.json language = .ok panel ∧ tokens? panel = some tokens ∧
      Token.outline tokens = Token.outline defaults ∧
      Token.placed tokens = shownAt ((Token.placed defaults).map (·.1)) (texts (o.shown language)) ∧
      Token.spoken tokens = labels (o.shown language) := by
  obtain ⟨places, hplaces⟩ := Content.node_form.placed
  refine ⟨_, _, _, _, ofTheme_null _ _, Content.tokens?_node _, ofTheme_json _ _ _, Content.tokens?_node _,
    Content.node_form.outline _ _, ?_, ?_⟩
  · -- No default is blank, so that the places of the texts can be read off the panel without overrides.
    obtain ⟨hlength, hdefaults⟩ := hplaces (.filled (.ofColors {}) Caption.default)
    rw [Content.caption_filled] at hlength hdefaults
    rw [(hplaces _).2, Content.caption_filled, hdefaults, shownAt_of_shown texts_default,
      List.map_fst_zip (Nat.le_of_eq hlength)]
  · rw [Content.node_form.spoken, Content.caption_filled]

end ConsentBanner.Panel
