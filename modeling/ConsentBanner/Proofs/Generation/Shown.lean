import ConsentBanner.Proofs.Generation.Forest
import ConsentBanner.Proofs.Template.Content

/-!
The texts that are shown of a prepared template beside those that were checked.
-/

namespace ConsentBanner

open Checked Reader Validation

namespace Generation

theorem Likens.not_bypasses {fields : List (String × Json)} {data : ComponentData} (h : Likens fields data)
    (hlabel : data.action.kind.defaultLabel? = none) : ¬ Bypasses (actionOf fields) := by
  rintro ⟨a, ha, hsome⟩
  rw [← h.kind_of_action ha, hlabel] at hsome
  cases hsome

/-- Texts, buttons and links are no images, so that preparing them leaves their content as it is. -/
theorem isImage_of_bearsText {fields : List (String × Json)} {k : ComponentKind}
    (hkind : valueOf "type" fields = .str (Named.name k)) (hk : k.bearsText = true) :
    Asset.isImage (Template.normalizeFields fields) = false := by
  rw [Asset.isImage, Template.get?_normalizeFields_of_ne rfl rfl, get?_of_valueOf hkind nofun]
  cases k with
  | text => rfl
  | button => rfl
  | link => rfl
  | _ => cases hk

/-- A component has a text that keeps the rules, and it is the one that is shown wherever a language has no text of its
own, unless its content mixes several texts. -/
structure Shows (limits : Limits) (fields : List (String × Json)) (data : ComponentData) (checked : Json) : Prop where
  raw : rawText (valueOf "content" fields) = .ok checked
  fits : TextFits limits checked
  shown : Content.Unmixed (valueOf "content" fields) → checked = .str (data.text none)

/-- Where the checked text is shown, the text for a language keeps the rules exactly if the language has no text of its
own that breaks them. -/
theorem Shows.text_iff {limits : Limits} {fields : List (String × Json)} {data : ComponentData} {checked : Json}
    (h : Shows limits fields data checked) (hunmixed : Content.Unmixed (valueOf "content" fields)) (language : String) :
    TextFits limits (.str (data.text (some language))) ↔
      ∀ s, data.content.own? language = some s → TextFits limits (.str s) := by
  have hfits := h.fits
  rw [h.shown hunmixed, ComponentData.text] at hfits
  rw [ComponentData.text, Content.resolve_some]
  cases data.content.own? language with
  | none => simp [hfits]
  | some s => simp

theorem shows_of_fits {limits : Limits} {baseUrl : String} {fields : List (String × Json)} {data : ComponentData}
    (hfits : FieldsFit limits (Template.normalizeFields fields))
    (hreads : Component.ReadsAs (preparedFields baseUrl fields) data) (hlikens : Likens fields data)
    (hbears : data.kind.bearsText = true) (hlabel : data.action.kind.defaultLabel? = none) :
    ∃ checked, Shows limits fields data checked := by
  have htext := hfits.text data.kind
  rw [Template.valueOf_normalizeFields rfl rfl, Template.valueOf_normalizeFields rfl rfl,
    Template.actionOf_normalizeFields] at htext
  obtain ⟨checked, hraw, hchecked⟩ := htext hlikens.kind hbears (hlikens.not_bypasses hlabel)
  refine ⟨checked, hraw, hchecked, fun hunmixed => ?_⟩
  have hcontent : Fields.get? "content" (preparedFields baseUrl fields) = some (valueOf "content" fields) := by
    rw [get?_preparedContent, isImage_of_bearsText hlikens.kind hbears]
    cases hget : Fields.get? "content" fields with
    | none =>
      rw [valueOf, hget] at hraw
      cases hraw
      exact (Content.not_textFits_empty hchecked).elim
    | some v => simp [valueOf, hget]
  exact Content.resolve_of_unmixed hunmixed hraw hchecked (field_eq_valid hcontent hreads.content)

/-- The texts of a prepared template. Each text, button or link without a label of its own comes from a raw one with a
text that is not blank and not too long, and in unmixed content this is the text that is shown, for every language,
unless the language has a text of its own; so the text for a language keeps the rules exactly if such a text does. -/
theorem prepare_text {limits : Limits} {options : Options} {template : Json} {t : Template}
    (h : prepare limits options template = .ok t) :
    ∃ fields roots, template = .obj fields ∧ Fields.get? "components" fields = some (.arr roots) ∧
      ∀ data ∈ Component.everyDataIn t.components, data.kind.bearsText = true →
        data.action.kind.defaultLabel? = none →
        ∃ raw ∈ componentsIn 0 roots, Likens raw.fields data ∧
          ∃ checked, Shows limits raw.fields data checked ∧
            (Content.Unmixed (valueOf "content" raw.fields) → ∀ language,
              (TextFits limits (.str (data.text (some language))) ↔
                ∀ s, data.content.own? language = some s → TextFits limits (.str s))) := by
  obtain ⟨fields, roots, rfl, hroots, -, hmirrors⟩ := prepare_mirrors h
  refine ⟨fields, roots, rfl, hroots, fun data hdata hbears hlabel => ?_⟩
  obtain ⟨raw, hraw, hfits, hreads⟩ := Component.exists_raw hmirrors data hdata
  have hlikens := likens_of_readsAs hfits hreads
  obtain ⟨checked, hshows⟩ := shows_of_fits hfits hreads hlikens hbears hlabel
  exact ⟨raw, hraw, hlikens, checked, hshows, hshows.text_iff⟩

/-- A banner with a text that is blank in German, and one that is given beside an empty map of texts. -/
def mutedTemplate : List (String × Json) :=
  [("layout", .obj [("desktop", .obj [("type", .str "banner"), ("position", .str "bottom")])]),
    ("components", .arr [
      .obj [("id", .str "hello"), ("type", .str "text"), ("content", .obj [
        ("texts", .obj [("en", .str "Welcome"), ("de", .str "   ")])])],
      .obj [("id", .str "lost"), ("type", .str "text"), ("content", .obj [
        ("texts", .obj []), ("text", .str "Welcome")])],
      .obj [("id", .str "yes"), ("type", .str "button"), ("action", .str "accept_all")],
      .obj [("id", .str "no"), ("type", .str "button"), ("action", .str "reject_all")]])]

/-- Texts that were found to keep the rules are not those that are shown: one of them is blank in German, and the other
one is not shown at all. -/
theorem prepare_text_muted : ∃ t, prepare {} {} (.obj mutedTemplate) = .ok t ∧
    ∃ hello ∈ Component.everyDataIn t.components, ∃ lost ∈ Component.everyDataIn t.components,
      (∃ fields checked, Shows {} fields hello checked) ∧ ¬ TextFits {} (.str (hello.text (some "de"))) ∧
      (∃ fields checked, Shows {} fields lost checked) ∧ ∀ language, lost.text (some language) = "" := by
  obtain ⟨t, ht⟩ : ∃ t, prepare {} {} (.obj mutedTemplate) = .ok t := exists_eq_ok (by decide +kernel)
  have hread : (prepare {} {} (.obj mutedTemplate)).toOption.map (fun t =>
      (Component.everyDataIn t.components).map fun d => (d.kind, d.action.kind, d.content)) =
      some [(.text, .none, .localized [("en", "Welcome"), ("de", "   ")]), (.text, .none, .localized []),
        (.button, .acceptAll, .plain ""), (.button, .rejectAll, .plain "")] := by decide +kernel
  rw [ht, Except.toOption, Option.map_some, Option.some.injEq] at hread
  have hmem (kind : ComponentKind) (a : ActionKind) (content : Content)
      (h : (kind, a, content) ∈ (Component.everyDataIn t.components).map fun d => (d.kind, d.action.kind, d.content)) :
      ∃ d ∈ Component.everyDataIn t.components, d.kind = kind ∧ d.action.kind = a ∧ d.content = content := by
    obtain ⟨d, hd, he⟩ := List.mem_map.1 h
    cases he
    exact ⟨d, hd, rfl, rfl, rfl⟩
  obtain ⟨hello, hhello, hkind, haction, hcontent⟩ := hmem .text .none _ (by rw [hread]; exact .head _)
  obtain ⟨lost, hlost, hkind', haction', hcontent'⟩ := hmem .text .none _ (by rw [hread]; exact .tail _ (.head _))
  obtain ⟨_, roots, -, -, hall⟩ := prepare_text ht
  obtain ⟨raw, -, -, checked, hshows, -⟩ := hall hello hhello (by rw [hkind]; rfl) (by rw [haction]; rfl)
  obtain ⟨raw', -, -, checked', hshows', -⟩ := hall lost hlost (by rw [hkind']; rfl) (by rw [haction']; rfl)
  refine ⟨t, ht, hello, hhello, lost, hlost, ⟨_, _, hshows⟩, ?_, ⟨_, _, hshows'⟩, fun language => ?_⟩
  · have hblank : hello.text (some "de") = "   " := by
      rw [ComponentData.text, hcontent]
      rfl
    rw [hblank]
    rintro (_ | _)
    rename_i hb _
    cases hb
  · rw [ComponentData.text, hcontent', Content.resolve_some, Content.own?]
    split
    · rfl
    · rfl

end Generation

end ConsentBanner
