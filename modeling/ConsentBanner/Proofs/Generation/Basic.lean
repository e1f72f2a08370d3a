import ConsentBanner.Generation.Basic
import ConsentBanner.Proofs.Markup.Banner
import ConsentBanner.Proofs.Template.Outline
import ConsentBanner.Proofs.Template.Read
import ConsentBanner.Proofs.Validation.Basic

/-!
Generated banners offer the answers that their components ask for.
-/

namespace ConsentBanner

open Validation

/-- A raw component that is drawn as a control for an action. -/
def Validation.RawComponent.IsControl (a : ActionKind) (c : RawComponent) : Prop :=
  (c.kind = .str (Named.name ComponentKind.button) ∨ c.kind = .str (Named.name ComponentKind.link)) ∧
    c.action = .str (Named.name a)

namespace Generation

theorem checkedTemplate_eq_ok {x : Checked Template} {t : Template} (h : checkedTemplate x = .ok t) :
    x = .valid t := by
  cases x with
  | valid _ =>
    cases h
    rfl
  | invalid issues => cases h
  | fault f => cases h

theorem read_components {fields : List (String × Json)} {items : List Json} {t : Template}
    (hv : Fields.get? "components" fields = some (.arr items)) (h : Template.read (.obj fields) = .valid t) :
    Component.readAll 0 items = .valid t.components := by
  simp only [Template.read, Reader.model, Checked.seq_eq_valid, Checked.map_eq_valid] at h
  obtain ⟨_, settings, ⟨_, theme, ⟨_, components, ⟨_, layout, ⟨_, name, ⟨id, -, rfl⟩, -, rfl⟩, -, rfl⟩, hc, rfl⟩,
    -, rfl⟩, -, rfl⟩ := h
  exact Reader.field_eq_valid hv hc

/-- The fields that are read in the place of those of a template without complaints: its components have percentages
for offsets and absolute addresses for images, and everything else is as it was. -/
structure Adapted (limits : Limits) (baseUrl : String) (fields : List (String × Json)) (roots : List Json)
    (fields' : List (String × Json)) : Prop where
  layout : ∃ layout, valueOf "layout" fields = .obj layout ∧ LayoutFits limits layout
  settings : valueOf "settings" fields = .null ∨
    ∃ settings, valueOf "settings" fields = .obj settings ∧ SettingsFit settings
  components : Fields.get? "components" fields = some (.arr roots)
  forest : ForestFits limits (Template.normalizeComponents roots)
  items : Fields.get? "components" fields' =
    some (.arr (Asset.resolveComponents baseUrl (Template.normalizeComponents roots)))
  other : ∀ key, (key == "components") = false → Fields.get? key fields' = Fields.get? key fields

theorem prepare_eq {limits : Limits} {options : Options} {fields : List (String × Json)}
    (h : normalizedComplaints limits (.obj fields) = .ok []) :
    ∃ roots fields', Adapted limits options.baseUrl fields roots fields' ∧
      prepare limits options (.obj fields) = checkedTemplate (Template.read (.obj fields')) := by
  obtain ⟨normalized, hn, hc⟩ := bind_eq_ok.1 h
  obtain ⟨fields₁, rfl, hnormalized⟩ := Template.normalizePositions_obj hn
  obtain ⟨fields₂, hobj, hresolved⟩ := Asset.resolveTemplate_obj options.baseUrl fields₁
  have hfits : WellFormed limits fields₁ := (complaints_eq_nil_iff hc).1 rfl
  obtain ⟨roots₁, hroots₁, hforest⟩ := hfits.components
  have hget₁ := get?_of_valueOf hroots₁ (by simp)
  obtain ⟨v, hget, hlist⟩ := Option.map_eq_some_iff.1 (hnormalized.get?_components.symm.trans hget₁)
  obtain ⟨roots, rfl, rfl⟩ := Template.normalize_keepsOutline.eq_list hlist
  have hlayout := hfits.layout
  have hsettings := hfits.settings
  rw [valueOf, hnormalized.get?_other rfl] at hlayout hsettings
  refine ⟨roots, fields₂, ⟨hlayout, hsettings, hget, hforest, ?_, fun key hkey => ?_⟩, ?_⟩
  · rw [hresolved.get?_components, hget₁, Option.map_some, Asset.resolveChildren]
  · rw [hresolved.get?_other hkey, hnormalized.get?_other hkey]
  · rw [prepare, h]
    dsimp only [mapError_ok, bind, Except.bind]
    rw [hn, ← hobj]
    rfl

theorem valid_of_prepare {limits : Limits} {options : Options} {template : Json} {t : Template}
    (h : prepare limits options template = .ok t) :
    ∃ fields, template = .obj fields ∧ normalizedComplaints limits (.obj fields) = .ok [] := by
  simp only [prepare, bind_eq_ok, mapError_eq_ok] at h
  obtain ⟨cs, hcs, h⟩ := h
  split at h
  · cases h
  rename_i hcs'
  simp only [Bool.not_eq_true', Bool.not_eq_false, List.isEmpty_iff] at hcs'
  subst hcs'
  cases template with
  | obj fields => exact ⟨fields, rfl, hcs⟩
  | _ => cases hcs

/-- A template that is prepared is an object whose components offer both answers, and they are those that are
read once their offsets and images are adapted. -/
theorem prepare_spec {limits : Limits} {options : Options} {template : Json} {t : Template}
    (h : prepare limits options template = .ok t) :
    ∃ fields roots, template = .obj fields ∧ Fields.get? "components" fields = some (.arr roots) ∧
      Offers .acceptAll (componentsIn 0 roots) ∧ Offers .rejectAll (componentsIn 0 roots) ∧
      Component.readAll 0 (Asset.resolveComponents options.baseUrl (Template.normalizeComponents roots)) =
        .valid t.components := by
  obtain ⟨fields, rfl, hvalid⟩ := valid_of_prepare h
  obtain ⟨roots, fields', hadapted, hprepare⟩ := @prepare_eq limits options fields hvalid
  have hread := checkedTemplate_eq_ok (hprepare.symm.trans h)
  have hasks := Template.normalize_keepsOutline.asks_items 0 roots
  exact ⟨fields, roots, rfl, hadapted.components, (offers_congr hasks).1 hadapted.forest.accepts,
    (offers_congr hasks).1 hadapted.forest.rejects, read_components hadapted.items hread⟩

theorem generate_markup {stages : Stages} {config : Configuration} {options : Options} {template : Json}
    {artifacts : Artifacts} (h : generate stages config options template = .ok artifacts) :
    ∃ t, prepare config.limits options template = .ok t ∧
      (artifacts.markup, artifacts.markupFallback) = markupPart stages options t := by
  simp only [generate, bind_eq_ok] at h
  obtain ⟨t, ht, script, -, h⟩ := h
  cases h
  exact ⟨t, ht, rfl⟩

theorem missingFrom_self (names : List String) : Script.missingFrom names names = [] := by
  have hf : (names.filter fun name => !names.contains name) = [] := by
    rw [List.filter_eq_nil_iff]
    intro name hn
    simp [hn]
  rw [Script.missingFrom, hf]
  simp [Script.sortedNames]

theorem skeleton_slots (c : ClientConfig) (components : List Component) (p : Parts) :
    Client.skeleton.slots = (slotValues c components p).map (·.1) := by
  simp only [slotValues, List.map_cons, List.map_nil]
  decide

theorem fill_slotValues (c : ClientConfig) (components : List Component) (p : Parts) :
    Client.skeleton.fill (slotValues c components p) =
      .ok (String.ofList (Client.skeleton.substitute (slotValues c components p) Client.segments)) := by
  have hown : ((slotValues c components p).map (·.1)).contains Script.Skeleton.ownName = false := by
    simp only [slotValues, List.map_cons, List.map_nil]
    decide
  rw [Script.Skeleton.fill]
  simp only [hown, skeleton_slots c components p, missingFrom_self]
  rfl

theorem scriptPart_standard (options : Options) (identity : Identity) (t : Template) (parts : Parts) :
    ∃ script, scriptPart Stages.standard options identity t parts = .ok script := by
  rw [scriptPart]
  simp only [Stages.standard, fill_slotValues, mapError_ok]
  exact ⟨_, rfl⟩

/-- A template that can be prepared has its banner generated. -/
theorem generate_standard {config : Configuration} {options : Options} {template : Json} {t : Template}
    (h : prepare config.limits options template = .ok t) :
    ∃ artifacts, generate Stages.standard config options template = .ok artifacts ∧
      artifacts.markup = Asset.absoluteReferences (Markup.ofTemplate options.language t) options.baseUrl := by
  cases hg : generate Stages.standard config options template with
  | ok artifacts =>
    obtain ⟨t', ht, hm⟩ := generate_markup hg
    cases h.symm.trans ht
    exact ⟨artifacts, rfl, congrArg Prod.fst hm⟩
  | error f =>
    simp only [generate, bind_eq_error, h] at hg
    rcases hg with hg | ⟨_, ⟨⟩, hg | ⟨script, -, hg⟩⟩
    · cases hg
    · obtain ⟨script, hs⟩ := scriptPart_standard options config.identity t _
      cases hs.symm.trans hg
    · cases hg

theorem control_of_raw {baseUrl : String} {roots : List Json} {cs : List Component} {a : ActionKind}
    (hread : Component.readAll 0 (Asset.resolveComponents baseUrl (Template.normalizeComponents roots)) = .valid cs)
    {c : RawComponent} (hc : c ∈ componentsIn 0 roots) (ha : c.IsControl a) :
    ∃ data ∈ Component.everyDataIn cs, Component.IsControl a data := by
  have hasks := ((Asset.resolve_keepsOutline baseUrl).asks_items 0 (Template.normalizeComponents roots)).trans
    (Template.normalize_keepsOutline.asks_items 0 roots)
  have hmem := List.mem_map_of_mem (f := RawComponent.asks) hc
  rw [← hasks] at hmem
  obtain ⟨c', hc', he⟩ := List.mem_map.1 hmem
  simp only [RawComponent.asks, Prod.mk.injEq] at he
  obtain ⟨hk | hk, ha⟩ := ha
  · obtain ⟨data, hd, hdk, hda⟩ := Component.readAll_everyData _ hread c' hc' (he.1.trans hk) (he.2.trans ha)
    exact ⟨data, hd, .inl hdk, hda⟩
  · obtain ⟨data, hd, hdk, hda⟩ := Component.readAll_everyData _ hread c' hc' (he.1.trans hk) (he.2.trans ha)
    exact ⟨data, hd, .inr hdk, hda⟩

theorem absoluteReferences_contains {markup : String} (baseUrl : String) {a : ActionKind}
    (ha : a = .acceptAll ∨ a = .rejectAll) (h : Text.contains (Markup.controlMark a) markup = true) :
    Text.contains (Markup.controlMark a) (Asset.absoluteReferences markup baseUrl) = true := by
  rw [Text.contains_iff] at h ⊢
  exact Asset.infix_absoluteReferences (Markup.controlMark_intact ha) h

/-- A banner whose consent is asked for by a text, which is no control. -/
def textTemplate : Json := .obj [
  ("layout", .obj [("desktop", .obj [("type", .str "banner"), ("position", .str "bottom")])]),
  ("components", .arr [
    .obj [("id", .str "yes"), ("type", .str "text"), ("action", .str "accept_all")],
    .obj [("id", .str "no"), ("type", .str "button"), ("action", .str "reject_all")]])]

end Generation

end ConsentBanner
