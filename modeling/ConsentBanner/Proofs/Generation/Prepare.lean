import ConsentBanner.Proofs.Generation.Basic
import ConsentBanner.Proofs.Template.Fitted

/-!
Templates without complaints that can be prepared: what checks leave open decides.
-/

namespace ConsentBanner

open Checked Reader Validation

namespace Generation

/-- The fields of a component once its offsets are percentages and its image is at an absolute address. -/
def preparedFields (baseUrl : String) (fields : List (String × Json)) : List (String × Json) :=
  Asset.resolveFields baseUrl (Asset.isImage (Template.normalizeFields fields)) (Template.normalizeFields fields)

/-- The keys under which something is changed. -/
def isPreparedKey (key : String) : Bool := key == "position" || key == "content" || key == "children"

section Component

variable {baseUrl : String} {fields : List (String × Json)}

theorem get?_preparedFields {key : String} (h : isPreparedKey key = false) :
    Fields.get? key (preparedFields baseUrl fields) = Fields.get? key fields := by
  simp only [isPreparedKey, Bool.or_eq_false_iff] at h
  obtain ⟨⟨hposition, hcontent⟩, hchildren⟩ := h
  rw [preparedFields, Asset.get?_resolveFields, Template.get?_normalizeFields, Option.map_map]
  simp [Function.comp_def, hposition, hcontent, hchildren]

theorem get?_preparedContent : Fields.get? "content" (preparedFields baseUrl fields) =
    (Fields.get? "content" fields).map fun v =>
      if Asset.isImage (Template.normalizeFields fields) then Asset.resolveContent baseUrl v else v := by
  rw [preparedFields, Asset.get?_resolveFields, Template.get?_normalizeFields, Option.map_map]
  rfl

theorem get?_preparedPosition : Fields.get? "position" (preparedFields baseUrl fields) =
    (Fields.get? "position" fields).map Template.normalizePosition := by
  rw [preparedFields, Asset.get?_resolveFields, Template.get?_normalizeFields, Option.map_map]
  rfl

theorem find?_prepared {keys : List String} (h : keys.any isPreparedKey = false) :
    find? keys (preparedFields baseUrl fields) = find? keys fields := by
  apply find?_congr
  intro key hkey
  rw [List.any_eq_false] at h
  exact get?_preparedFields (by simpa using h key hkey)

theorem takes_prepared {α : Type} {read : Reader α} {keys : List String} (h : keys.any isPreparedKey = false) :
    Takes (preparedFields baseUrl fields) keys read ↔ Takes fields keys read := by
  rw [Takes, Takes, find?_prepared h]

/-- What checks leave open in a component is not changed when it is prepared. -/
theorem componentTyped_prepared : ComponentTyped (preparedFields baseUrl fields) ↔ ComponentTyped fields := by
  have hcontent : Takes (preparedFields baseUrl fields) ["content"] Content.read ↔
      Takes fields ["content"] Content.read := by
    rw [takes_singleton, takes_singleton, get?_preparedContent]
    cases Fields.get? "content" fields with
    | none => simp
    | some v =>
      simp only [Option.map_some, Option.some.injEq, forall_eq']
      split
      · exact isValid_resolveContent
      · rfl
  have haction : valueOf "action" (preparedFields baseUrl fields) = valueOf "action" fields := by
    rw [valueOf, get?_preparedFields (by decide)]
  constructor
  · rintro ⟨hid, hcontent', hstyle, haction', hconfig, halt, hlocked⟩
    rw [haction] at haction'
    exact ⟨(takes_prepared (by decide)).1 hid, hcontent.1 hcontent', (takes_prepared (by decide)).1 hstyle, haction',
      (takes_prepared (by decide)).1 hconfig, (takes_prepared (by decide)).1 halt,
      (takes_prepared (by decide)).1 hlocked⟩
  · rintro ⟨hid, hcontent', hstyle, haction', hconfig, halt, hlocked⟩
    rw [← haction] at haction'
    exact ⟨(takes_prepared (by decide)).2 hid, hcontent.2 hcontent', (takes_prepared (by decide)).2 hstyle, haction',
      (takes_prepared (by decide)).2 hconfig, (takes_prepared (by decide)).2 halt,
      (takes_prepared (by decide)).2 hlocked⟩

/-- A component that is free of complaints once its offsets are percentages fits when it is prepared. -/
theorem componentFitted_prepared {limits : Limits}
    (hfits : FieldsFit limits (Template.normalizeFields fields))
    (hchildren : ChildrenFit (valueOf "children" (Template.normalizeFields fields)))
    (hkeys : (Json.obj fields).keysOnce = true) (hshaped : BlocksShaped fields) :
    ComponentFitted (preparedFields baseUrl fields) := by
  constructor
  · intro hnone
    have hid := hfits.id
    rw [get?_preparedFields (by decide)] at hnone
    rw [Template.valueOf_normalizeFields rfl rfl, valueOf, hnone] at hid
    cases hid
  · obtain ⟨k, hk⟩ := hfits.kind
    have hget := get?_of_valueOf hk (by simp)
    rw [Template.get?_normalizeFields_of_ne rfl rfl] at hget
    exact ⟨k, by rw [get?_preparedFields (by decide), hget]⟩
  · have haction : Fields.get? "action" (preparedFields baseUrl fields) =
        Fields.get? "action" (Template.normalizeFields fields) := by
      rw [get?_preparedFields (by decide), Template.get?_normalizeFields_of_ne rfl rfl]
    rw [valueOf, actionOf, haction]
    exact hfits.action
  · have hget : Fields.get? "children" (preparedFields baseUrl fields) =
        (Fields.get? "children" (Template.normalizeFields fields)).map (Asset.resolveChildren baseUrl) := by
      rw [preparedFields, Asset.get?_resolveFields]
      rfl
    rw [valueOf, hget]
    rw [valueOf] at hchildren
    cases hv : Fields.get? "children" (Template.normalizeFields fields) with
    | none => exact .inl rfl
    | some v =>
      rw [hv] at hchildren
      obtain rfl | ⟨items, rfl⟩ := hchildren
      · exact .inl ((Asset.resolve_keepsOutline baseUrl).noList _ (by rintro _ ⟨⟩))
      · exact .inr ⟨_, (Asset.resolve_keepsOutline baseUrl).list items⟩
  · intro v' hv'
    rw [get?_preparedPosition] at hv'
    obtain ⟨v, hv, rfl⟩ := Option.map_eq_some_iff.1 hv'
    have hfit := hfits.position
    rw [valueOf, Template.get?_normalizeFields, hv] at hfit
    refine isValid_readPosition_normalized (Json.keysOnce_value hkeys hv) ?_ hfit
    rintro position rfl
    exact hshaped.position position (by rw [valueOf, hv, Option.getD_some])
  · intro v hv
    rw [get?_preparedFields (by decide)] at hv
    exact faultless_readStyle (hshaped.style v hv)
  · intro k v hv
    rw [find?_prepared (by decide)] at hv
    exact faultless_readContainerConfig (hshaped.config k v hv)

end Component

/-- A component once its offsets are percentages and its image is at an absolute address. -/
def prepared (baseUrl : String) (c : RawComponent) : RawComponent :=
  (c.changed Template.normalizeComponent).changed (Asset.resolveComponent baseUrl)

theorem componentsIn_prepared (baseUrl : String) (depth : Nat) (roots : List Json) :
    componentsIn depth (Asset.resolveComponents baseUrl (Template.normalizeComponents roots)) =
      (componentsIn depth roots).map (prepared baseUrl) := by
  rw [(Asset.resolve_keepsOutline baseUrl).componentsIn_change, Template.normalize_keepsOutline.componentsIn_change,
    List.map_map]
  rfl

theorem prepared_fits {limits : Limits} (baseUrl : String) {c : RawComponent}
    (hfits : ComponentFits limits (c.changed Template.normalizeComponent)) (hkeys : c.value.keysOnce = true)
    (hshaped : BlocksShaped c.fields) :
    prepared baseUrl c = ⟨c.depth, .obj (preparedFields baseUrl c.fields)⟩ ∧
      ComponentFitted (preparedFields baseUrl c.fields) := by
  obtain ⟨depth, v⟩ := c
  cases v with
  | obj fields =>
    have hvalue : (RawComponent.mk depth (.obj fields)).changed Template.normalizeComponent =
        ⟨depth, .obj (Template.normalizeFields fields)⟩ := by
      rw [RawComponent.changed, Template.normalizeComponent]
    rw [hvalue] at hfits
    constructor
    · rw [prepared, hvalue, RawComponent.changed, Asset.resolveComponent]
      rfl
    · exact componentFitted_prepared hfits.fields hfits.children hkeys hshaped
  | _ =>
    obtain ⟨_, hobj⟩ := hfits.object
    rw [RawComponent.changed, Template.normalize_keepsOutline.other _ (by rintro _ ⟨⟩)] at hobj
    cases hobj

/-- The components of a forest that is free of complaints once its offsets are percentages can be read, when they are
prepared, exactly if what checks leave open in them can. -/
theorem decided_prepared {limits : Limits} {baseUrl : String} {roots : List Json}
    (hfits : ∀ c ∈ componentsIn 0 (Template.normalizeComponents roots), ComponentFits limits c)
    (hkeys : (Json.arr roots).keysOnce = true) (hshaped : ∀ c ∈ componentsIn 0 roots, BlocksShaped c.fields) :
    Component.Decided (Component.readAll 0 (Asset.resolveComponents baseUrl (Template.normalizeComponents roots)))
      (componentsIn 0 roots) := by
  rw [Template.normalize_keepsOutline.componentsIn_change, List.forall_mem_map] at hfits
  have honce : ∀ c ∈ componentsIn 0 roots, c.value.keysOnce = true :=
    forall_componentsIn (p := fun _ v => v.keysOnce = true)
      (fun _ _ _ h hget => Json.keysOnce_of_mem (Json.keysOnce_value h hget)) 0 roots (Json.keysOnce_of_mem hkeys)
  have hprepared (c : RawComponent) (hc : c ∈ componentsIn 0 roots) :=
    prepared_fits baseUrl (hfits c hc) (honce c hc) (hshaped c hc)
  have hdecided := Component.decided_readAll 0 0
    (Asset.resolveComponents baseUrl (Template.normalizeComponents roots)) (by
      rw [componentsIn_prepared, List.forall_mem_map]
      intro c hc
      obtain ⟨hvalue, hfitted⟩ := hprepared c hc
      exact ⟨_, congrArg RawComponent.value hvalue, hfitted⟩)
  refine ⟨hdecided.faultless, hdecided.isValid.trans ?_⟩
  rw [componentsIn_prepared, List.forall_mem_map]
  refine forall₂_congr fun c hc => ?_
  rw [(hprepared c hc).1]
  exact componentTyped_prepared

theorem isValid_readTheme_iff {v : Json} : (Theme.read v).IsValid ↔ ∃ theme, v = .obj theme ∧ ThemeTyped theme := by
  cases v with
  | obj theme => simp only [isValid_readTheme, Json.obj.injEq, exists_eq_left']
  | _ => simp [Theme.read, model]

theorem isValid_readSettings_iff {v : Json}
    (h : v = .null ∨ ∃ settings, v = .obj settings ∧ SettingsFit settings) :
    (Settings.read v).IsValid ↔ ∃ settings, v = .obj settings ∧ SettingsTyped settings := by
  obtain rfl | ⟨settings, rfl, hfits⟩ := h
  · simp [Settings.read, model]
  · simp only [isValid_readSettings hfits, Json.obj.injEq, exists_eq_left']

theorem isValid_readId (v : Json) : (Template.readId v).IsValid := by
  cases v with
  | _ => exact isValid_valid _

/-- A template without complaints is read, when it is adapted, exactly if what checks leave open in it can be, and has
issues otherwise. -/
theorem decided_template {limits : Limits} {baseUrl : String} {fields fields' : List (String × Json)}
    {roots : List Json} (h : Adapted limits baseUrl fields roots fields') (hkeys : (Json.arr roots).keysOnce = true)
    (hshaped : ∀ c ∈ componentsIn 0 roots, BlocksShaped c.fields) :
    (Template.read (.obj fields')).Faultless ∧ ((Template.read (.obj fields')).IsValid ↔ TemplateTyped fields) := by
  have hcomponents := @decided_prepared limits baseUrl roots h.forest.each hkeys hshaped
  constructor
  · have hread : (field fields' ["components"] [] Component.readList).Faultless := by
      rw [faultless_field_singleton, h.items]
      rintro _ ⟨⟩
      exact hcomponents.faultless
    simp only [Template.read, model, faultless_seq, faultless_map]
    exact ⟨⟨⟨⟨⟨Template.total_readId.field _ _ _, (total_nullable total_string).field _ _ _⟩,
      Layout.total_read.field _ _ _⟩, hread⟩, Theme.total_read.field _ _ _⟩, Settings.total_read.field _ _ _⟩
  · obtain ⟨layout, hlayout, hfits⟩ := h.layout
    have hroots : valueOf "components" fields = .arr roots := by rw [valueOf, h.components, Option.getD_some]
    -- An identifier of the template can always be read; the other fields are those of the raw template.
    have hid : Takes fields' ["_id", "id"] Template.readId := fun _ v _ => isValid_readId v
    have hset (v : Json) (hv : Fields.get? "settings" fields = some v) :
        (Settings.read v).IsValid ↔ ∃ settings, v = .obj settings ∧ SettingsTyped settings := by
      have hsettings := h.settings
      rw [valueOf, hv, Option.getD_some] at hsettings
      exact isValid_readSettings_iff hsettings
    simp only [Template.read, model, isValid_seq, isValid_map, isValid_field, hid, true_and, takes_singleton,
      h.other "name" rfl, h.other "layout" rfl, h.other "theme" rfl, h.other "settings" rfl, h.items,
      get?_of_valueOf hlayout (by simp), Option.some.injEq, forall_eq', isValid_readLayout hfits, Component.readList,
      hcomponents.isValid, isValid_readTheme_iff, forall₂_congr hset]
    constructor
    · rintro ⟨⟨⟨⟨hname, hblocks⟩, hcs⟩, htheme⟩, hsettings⟩
      refine ⟨takes_singleton.2 hname, fun layout' hlayout' => ?_, fun roots' hroots' => ?_, htheme, hsettings⟩
      · cases hlayout.symm.trans hlayout'
        exact hblocks
      · cases hroots.symm.trans hroots'
        exact hcs
    · rintro ⟨hname, hblocks, hcs, htheme, hsettings⟩
      exact ⟨⟨⟨⟨takes_singleton.1 hname, hblocks layout hlayout⟩, hcs roots hroots⟩, htheme⟩, hsettings⟩

theorem eq_nil_of_isEmpty {x : Except Fault (List Complaint)} (h : x.toOption.any List.isEmpty = true) :
    x = .ok [] := by
  cases x with
  | error f => cases h
  | ok cs => rw [List.isEmpty_iff.1 h]

/-- The lines with which a template is turned down. -/
def rejection? : Except Failure Template → Option (List String)
  | .error (.invalidTemplate lines) => some lines
  | _ => none

theorem eq_of_rejection? {x : Except Failure Template} {lines : List String} (h : rejection? x = some lines) :
    x = .error (.invalidTemplate lines) := by
  unfold rejection? at h
  split at h
  · cases h
    rfl
  · cases h

/-- A banner whose first button has a number for an identifier, which checks let pass. -/
def numberedTemplate : List (String × Json) :=
  [("layout", .obj [("desktop", .obj [("type", .str "banner"), ("position", .str "bottom")])]),
    ("components", .arr [
      .obj [("id", .int 5), ("type", .str "button"), ("action", .str "accept_all")],
      .obj [("id", .str "no"), ("type", .str "button"), ("action", .str "reject_all")]])]

end Generation

end ConsentBanner
