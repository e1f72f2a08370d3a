import ConsentBanner.Proofs.Schema.Written
import ConsentBanner.Proofs.Template.Mirror

/-!
The parts of a template and its components, written and read back.
-/

namespace ConsentBanner

open Checked Reader Json Validation

namespace Content

/-- Texts by language, each language once. -/
def KeysOnce : Content → Prop
  | plain _ => True
  | localized texts => (texts.map (·.1)).Nodup

theorem keysOnce_of_readTagged {fields : List (String × Json)} {kind : Json} {c : Content}
    (h : readTagged fields kind = .valid c) : c.KeysOnce := by
  unfold readTagged at h
  split at h
  · rw [under_eq_valid, map_eq_valid] at h
    obtain ⟨text, -, rfl⟩ := h
    trivial
  · rw [under_eq_valid, map_eq_valid] at h
    obtain ⟨texts, htexts, rfl⟩ := h
    obtain rfl | ⟨_, -, _, -, htexts⟩ := exists_of_field htexts
    · exact List.nodup_nil
    · exact nodup_dictionary htexts
  · cases h

/-- Content that was read has each language once. -/
theorem keysOnce_of_read {v : Json} {c : Content} (h : read v = .valid c) : c.KeysOnce := by
  unfold read at h
  split at h
  any_goals
    cases h
    trivial
  · split at h
    · exact keysOnce_of_readTagged h
    · split at h
      · cases h
        exact Fields.nodup_ofPairs _
      · cases h
        trivial
      · cases h
  · cases h

theorem read_taggedJson {c : Content} (h : c.KeysOnce) : read c.taggedJson = .valid c := by
  cases c with
  | plain text => rfl
  | localized texts =>
    change (localized <$> field [("kind", .str "localized"), ("by_language", .obj (textFields texts))] ["by_language"] []
      (dictionary string)).under "localized" = _
    rw [under_eq_valid, map_eq_valid]
    exact ⟨texts, field_of_get? rfl (dictionary_textFields h), rfl⟩

theorem readTexts_textFields {texts : List (String × String)} (h : (texts.map (·.1)).Nodup) :
    readTexts (textFields texts) = texts := by
  rw [readTexts, textFields, List.filterMap_map]
  change Fields.ofPairs (texts.filterMap some) = texts
  rw [List.filterMap_some, Fields.ofPairs_of_nodup h]

theorem read_json {c : Content} (h : c.KeysOnce) : read c.json = .valid c := by
  cases c with
  | plain text => rfl
  | localized texts =>
    change Checked.valid (localized (readTexts (textFields texts))) = _
    rw [readTexts_textFields h]

end Content

theorem Action.read_json (a : Action) : read (.obj (givenFields a.json)) = .valid a := by
  have hkeys : (a.json.map (·.1)).Nodup := by simp [json]
  have hkind : field (givenFields a.json) ["type"] .none (member ActionKind) = .valid a.kind :=
    field_given hkeys rfl rfl (member_name a.kind)
  have hcategory : field (givenFields a.json) ["category"] none (nullable string) = .valid a.category :=
    field_text hkeys rfl (List.forall_mem_nil _)
  have hurl : field (givenFields a.json) ["url"] none (nullable string) = .valid a.url :=
    field_text hkeys rfl (List.forall_mem_nil _)
  rw [read, model, readFields, hkind, hcategory, hurl]
  · rfl
  · rintro ⟨⟩
  · rintro _ ⟨⟩

theorem Measure.read_json (m : Measure) : m.json.isNull = false ∧ read m.json = .valid m := by
  match m with
  | .number (.int n) => exact ⟨rfl, rfl⟩
  | .number (.float x) => exact ⟨rfl, rfl⟩
  | .text s => exact ⟨rfl, rfl⟩

theorem DeviceLayout.read_givenJson (l : DeviceLayout) : read l.givenJson = .valid l := by
  have hkeys : (l.fields.map (·.1)).Nodup := by simp [fields]
  have hkind : field (givenFields l.fields) ["type"] .banner (member LayoutKind) = .valid l.kind :=
    field_given hkeys rfl rfl (member_name l.kind)
  have hposition : field (givenFields l.fields) ["position"] .bottom (member Anchor) = .valid l.position :=
    field_given hkeys rfl rfl (member_name l.position)
  have hwidth : field (givenFields l.fields) ["width"] none (nullable Measure.read) = .valid l.width :=
    field_nullable hkeys rfl (List.forall_mem_nil _) fun m _ => m.read_json
  have hheight : field (givenFields l.fields) ["height"] none (nullable Measure.read) = .valid l.height :=
    field_nullable hkeys rfl (List.forall_mem_nil _) fun m _ => m.read_json
  have hcolor : field (givenFields l.fields) ["backgroundColor", "background_color"] none (nullable string) =
      .valid l.backgroundColor :=
    field_text hkeys rfl (List.forall_mem_singleton.2 rfl)
  rw [givenJson, read, model, hkind, hposition, hwidth, hheight, hcolor]
  rfl

theorem Layout.read_givenJson (l : Layout) : read l.givenJson = .valid l := by
  have hkeys : (l.fields.map (·.1)).Nodup := by simp [fields]
  have hdesktop : field (givenFields l.fields) ["desktop"] {} DeviceLayout.read = .valid l.desktop :=
    field_given hkeys rfl rfl l.desktop.read_givenJson
  have htablet : field (givenFields l.fields) ["tablet"] none (nullable DeviceLayout.read) = .valid l.tablet :=
    field_nullable hkeys rfl (List.forall_mem_nil _) fun b _ => ⟨rfl, b.read_givenJson⟩
  have hmobile : field (givenFields l.fields) ["mobile"] none (nullable DeviceLayout.read) = .valid l.mobile :=
    field_nullable hkeys rfl (List.forall_mem_nil _) fun b _ => ⟨rfl, b.read_givenJson⟩
  rw [givenJson, read, model, hdesktop, htablet, hmobile]
  rfl

section Blocks

theorem deviceBlocks_deviceFields {α : Type} (json : α → Json) (blocks : PerDevice α) :
    deviceBlocks (deviceFields json blocks) = .valid (blocks.map fun b => (b.1, json b.2)) := by
  rw [deviceFields, deviceBlocks, List.filterMap_map, ← List.filterMap_eq_map]
  congr 2
  funext b
  simp [LawfulNamed.ofName?_name]

/-- The blocks in JSON form. -/
def PerDevice.portable (blocks : PerDevice (List (String × Json))) : PerDevice (List (String × Json)) :=
  blocks.map fun b => (b.1, portableBlock b.2)

variable {blocks : PerDevice (List (String × Json))} {fields : List (String × Json)} {v : Json}

theorem readBlock_freeFields (fields : List (String × Json)) :
    readBlock (freeFields fields) = .valid (portableBlock fields) := by
  rw [readBlock]
  split
  · exact dictionary_freeFields fields
  · rename_i hset
    have hempty : portableBlock fields = [] := by simpa [freeFields, isSet] using hset
    rw [hempty]

theorem deviceFields_freeFields (blocks : PerDevice (List (String × Json))) :
    deviceFields freeFields blocks = deviceFields .obj blocks.portable := by
  rw [deviceFields, deviceFields, PerDevice.portable, List.map_map]
  rfl

theorem readStyle_deviceFields (blocks : PerDevice (List (String × Json))) :
    readStyle (deviceFields freeFields blocks) = .valid blocks.portable := by
  rw [deviceFields_freeFields, readStyle, deviceBlocks_deviceFields]
  refine all_map fun b hb => ?_
  obtain ⟨c, -, rfl⟩ := List.mem_map.1 hb
  rw [under_eq_valid, ← freeFields, readBlock_freeFields]
  rfl

theorem readContainerConfig_deviceFields (blocks : PerDevice (List (String × Json))) :
    readContainerConfig (deviceFields freeFields blocks) = .valid blocks.portable := by
  cases blocks with
  | nil => rfl
  | cons b rest => exact readStyle_deviceFields (b :: rest)

end Blocks

section Position

theorem readOffsets_offsetFields (offsets : List (Side × String)) :
    readOffsets (offsets.map fun o => (Named.name o.1, .str o.2)) = .valid offsets := by
  rw [readOffsets, List.filterMap_map]
  have hgiven : offsets.filterMap ((fun f : String × Json => if f.2.isNull then none else
      (Named.ofName? f.1 : Option Side).map (·, Template.percentage f.2)) ∘ fun o => (Named.name o.1, .str o.2)) =
      offsets.map fun o => (o.1, .str o.2) := by
    rw [← List.filterMap_eq_map]
    congr 1
    funext o
    simp [isNull, LawfulNamed.ofName?_name, Template.percentage]
  exact (congrArg _ hgiven).trans (all_map fun o _ => rfl)

/-- The blocks of a position that hold an offset. -/
def PerDevice.placing (position : PerDevice (List (Side × String))) : PerDevice (List (Side × String)) :=
  position.filter fun b => !b.2.isEmpty

theorem positionBlocks_offsetFields (position : PerDevice (List (Side × String))) :
    positionBlocks (position.map fun b => (b.1, offsetFields b.2)) =
      .valid (position.placing.map fun b => (b.1, b.2.map fun o => (Named.name o.1, .str o.2))) := by
  induction position with
  | nil => rfl
  | cons b rest ih =>
    obtain ⟨d, offsets⟩ := b
    cases offsets with
    | nil => exact ih
    | cons o more =>
      change (_ :: ·) <$> positionBlocks _ = _
      rw [ih]
      rfl

theorem readPosition_deviceFields (position : PerDevice (List (Side × String))) :
    readPosition (deviceFields offsetFields position) = .valid position.placing := by
  rw [readPosition, deviceBlocks_deviceFields, andThen, positionBlocks_offsetFields, andThen]
  refine all_map fun b _ => ?_
  rw [under_eq_valid, readOffsets_offsetFields]
  rfl

end Position

/-- The component with its free values in JSON form. -/
def ComponentData.portable (d : ComponentData) : ComponentData :=
  { d with style := d.style.portable, containerConfig := d.containerConfig.portable }

/-- The component without blocks of a position that hold no offset. -/
def ComponentData.trimmed (d : ComponentData) : ComponentData := { d with position := d.position.placing }

namespace Component

mutual

/-- The tree without blocks of positions that hold no offset. -/
def trimmed : Component → Component
  | node data children => node data.trimmed (trimmedAll children)

def trimmedAll : List Component → List Component
  | [] => []
  | c :: rest => c.trimmed :: trimmedAll rest

end

mutual

/-- The tree with its free values in JSON form. -/
def portable : Component → Component
  | node data children => node data.portable (portableAll children)

def portableAll : List Component → List Component
  | [] => []
  | c :: rest => c.portable :: portableAll rest

end

theorem readChildrenOf_of_get? {fields : List (String × Json)} {items : List Json} {cs : List Component}
    (hv : Fields.get? "children" fields = some (.arr items)) (h : readAll 0 items = .valid cs) :
    readChildrenOf fields = .valid cs := by
  induction fields with
  | nil => cases hv
  | cons f rest ih =>
    obtain ⟨k, v⟩ := f
    rw [Fields.get?] at hv
    rw [readChildrenOf]
    split at hv
    · rename_i hk
      cases hv
      rw [if_pos hk, readChildren, under_eq_valid]
      exact h
    · rename_i hk
      rw [if_neg hk]
      exact ih hv

/-- What a component holds apart from its children is read back. -/
theorem read_taggedFields {d : ComponentData} {items : List Json} {children : List Component}
    (hcontent : d.content.KeysOnce) (hchildren : readAll 0 items = .valid children) :
    read (.obj (givenFields (taggedFields d items))) = .valid (node d.portable.trimmed children) := by
  have hkeys : ((taggedFields d items).map (·.1)).Nodup := by simp [taggedFields]
  have hid : requiredField (givenFields (taggedFields d items)) "id" string = .valid d.id :=
    requiredField_given hkeys rfl rfl rfl
  have hkind : requiredField (givenFields (taggedFields d items)) "type" (member ComponentKind) = .valid d.kind :=
    requiredField_given hkeys rfl rfl (member_name d.kind)
  have hcontent : field (givenFields (taggedFields d items)) ["content"] (.plain "") Content.read = .valid d.content :=
    field_given hkeys rfl (by cases d.content <;> rfl) (Content.read_taggedJson hcontent)
  have hstyle : field (givenFields (taggedFields d items)) ["style"] [] readStyle = .valid d.style.portable :=
    field_given hkeys rfl rfl (readStyle_deviceFields d.style)
  have hposition : field (givenFields (taggedFields d items)) ["position"] [] readPosition =
      .valid d.position.placing :=
    field_given hkeys rfl rfl (readPosition_deviceFields d.position)
  have haction : field (givenFields (taggedFields d items)) ["action"] {} Action.read = .valid d.action :=
    field_given hkeys rfl rfl d.action.read_json
  have hchildren : readChildrenOf (givenFields (taggedFields d items)) = .valid children := by
    apply readChildrenOf_of_get? _ hchildren
    rw [Fields.get?_givenFields hkeys]
    rfl
  have hconfig : field (givenFields (taggedFields d items)) ["containerConfig", "container_config"] []
      readContainerConfig = .valid d.containerConfig.portable :=
    field_given hkeys rfl rfl (readContainerConfig_deviceFields d.containerConfig)
  have halt : field (givenFields (taggedFields d items)) ["alt"] none (nullable string) = .valid d.alt :=
    field_text hkeys rfl (List.forall_mem_nil _)
  have hlocked : field (givenFields (taggedFields d items)) ["locked"] false bool = .valid d.locked :=
    field_given hkeys rfl rfl rfl
  rw [read, hid, hkind, hcontent, hstyle, hposition, haction, hchildren, hconfig, halt, hlocked]
  rfl

theorem keysOnce_of_readAll {place : Nat} {items : List Json} {cs : List Component}
    (h : readAll place items = .valid cs) : ∀ d ∈ everyDataIn cs, d.content.KeysOnce := by
  intro d hd
  obtain ⟨r, -, hr⟩ := exists_raw (mirrors_of_readAll cs h) d hd
  obtain hdefault | ⟨_, -, _, -, hcontent⟩ := exists_of_field hr.content
  · rw [hdefault]
    trivial
  · exact Content.keysOnce_of_read hcontent

mutual

theorem read_taggedJson : (c : Component) → (∀ d ∈ c.everyData, d.content.KeysOnce) →
    read c.taggedJson = .valid c.portable.trimmed
  | .node data children, h => by
    rw [everyData, List.forall_mem_cons] at h
    rw [taggedJson, portable, trimmed]
    exact read_taggedFields h.1 (readAll_taggedJsonAll children h.2)

theorem readAll_taggedJsonAll : (cs : List Component) → {place : Nat} →
    (∀ d ∈ everyDataIn cs, d.content.KeysOnce) → readAll place (taggedJsonAll cs) = .valid (trimmedAll (portableAll cs))
  | [], place, _ => by
    rw [taggedJsonAll, readAll, portableAll, trimmedAll]
  | c :: cs, place, h => by
    rw [everyDataIn, List.forall_mem_append] at h
    rw [taggedJsonAll, readAll, read_taggedJson c h.1, readAll_taggedJsonAll cs h.2, portableAll, trimmedAll]
    rfl

end

end Component

section Finite

variable {fields : List (String × Json)} {blocks : PerDevice (List (String × Json))} {v : Json}

theorem portableBlock_of_readBlock (hv : v.IsFinite) (h : readBlock v = .valid fields) :
    portableBlock fields = fields := by
  rw [readBlock] at h
  split at h
  · cases v with
    | obj given =>
      rw [dictionary_plain hv.plain] at h
      cases h
      exact hv.portableBlock
    | _ => cases h
  · cases h
    rfl

theorem portable_of_readStyle (hv : v.IsFinite) (h : readStyle v = .valid blocks) : blocks.portable = blocks := by
  obtain ⟨given, hgiven, hread⟩ := andThen_eq_valid.1 h
  have hfinite : ∀ b ∈ given, b.2.IsFinite := by
    cases v with
    | null =>
      cases hgiven
      exact List.forall_mem_nil _
    | obj values =>
      cases hgiven
      intro b hb
      obtain ⟨f, hf, hdevice⟩ := List.mem_filterMap.1 hb
      obtain ⟨_, -, rfl⟩ := Option.map_eq_some_iff.1 hdevice
      exact hv.values f hf
    | _ => cases hgiven
  have hsame : ∀ b ∈ blocks, (b.1, portableBlock b.2) = b := by
    intro b hb
    obtain ⟨⟨d, block⟩, hmem, hblock⟩ := exists_of_all_eq_valid hread b hb
    rw [under_eq_valid, map_eq_valid] at hblock
    obtain ⟨_, hblock, rfl⟩ := hblock
    rw [portableBlock_of_readBlock (hfinite _ hmem) hblock]
  exact (List.map_congr_left hsame).trans (List.map_id _)

theorem portable_of_readContainerConfig (hv : v.IsFinite) (h : readContainerConfig v = .valid blocks) :
    blocks.portable = blocks := by
  rw [readContainerConfig] at h
  split at h
  · exact portable_of_readStyle hv h
  · exact portable_of_readStyle (v := .null) ⟨trivial, rfl⟩ h

theorem Component.ReadsAs.portable {d : ComponentData} (hfields : (Json.obj fields).IsFinite) (h : ReadsAs fields d) :
    d.portable = d := by
  have hstyle : d.style.portable = d.style := by
    obtain hdefault | ⟨_, -, w, hw, hread⟩ := exists_of_field h.style
    · rw [hdefault]
      rfl
    · exact portable_of_readStyle (hfields.of_get? hw) hread
  have hconfig : d.containerConfig.portable = d.containerConfig := by
    obtain hdefault | ⟨_, -, w, hw, hread⟩ := exists_of_field h.containerConfig
    · rw [hdefault]
      rfl
    · exact portable_of_readContainerConfig (hfields.of_get? hw) hread
  rw [ComponentData.portable, hstyle, hconfig]

namespace Component

theorem isFinite_childItems (hfields : (Json.obj fields).IsFinite) : (Json.arr (childItems fields)).IsFinite := by
  rw [childItems]
  split
  · rename_i items hv
    exact hfields.of_get? hv
  · exact ⟨trivial, rfl⟩

mutual

theorem portable_of_read : (c : Component) → {v : Json} → v.IsFinite → read v = .valid c → c.portable = c
  | .node data children, v, hv, h => by
    obtain ⟨fields, rfl, hdata, hchildren⟩ := read_eq_valid h
    rw [portable, hdata.portable hv, portableAll_of_readAll children (isFinite_childItems hv) hchildren]

theorem portableAll_of_readAll : (cs : List Component) → {place : Nat} → {items : List Json} →
    (Json.arr items).IsFinite → readAll place items = .valid cs → portableAll cs = cs
  | [], _, _, _, _ => rfl
  | c :: cs, place, items, hitems, h => by
    cases items with
    | nil =>
      rw [readAll] at h
      cases h
    | cons v rest =>
      simp only [readAll, seq_eq_valid, map_eq_valid, under_eq_valid] at h
      obtain ⟨_, _, ⟨_, hc, rfl⟩, hcs, hcons⟩ := h
      cases hcons
      rw [portableAll, portable_of_read c hitems.head hc, portableAll_of_readAll cs hitems.tail hcs]

end

end Component

end Finite

end ConsentBanner
