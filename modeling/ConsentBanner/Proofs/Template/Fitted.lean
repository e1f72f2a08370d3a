import ConsentBanner.Proofs.Template.Outline
import ConsentBanner.Proofs.Template.Typed

/-!
Reading components that fit: what checks leave open decides whether they can be read.
-/

namespace ConsentBanner

open Checked Reader Validation

section Action

theorem takes_action {fields : List (String × Json)}
    (h : valueOf "action" fields = .null ∨ IsNameOf ActionKind (actionOf fields)) :
    Takes fields ["action"] Action.read ↔ ∀ parts, valueOf "action" fields = .obj parts → ActionTyped parts := by
  rw [takes_singleton]
  cases hv : Fields.get? "action" fields with
  | none => simp [valueOf, hv]
  | some v =>
    have hvalue : valueOf "action" fields = v := by rw [valueOf, hv, Option.getD_some]
    simp only [Option.some.injEq, forall_eq', hvalue]
    rw [hvalue, actionOf, hv] at h
    cases v with
    | null => simp [Action.read]
    | str s =>
      -- A name alone is read as an action object that has nothing but its type.
      obtain ⟨a, ha⟩ := h.resolve_left (by simp)
      cases ha
      have hname : Takes [("type", Json.str (Named.name a))] ["type"] (member ActionKind) := by
        rw [takes_singleton]
        rintro _ ⟨⟩
        exact isValid_member a
      have habsent (key : String) (hkey : "type" ≠ key) :
          Takes [("type", Json.str (Named.name a))] [key] (nullable string) := by
        rw [takes_singleton, Fields.get?_cons_of_ne hkey]
        rintro _ ⟨⟩
      simp only [Action.read, Action.readFields, isValid_seq, isValid_map, isValid_field]
      simpa using ⟨⟨hname, habsent "category" (by decide)⟩, habsent "url" (by decide)⟩
    | obj parts =>
      obtain ⟨a, ha⟩ := h.resolve_left (by simp)
      have hname : Takes parts ["type"] (member ActionKind) := by
        rw [takes_singleton]
        intro v hv
        dsimp only at ha
        rw [hv, Option.getD_some] at ha
        rw [ha]
        exact isValid_member a
      simp only [Action.read, model, Action.readFields, isValid_seq, isValid_map, isValid_field, hname, true_and,
        Json.obj.injEq, forall_eq']
      exact ⟨fun h => ⟨h.1, h.2⟩, fun h => ⟨h.category, h.url⟩⟩
    | _ =>
      obtain ⟨a, ha⟩ := h.resolve_left (by simp)
      cases ha

end Action

section Position

theorem isValid_percentage {v : Json} (h : OffsetFits v) (hv : v ≠ .null) :
    (string (Template.percentage v)).IsValid := by
  cases h with
  | null => exact (hv rfl).elim
  | int n => exact isValid_valid _
  | float x =>
    unfold Template.percentage
    dsimp only
    split
    · split
      · exact isValid_valid _
      · exact isValid_valid _
    · exact isValid_valid _
  | empty => exact isValid_valid _
  | percentage s => exact isValid_valid _
  | pixels s => exact isValid_valid _

/-- Blocks that have parts where they are set, and those of them that are set. -/
theorem positionBlocks_valid {blocks : List (Device × Json)}
    (h : ∀ d v, (d, v) ∈ blocks → v.isSet = true → ∃ fields, v = .obj fields) :
    ∃ found, positionBlocks blocks = .valid found ∧ ∀ d fields, (d, fields) ∈ found → (d, .obj fields) ∈ blocks := by
  induction blocks with
  | nil => exact ⟨[], rfl, by simp⟩
  | cons b rest ih =>
    obtain ⟨d, v⟩ := b
    obtain ⟨found, hfound, hmem⟩ := ih fun d v hm => h d v (List.mem_cons_of_mem _ hm)
    unfold positionBlocks
    split
    · rename_i hset
      obtain ⟨fields, rfl⟩ := h d v List.mem_cons_self hset
      dsimp only
      rw [hfound]
      refine ⟨(d, fields) :: found, rfl, fun d' fields' hm => ?_⟩
      obtain hm | hm := List.mem_cons.1 hm
      · cases hm
        exact List.mem_cons_self
      · exact List.mem_cons_of_mem _ (hmem d' fields' hm)
    · exact ⟨found, hfound, fun d' fields' hm => List.mem_cons_of_mem _ (hmem d' fields' hm)⟩

theorem deviceBlocks_obj {blocks : List (String × Json)} (hkeys : (blocks.map (·.1)).Nodup) :
    ∃ found, deviceBlocks (.obj blocks) = .valid found ∧
      ∀ d block, (d, block) ∈ found → Fields.get? (Named.name d) blocks = some block := by
  refine ⟨_, rfl, fun d block hm => ?_⟩
  obtain ⟨⟨k, v⟩, hmem, hd⟩ := List.mem_filterMap.1 hm
  obtain ⟨_, hname, hd⟩ := Option.map_eq_some_iff.1 hd
  cases hd
  rw [Named.name_of_ofName? hname]
  exact Fields.get?_of_mem hkeys hmem

/-- A position whose offsets fit can be read, if its set blocks are objects. -/
theorem isValid_readPosition {position : List (String × Json)} (hkeys : (position.map (·.1)).Nodup)
    (hoffsets : ∀ (d : Device) offsets, Fields.get? (Named.name d) position = some (.obj offsets) →
      (offsets.map (·.1)).Nodup)
    (hblocks : ∀ (d : Device) block, Fields.get? (Named.name d) position = some block → block.isSet = true →
      ∃ offsets, block = .obj offsets)
    (hfit : PositionFits (.obj position)) : (readPosition (.obj position)).IsValid := by
  obtain ⟨blocks, hdevices, hget⟩ := deviceBlocks_obj hkeys
  obtain ⟨found, hfound, hmem⟩ := positionBlocks_valid fun d v hm hset => hblocks d v (hget d v hm) hset
  obtain ⟨_, ⟨⟩, hfit⟩ := hfit.resolve_left (by simp)
  rw [readPosition, hdevices]
  dsimp only [andThen]
  rw [hfound]
  dsimp only
  rw [isValid_all]
  rintro ⟨d, offsets⟩ hm
  simp only [isValid_under, isValid_map]
  have hblock := hget d _ (hmem d offsets hm)
  -- What fits is what is found under the name of a side; that is each offset in the list, as no key stands there twice.
  rw [readOffsets, isValid_all]
  rintro ⟨side, offset⟩ hoffset
  simp only [isValid_under, isValid_map]
  obtain ⟨⟨k, v⟩, hv, hside⟩ := List.mem_filterMap.1 hoffset
  dsimp only at hside
  split at hside
  · cases hside
  · rename_i hnull
    obtain ⟨_, hname, hside⟩ := Option.map_eq_some_iff.1 hside
    cases hside
    have hoffset := Fields.get?_of_mem (hoffsets d offsets hblock) hv
    rw [← Named.name_of_ofName? hname] at hoffset
    refine isValid_percentage (hfit d side offsets v hblock hoffset) ?_
    rintro rfl
    exact hnull rfl

/-- The block of a device once its offsets are percentages. -/
def percentages (block : Json) : Json :=
  match block with
  | .obj offsets => .obj (Template.normalizeOffsets offsets)
  | v => v

theorem normalizeBlock_fst (f : String × Json) : (Template.normalizeBlock f).1 = f.1 := by
  unfold Template.normalizeBlock
  split
  · split
    · rfl
    · rfl
  · rfl

theorem normalizeBlock_device (d : Device) (v : Json) :
    Template.normalizeBlock (Named.name d, v) = (Named.name d, percentages v) := by
  unfold Template.normalizeBlock percentages
  split
  · rename_i heq
    cases heq
    rw [if_pos (Named.isName_iff.2 ⟨d, rfl⟩)]
  · rename_i hobj
    split
    · exact (hobj _ _ rfl).elim
    · rfl

theorem get?_normalizeBlocks (d : Device) (position : List (String × Json)) :
    Fields.get? (Named.name d) (position.map Template.normalizeBlock) =
      (Fields.get? (Named.name d) position).map percentages := by
  induction position with
  | nil => rfl
  | cons f rest ih =>
    obtain ⟨k, v⟩ := f
    by_cases hk : k = Named.name d
    · subst hk
      rw [List.map_cons, normalizeBlock_device, Fields.get?_cons_self, Fields.get?_cons_self, Option.map_some]
    · have hfst : (Template.normalizeBlock (k, v)).1 ≠ Named.name d := by rwa [normalizeBlock_fst]
      rw [List.map_cons, Fields.get?_cons_of_ne hk, ← ih]
      exact Fields.get?_cons_of_ne hfst _ _

theorem keys_normalizeBlocks (position : List (String × Json)) :
    (position.map Template.normalizeBlock).map (·.1) = position.map (·.1) := by
  rw [List.map_map]
  exact List.map_congr_left fun f _ => normalizeBlock_fst f

theorem keys_normalizeOffsets (offsets : List (String × Json)) :
    (Template.normalizeOffsets offsets).map (·.1) = offsets.map (·.1) := by
  rw [Template.normalizeOffsets, List.map_map]
  refine List.map_congr_left fun f _ => ?_
  obtain ⟨k, v⟩ := f
  dsimp only [Function.comp_apply]
  split
  · rfl
  · rfl

/-- A position with every key once can be read when its offsets, once they are percentages, fit and its set blocks are
objects. -/
theorem isValid_readPosition_normalized {v : Json} (hkeys : v.keysOnce = true)
    (hblocks : ∀ position, v = .obj position → ∀ (d : Device) block, Fields.get? (Named.name d) position = some block →
      block.isSet = true → ∃ offsets, block = .obj offsets)
    (hfit : PositionFits (Template.normalizePosition v)) : (readPosition (Template.normalizePosition v)).IsValid := by
  cases v with
  | null => exact isValid_valid _
  | obj position =>
    have hnodup := Json.nodup_of_keysOnce hkeys
    rw [Template.normalizePosition] at hfit ⊢
    refine isValid_readPosition ?_ ?_ ?_ hfit
    · rwa [keys_normalizeBlocks]
    · intro d offsets h
      rw [get?_normalizeBlocks] at h
      obtain ⟨block, hblock, h⟩ := Option.map_eq_some_iff.1 h
      unfold percentages at h
      split at h
      · cases h
        rw [keys_normalizeOffsets]
        exact Json.nodup_of_keysOnce (Json.keysOnce_value hkeys hblock)
      · rename_i hobj
        exact (hobj _ h).elim
    · intro d block h hset
      rw [get?_normalizeBlocks] at h
      obtain ⟨block', hblock, rfl⟩ := Option.map_eq_some_iff.1 h
      unfold percentages at hset ⊢
      split
      · exact ⟨_, rfl⟩
      · rename_i hobj
        split at hset
        · exact (hobj _ rfl).elim
        · exact hblocks position rfl d block' hblock hset
  | _ =>
    obtain ⟨_, ⟨⟩, -⟩ := hfit.resolve_left (by rintro ⟨⟩)

end Position

theorem isValid_text {fields : List (String × Json)} {v : Json} (hkind : Fields.get? "kind" fields = none)
    (htext : Fields.get? "text" fields = some v) : (Content.read (.obj fields)).IsValid := by
  rw [Content.read, hkind]
  dsimp only
  rw [htext]
  split
  · exact isValid_valid _
  · exact isValid_valid _
  · contradiction

/-- Content can be read whether or not its address was made absolute. -/
theorem isValid_resolveContent {baseUrl : String} {v : Json} :
    (Content.read (Asset.resolveContent baseUrl v)).IsValid ↔ (Content.read v).IsValid := by
  cases v with
  | str url => simp [Asset.resolveContent, Asset.resolveUrl, Content.read]
  | obj fields =>
    rw [Asset.resolveContent]
    split
    · rename_i url htext
      have hother (key : String) (hkey : "text" ≠ key) :
          Fields.get? key (Fields.set "text" (Asset.resolveUrl baseUrl url) fields) = Fields.get? key fields :=
        Fields.get?_set_of_ne hkey _ _
      have htake : Takes (Fields.set "text" (Asset.resolveUrl baseUrl url) fields) ["text"] string := by
        rw [takes_singleton, Fields.get?_set_self]
        rintro _ ⟨⟩
        exact isValid_valid _
      have htake' : Takes fields ["text"] string := by
        rw [takes_singleton, htext]
        rintro _ ⟨⟩
        exact isValid_valid _
      -- The address stands under `text`, which only plain content reads.
      have hkind := hother "kind" (by decide)
      cases hk : Fields.get? "kind" fields with
      | none =>
        rw [hk] at hkind
        exact iff_of_true (isValid_text hkind (Fields.get?_set_self _ _ _)) (isValid_text hk htext)
      | some kind =>
        simp only [Content.read, hkind, hk]
        unfold Content.readTagged
        split
        · simp only [isValid_under, isValid_map, isValid_field, htake, htake']
        · simp only [isValid_under, isValid_map, isValid_field, takes_singleton, hother "by_language" (by decide)]
        · rfl
    · rfl
  | _ => rfl

/-- What checks make sure of in a component, and that its blocks have parts. -/
structure ComponentFitted (fields : List (String × Json)) : Prop where
  id : Fields.get? "id" fields ≠ none
  kind : ∃ k : ComponentKind, Fields.get? "type" fields = some (.str (Named.name k))
  action : valueOf "action" fields = .null ∨ IsNameOf ActionKind (actionOf fields)
  children : ChildrenFit (valueOf "children" fields)
  position : ∀ v, Fields.get? "position" fields = some v → (readPosition v).IsValid
  style : ∀ v, Fields.get? "style" fields = some v → (readStyle v).Faultless
  config : ∀ k v, find? ["containerConfig", "container_config"] fields = some (k, v) → (readContainerConfig v).Faultless

/-- Readings of some raw components, which can be read exactly when the fields that checks leave open can. -/
structure Component.Decided {α : Type} (x : Checked α) (cs : List RawComponent) : Prop where
  faultless : x.Faultless
  isValid : x.IsValid ↔ ∀ c ∈ cs, ComponentTyped c.fields

def RawComponent.Fitted (c : RawComponent) : Prop := ∃ fields, c.value = .obj fields ∧ ComponentFitted fields

namespace Component

/-- The fields of a component besides its children. -/
theorem decided_fields {fields : List (String × Json)} {cs : List RawComponent} {depth : Nat}
    (h : ComponentFitted fields) (hc : Decided (readChildrenOf fields) cs) :
    Decided (read (.obj fields)) (⟨depth, .obj fields⟩ :: cs) := by
  obtain ⟨k, hk⟩ := h.kind
  have hid : (requiredField fields "id" string).IsValid ↔ Takes fields ["id"] string := by
    obtain ⟨v, hv⟩ := Option.ne_none_iff_exists'.1 h.id
    simp only [isValid_requiredField, takes_singleton, hv, Option.some.injEq, exists_eq_left', forall_eq']
  have hkind : (requiredField fields "type" (member ComponentKind)).IsValid :=
    isValid_requiredField.2 ⟨_, hk, isValid_member k⟩
  have hposition : Takes fields ["position"] readPosition := takes_singleton.2 h.position
  have hstyle : (field fields ["style"] [] readStyle).Faultless :=
    faultless_field_singleton.2 h.style
  have hconfig : (field fields ["containerConfig", "container_config"] [] readContainerConfig).Faultless :=
    faultless_field.2 h.config
  constructor
  · simp only [read, faultless_seq, faultless_map]
    exact ⟨⟨⟨⟨⟨⟨⟨⟨⟨total_string.requiredField _ _, total_member.requiredField _ _⟩, Content.total_read.field _ _ _⟩,
      hstyle⟩, (isValid_field.2 hposition).faultless⟩, Action.total_read.field _ _ _⟩, hc.faultless⟩, hconfig⟩,
      (total_nullable total_string).field _ _ _⟩, total_bool.field _ _ _⟩
  · simp only [read, isValid_seq, isValid_map, hid, hkind, hc.isValid, isValid_field, hposition, takes_action h.action,
      List.forall_mem_cons, and_true]
    constructor
    · rintro ⟨⟨⟨⟨⟨⟨⟨hid, hcontent⟩, hstyle⟩, haction⟩, hchildren⟩, hconfig⟩, halt⟩, hlocked⟩
      exact ⟨⟨hid, hcontent, hstyle, haction, hconfig, halt, hlocked⟩, hchildren⟩
    · rintro ⟨⟨hid, hcontent, hstyle, haction, hconfig, halt, hlocked⟩, hchildren⟩
      exact ⟨⟨⟨⟨⟨⟨⟨hid, hcontent⟩, hstyle⟩, haction⟩, hchildren⟩, hconfig⟩, halt⟩, hlocked⟩

mutual

theorem decided_read (depth : Nat) : (v : Json) → (∀ c ∈ componentsOf depth v, RawComponent.Fitted c) →
    Decided (read v) (componentsOf depth v)
  | .obj fields, h => by
    rw [componentsOf, List.forall_mem_cons] at h
    obtain ⟨⟨_, ⟨⟩, hfields⟩, hrest⟩ := h
    rw [componentsOf]
    exact decided_fields hfields (decided_readChildrenOf depth fields hfields.children hrest)
  | .null, h | .bool _, h | .int _, h | .float _, h | .str _, h | .arr _, h | .date _, h | .moment _, h | .bytes _, h
  | .pair _ _, h | .set _, h | .keyed _ _, h => by
    rw [componentsOf] at h
    · obtain ⟨_, ⟨⟩, -⟩ := h _ (List.mem_singleton_self _)
    · rintro _ ⟨⟩

theorem decided_readChildrenOf (depth : Nat) : (fields : List (String × Json)) →
    ChildrenFit (valueOf "children" fields) → (∀ c ∈ componentsAmong depth fields, RawComponent.Fitted c) →
    Decided (readChildrenOf fields) (componentsAmong depth fields)
  | [], _, _ => by
    rw [readChildrenOf, componentsAmong]
    exact ⟨faultless_valid _, by simp⟩
  | (k, v) :: rest, hc, h => by
    rw [componentsAmong] at h
    rw [valueOf, Fields.get?] at hc
    rw [readChildrenOf, componentsAmong]
    split
    · rename_i hk
      rw [if_pos hk] at h hc
      have hv := decided_readChildren depth v hc h
      exact ⟨faultless_under.2 hv.faultless, isValid_under.trans hv.isValid⟩
    · rename_i hk
      rw [if_neg hk] at h hc
      exact decided_readChildrenOf depth rest hc h

theorem decided_readChildren (depth : Nat) : (v : Json) → ChildrenFit v →
    (∀ c ∈ componentsUnder depth v, RawComponent.Fitted c) → Decided (readChildren v) (componentsUnder depth v)
  | .arr items, _, h => by
    rw [componentsUnder] at h
    rw [readChildren, componentsUnder]
    exact decided_readAll (depth + 1) 0 items h
  | .null, _, _ => by
    rw [readChildren, componentsUnder]
    · exact ⟨by simp [Json.isSet], by simp [Json.isSet]⟩
    · rintro _ ⟨⟩
    · rintro _ ⟨⟩
  | .bool _, hc, _ | .int _, hc, _ | .float _, hc, _ | .str _, hc, _ | .obj _, hc, _ | .date _, hc, _
  | .moment _, hc, _ | .bytes _, hc, _ | .pair _ _, hc, _ | .set _, hc, _ | .keyed _ _, hc, _ => by
    obtain ⟨_, ⟨⟩⟩ := hc.resolve_left (by rintro ⟨⟩)

theorem decided_readAll (depth place : Nat) : (items : List Json) →
    (∀ c ∈ componentsIn depth items, RawComponent.Fitted c) →
    Decided (readAll place items) (componentsIn depth items)
  | [], _ => by
    rw [readAll, componentsIn]
    exact ⟨faultless_valid _, by simp⟩
  | v :: rest, h => by
    rw [componentsIn, List.forall_mem_append] at h
    have hv := decided_read depth v h.1
    have hrest := decided_readAll depth (place + 1) rest h.2
    rw [readAll, componentsIn]
    constructor
    · rw [faultless_seq, faultless_map, faultless_under]
      exact ⟨hv.faultless, hrest.faultless⟩
    · rw [isValid_seq, isValid_map, isValid_under, hv.isValid, hrest.isValid, List.forall_mem_append]

end

end Component

end ConsentBanner
