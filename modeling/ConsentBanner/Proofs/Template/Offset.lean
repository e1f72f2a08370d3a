import Mathlib.Data.List.Basic
import ConsentBanner.Proofs.Template.Edit
import ConsentBanner.Proofs.Template.Fitted

/-!
Offsets as percentages: which places of a template change, and why reading it comes to the same.
-/

namespace ConsentBanner

open Checked Json Reader Validation

namespace Template

theorem percentage_cases (v : Json) : percentage v = v ∨
    ((∃ n, v = .int n) ∨ ∃ x, v = .float x) ∧ ∃ text, percentage v = .str (text ++ "%") := by
  cases v with
  | int n => exact .inr ⟨.inl ⟨n, rfl⟩, toString n, rfl⟩
  | float x =>
    refine .inr ⟨.inr ⟨x, rfl⟩, ?_⟩
    rw [percentage]
    split
    · split
      · exact ⟨_, rfl⟩
      · exact ⟨_, rfl⟩
    · exact ⟨_, rfl⟩
  | _ => exact .inl rfl

theorem percentage_percentage (v : Json) : percentage (percentage v) = percentage v := by
  obtain h | ⟨-, text, h⟩ := percentage_cases v
  · rw [h, h]
  · rw [h, percentage]
    · rintro _ ⟨⟩
    · rintro _ ⟨⟩

theorem isNull_percentage (v : Json) : (percentage v).isNull = v.isNull := by
  obtain h | ⟨⟨n, rfl⟩ | ⟨x, rfl⟩, text, h⟩ := percentage_cases v
  · rw [h]
  · rw [h]
    rfl
  · rw [h]
    rfl

theorem child?_percentage (v : Json) (s : Step) : (percentage v).child? s = v.child? s := by
  obtain h | ⟨⟨n, rfl⟩ | ⟨x, rfl⟩, text, h⟩ := percentage_cases v
  · rw [h]
  · rw [h]
    cases s <;> rfl
  · rw [h]
    cases s <;> rfl

/-- The fields after a change to those that stand under the names of a type. -/
def editNamed (α : Type) [Named α] (edit : Json → Json) (fields : List (String × Json)) : List (String × Json) :=
  fields.map fun f => (f.1, if Named.isName α f.1 then edit f.2 else f.2)

section Named

variable {α : Type} [Named α] {edit : Json → Json}

theorem editNamed_editNamed (h : ∀ v, edit (edit v) = edit v) (fields : List (String × Json)) :
    editNamed α edit (editNamed α edit fields) = editNamed α edit fields := by
  rw [editNamed, editNamed, List.map_map]
  apply List.map_congr_left
  rintro ⟨k, v⟩ -
  rw [Function.comp_apply]
  dsimp only
  split
  · rw [h]
  · rfl

theorem get?_editNamed [LawfulNamed α] (a : α) (fields : List (String × Json)) :
    Fields.get? (Named.name a) (editNamed α edit fields) = (Fields.get? (Named.name a) fields).map edit := by
  have hname : Named.isName α (Named.name a) = true := Named.isName_iff.2 ⟨a, rfl⟩
  have hget := Fields.get?_mapValues (fun k v => if Named.isName α k then edit v else v) (Named.name a) fields
  simp only [hname, if_true] at hget
  exact hget

theorem editedAt_editNamed [LawfulNamed α] {inner : List Step → Prop} {rule : Json → Json}
    (h : ∀ v, EditedAt inner rule v (edit v)) (fields : List (String × Json)) :
    EditedAt (fun path => ∃ (a : α) (rest : List Step), path = .key (Named.name a) :: rest ∧ inner rest) rule
      (.obj fields) (.obj (editNamed α edit fields)) := by
  let editValue (key : String) (v : Json) : Json := if Named.isName α key then edit v else v
  apply editedAt_obj (Fields.keys_mapValues editValue fields) fun key => Fields.get?_mapValues editValue key fields
  · rintro ⟨_, _, ⟨⟩, -⟩
  · intro key v hv
    dsimp only [editValue]
    cases hname : Named.isName α key with
    | true =>
      obtain ⟨a, rfl⟩ := Named.isName_iff.1 hname
      rw [if_pos rfl]
      apply (h v).congr
      intro path
      constructor
      · rintro ⟨a', rest, heq, hrest⟩
        rw [List.cons.injEq] at heq
        rw [heq.2]
        exact hrest
      · intro hpath
        exact ⟨a, path, rfl, hpath⟩
    | false =>
      rw [if_neg Bool.false_ne_true]
      apply editedAt_self
      rintro path w ⟨a, _, heq, -⟩
      cases heq
      rw [Named.isName_iff.2 ⟨a, rfl⟩] at hname
      cases hname

end Named

theorem normalizeOffsets_eq (offsets : List (String × Json)) :
    normalizeOffsets offsets = editNamed Side percentage offsets := by
  apply List.map_congr_left
  rintro ⟨k, v⟩ -
  dsimp only
  split
  · rfl
  · rfl

theorem normalizeBlock_eq (f : String × Json) :
    normalizeBlock f = (f.1, if Named.isName Device f.1 then percentages f.2 else f.2) := by
  obtain ⟨k, v⟩ := f
  cases v with
  | obj offsets =>
    rw [normalizeBlock]
    dsimp only [percentages]
    split
    · rfl
    · rfl
  | _ =>
    unfold normalizeBlock percentages
    split
    · rename_i heq
      cases heq
    · rw [ite_self]

theorem normalizePosition_obj (blocks : List (String × Json)) :
    normalizePosition (.obj blocks) = .obj (editNamed Device percentages blocks) := by
  rw [normalizePosition, funext normalizeBlock_eq, editNamed]

theorem percentages_percentages (block : Json) : percentages (percentages block) = percentages block := by
  cases block with
  | obj offsets =>
    dsimp only [percentages]
    rw [normalizeOffsets_eq, normalizeOffsets_eq, editNamed_editNamed percentage_percentage]
  | _ => rfl

theorem normalizePosition_normalizePosition (v : Json) :
    normalizePosition (normalizePosition v) = normalizePosition v := by
  cases v with
  | obj blocks => rw [normalizePosition_obj, normalizePosition_obj, editNamed_editNamed percentages_percentages]
  | _ => rfl

/-- The way from a component to an offset of its position. -/
def IsOffset (_ : Json) (path : List Step) : Prop :=
  ∃ (d : Device) (s : Side), path = [.key "position", .key (Named.name d), .key (Named.name s)]

theorem editedAt_percentages (block : Json) :
    EditedAt (fun path => ∃ s : Side, path = [.key (Named.name s)]) percentage block (percentages block) := by
  cases block with
  | obj offsets =>
    have hoffset (v : Json) : EditedAt (· = []) percentage v (percentage v) :=
      editedAt_root (fun _ => Iff.rfl) (child?_percentage v)
    dsimp only [percentages]
    rw [normalizeOffsets_eq]
    apply (editedAt_editNamed hoffset offsets).congr
    intro path
    simp
  | _ =>
    apply editedAt_self
    rintro path w ⟨s, rfl⟩ ⟨⟩

theorem editedAt_normalizePosition (v : Json) :
    EditedAt (fun path => ∃ (d : Device) (s : Side), path = [.key (Named.name d), .key (Named.name s)]) percentage v
      (normalizePosition v) := by
  cases v with
  | obj blocks =>
    rw [normalizePosition_obj]
    apply (editedAt_editNamed editedAt_percentages blocks).congr
    intro path
    constructor
    · rintro ⟨d, s, rfl⟩
      exact ⟨d, _, rfl, s, rfl⟩
    · rintro ⟨d, _, rfl, s, rfl⟩
      exact ⟨d, s, rfl⟩
  | _ =>
    apply editedAt_self
    rintro path w ⟨d, s, rfl⟩ ⟨⟩

/-- The position among the fields of a component. -/
def editPosition (_ : List (String × Json)) (key : String) (v : Json) : Json :=
  if key == "position" then normalizePosition v else v

theorem normalizeFields_eq (fields : List (String × Json)) :
    normalizeFields fields = editFields editPosition normalizeChildren fields := by
  induction fields with
  | nil => rfl
  | cons f rest ih =>
    obtain ⟨k, v⟩ := f
    rw [normalizeFields, ih, editFields, editFields, List.map_cons]
    congr 1
    by_cases hposition : k = "position"
    · subst hposition
      rfl
    · by_cases hchildren : k = "children"
      · subst hchildren
        rfl
      · simp [editField, editPosition, hposition, hchildren]

theorem normalize_edits : Edits editPosition normalizeComponent normalizeChildren normalizeComponents where
  toKeepsOutline := normalize_keepsOutline
  fields fields := by rw [normalizeComponent, normalizeFields_eq]

theorem normalizeChildren_normalizeChildren (v : Json) :
    normalizeChildren (normalizeChildren v) = normalizeChildren v := by
  apply normalize_keepsOutline.under_under
  intro items _ c _
  apply normalize_edits.change_change
  intro fields key v _
  dsimp only [editPosition]
  split
  · exact normalizePosition_normalizePosition v
  · rfl

/-- Offsets are all that changes in a list of components. -/
theorem editedAt_normalizeChildren (v : Json) : EditedAt (Among IsOffset v) percentage v (normalizeChildren v) := by
  apply normalize_keepsOutline.editedAt_under
  intro items _ c _
  apply normalize_edits.editedAt_change
  · rintro c path ⟨d, s, rfl⟩
    exact ⟨"position", _, rfl, by decide⟩
  · intro fields key v _ _
    by_cases hkey : key = "position"
    · subst hkey
      apply (editedAt_normalizePosition v).congr
      intro path
      simp [IsOffset]
    · rw [editPosition, if_neg (by simpa using hkey)]
      apply editedAt_self
      rintro path w ⟨d, s, heq⟩
      cases heq
      exact (hkey rfl).elim

end Template

section Reading

open Template

theorem filterMap_normalizeOffsets {α : Type} {given : String × Json → Option α}
    (h : ∀ k v, given (k, percentage v) = given (k, v)) (offsets : List (String × Json)) :
    (normalizeOffsets offsets).filterMap given = offsets.filterMap given := by
  rw [normalizeOffsets_eq, editNamed, List.filterMap_map]
  apply List.filterMap_congr
  rintro ⟨k, v⟩ -
  dsimp only [Function.comp_apply]
  split
  · exact h k v
  · rfl

theorem readOffsets_normalizeOffsets (offsets : List (String × Json)) :
    readOffsets (normalizeOffsets offsets) = readOffsets offsets := by
  rw [readOffsets, filterMap_normalizeOffsets, readOffsets]
  intro k v
  dsimp only
  rw [isNull_percentage, percentage_percentage]

theorem deviceBlocks_normalizePosition (v : Json) :
    deviceBlocks (normalizePosition v) = (deviceBlocks v).map (List.map fun b => (b.1, percentages b.2)) := by
  cases v with
  | obj blocks =>
    rw [normalizePosition_obj, deviceBlocks, deviceBlocks, Checked.map, List.map_filterMap, editNamed,
      List.filterMap_map]
    congr 1
    apply List.filterMap_congr
    rintro ⟨k, v⟩ -
    dsimp only [Function.comp_apply]
    cases hd : (Named.ofName? k : Option Device) with
    | none => rfl
    | some d =>
      have hname : Named.isName Device k = true := by rw [Named.isName, hd, Option.isSome_some]
      rw [hname]
      rfl
  | _ => rfl

theorem percentages_of_ne {block : Json} (h : ∀ offsets, block ≠ .obj offsets) : percentages block = block := by
  cases block with
  | obj offsets => exact (h offsets rfl).elim
  | _ => rfl

theorem positionBlocks_of_ne {d : Device} {v : Json} (h : ∀ offsets, v ≠ .obj offsets) (rest : List (Device × Json)) :
    positionBlocks ((d, v) :: rest) = if v.isSet then .fault .lacksParts else positionBlocks rest := by
  rw [positionBlocks]
  exact h

theorem positionBlocks_percentages (blocks : List (Device × Json)) :
    positionBlocks (blocks.map fun b => (b.1, percentages b.2)) =
      (positionBlocks blocks).map (List.map fun b => (b.1, normalizeOffsets b.2)) := by
  induction blocks with
  | nil => rfl
  | cons b rest ih =>
    obtain ⟨d, v⟩ := b
    by_cases hobj : ∃ offsets, v = .obj offsets
    · obtain ⟨offsets, rfl⟩ := hobj
      cases offsets with
      | nil => exact ih
      | cons f offsets =>
        have hcons : positionBlocks ((d, .obj (f :: offsets)) :: rest) =
            (positionBlocks rest).map ((d, f :: offsets) :: ·) := rfl
        have hcons' (rest : List (Device × Json)) : positionBlocks ((d, percentages (.obj (f :: offsets))) :: rest) =
            (positionBlocks rest).map ((d, normalizeOffsets (f :: offsets)) :: ·) := rfl
        rw [List.map_cons, hcons', hcons, ih]
        cases positionBlocks rest with
        | valid found => rfl
        | invalid issues => rfl
        | fault f => rfl
    · have hv : ∀ offsets, v ≠ .obj offsets := fun offsets h => hobj ⟨offsets, h⟩
      rw [List.map_cons, percentages_of_ne hv, positionBlocks_of_ne hv, positionBlocks_of_ne hv, ih]
      split
      · rfl
      · rfl

theorem Checked.andThen_map {α β γ : Type} (x : Checked α) (f : α → β) (g : β → Checked γ) :
    (x.map f).andThen g = x.andThen fun a => g (f a) := by
  cases x with
  | valid a => rfl
  | invalid issues => rfl
  | fault e => rfl

theorem Checked.all_comp {α β γ : Type} (f : α → β) (read : β → Checked γ) (l : List α) :
    all read (l.map f) = all (fun a => read (f a)) l := by
  induction l with
  | nil => rfl
  | cons a rest ih => rw [List.map_cons, all, all, ih]

theorem readPosition_normalizePosition (v : Json) : readPosition (normalizePosition v) = readPosition v := by
  rw [readPosition, deviceBlocks_normalizePosition, Checked.andThen_map, readPosition]
  congr 1
  funext blocks
  rw [positionBlocks_percentages, Checked.andThen_map]
  congr 1
  funext found
  rw [Checked.all_comp]
  dsimp only
  congr 1
  funext b
  rw [readOffsets_normalizeOffsets]

theorem Reader.field_congr {α : Type} {fields fields' : List (String × Json)} {keys : List String}
    (h : ∀ k ∈ keys, Fields.get? k fields' = Fields.get? k fields) (default : α) (read : Reader α) :
    Reader.field fields' keys default read = Reader.field fields keys default read := by
  rw [Reader.field, find?_congr h, Reader.field]

namespace Component

theorem readChildrenOf_eq (fields : List (String × Json)) :
    readChildrenOf fields =
      ((Fields.get? "children" fields).map fun v => (readChildren v).under "children").getD (.valid []) := by
  induction fields with
  | nil => rfl
  | cons f rest ih =>
    obtain ⟨k, v⟩ := f
    rw [readChildrenOf, Fields.get?]
    split
    · rfl
    · exact ih

theorem readAll_map {change : Json → Json} {items : List Json} (h : ∀ c ∈ items, read (change c) = read c) (i : Nat) :
    readAll i (items.map change) = readAll i items := by
  induction items generalizing i with
  | nil => rfl
  | cons c rest ih =>
    rw [List.forall_mem_cons] at h
    rw [List.map_cons, readAll, readAll, h.1, ih h.2]

theorem readChildren_normalizeChildren {v : Json}
    (h : ∀ items, v = .arr items → ∀ c ∈ items, read (normalizeComponent c) = read c) :
    readChildren (normalizeChildren v) = readChildren v := by
  cases v with
  | arr items =>
    rw [normalizeChildren, normalize_keepsOutline.all_eq_map, readChildren, readChildren, readAll_map (h items rfl)]
  | _ =>
    rw [normalize_keepsOutline.noList]
    rintro _ ⟨⟩

/-- A component is read as it would be before its offsets became percentages, or turned down with the same issues. -/
theorem read_normalizeComponent (c : Json) : read (normalizeComponent c) = read c := by
  induction c using component_induction with
  | h c ih =>
    cases c with
    | obj fields =>
      have hget {key : String} (hposition : (key == "position") = false) (hchildren : (key == "children") = false) :
          Fields.get? key (normalizeFields fields) = Fields.get? key fields :=
        get?_normalizeFields_of_ne hposition hchildren
      have hrequired {α : Type} {key : String} (hposition : (key == "position") = false)
          (hchildren : (key == "children") = false) (r : Reader α) :
          requiredField (normalizeFields fields) key r = requiredField fields key r := by
        rw [requiredField, hget hposition hchildren, requiredField]
      have hfield {α : Type} {keys : List String}
          (hkeys : keys.all (fun k => k != "position" && k != "children") = true) (default : α) (r : Reader α) :
          Reader.field (normalizeFields fields) keys default r = Reader.field fields keys default r := by
        apply field_congr
        intro key hkey
        have hne := List.all_eq_true.1 hkeys key hkey
        simp only [Bool.and_eq_true, bne_iff_ne] at hne
        exact hget (by simpa using hne.1) (by simpa using hne.2)
      have hposition : Reader.field (normalizeFields fields) ["position"] [] readPosition =
          Reader.field fields ["position"] [] readPosition := by
        rw [Reader.field, Reader.field, find?_singleton, find?_singleton, get?_normalizeFields]
        cases Fields.get? "position" fields with
        | none => rfl
        | some v => exact congrArg (Checked.under "position") (readPosition_normalizePosition v)
      have hchildren : readChildrenOf (normalizeFields fields) = readChildrenOf fields := by
        rw [readChildrenOf_eq, readChildrenOf_eq, get?_normalizeFields]
        cases hv : Fields.get? "children" fields with
        | none => rfl
        | some v =>
          have hread : readChildren (normalizeChildren v) = readChildren v := by
            apply readChildren_normalizeChildren
            rintro items rfl
            exact ih fields items rfl (Fields.mem_of_get? hv)
          exact congrArg (Checked.under "children") hread
      rw [normalizeComponent, read, hrequired rfl rfl, hrequired rfl rfl, hfield rfl, hfield rfl, hposition, hfield rfl,
        hchildren, hfield rfl, hfield rfl, hfield rfl, read]
    | _ =>
      rw [normalize_keepsOutline.other]
      rintro _ ⟨⟩

theorem readList_normalizeChildren (v : Json) : readList (normalizeChildren v) = readList v := by
  cases v with
  | arr items =>
    rw [normalizeChildren, normalize_keepsOutline.all_eq_map, readList, readList,
      readAll_map fun c _ => read_normalizeComponent c]
  | _ =>
    rw [normalize_keepsOutline.noList]
    rintro _ ⟨⟩

end Component

end Reading

end ConsentBanner
