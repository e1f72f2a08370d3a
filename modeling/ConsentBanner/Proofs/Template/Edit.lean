import ConsentBanner.Proofs.Json.Path
import ConsentBanner.Proofs.Template.Outline

/-!
Changes that edit the fields of the components of a template one by one, at any depth of their children: to which ways
they come down, and when a second change finds nothing left to do.
-/

namespace ConsentBanner

open Json

namespace Validation

/-- What holds of a component whenever it holds of those among its children holds of all components. -/
theorem component_induction {p : Json → Prop}
    (h : ∀ v, (∀ fields items, v = .obj fields → ("children", .arr items) ∈ fields → ∀ c ∈ items, p c) → p v)
    (v : Json) : p v := by
  apply h v
  intro fields items hv hchildren c hc
  exact component_induction h c
termination_by sizeOf v
decreasing_by
  have hfields : sizeOf ("children", Json.arr items) < sizeOf fields := List.sizeOf_lt_of_mem hchildren
  have hitems : sizeOf c < sizeOf items := List.sizeOf_lt_of_mem hc
  rw [Prod.mk.sizeOf_spec, Json.arr.sizeOf_spec] at hfields
  rw [hv, Json.obj.sizeOf_spec]
  omega

section Ways

mutual

/-- The ways from a component that lead on as the goal says, from it or from a component inside it. -/
inductive Through (goal : Json → List Step → Prop) : Json → List Step → Prop
  | here {c : Json} {path : List Step} (h : goal c path) : Through goal c path
  | children {fields : List (String × Json)} {v : Json} {path : List Step}
      (hv : Fields.get? "children" fields = some v) (h : Among goal v path) :
      Through goal (.obj fields) (.key "children" :: path)

/-- Such ways from a list of components. -/
inductive Among (goal : Json → List Step → Prop) : Json → List Step → Prop
  | item {items : List Json} {c : Json} {i : Nat} {path : List Step} (hc : items[i]? = some c)
      (h : Through goal c path) : Among goal (.arr items) (.place i :: path)

end

/-- Such ways from a template. -/
inductive Reaches (goal : Json → List Step → Prop) : Json → List Step → Prop
  | intro {fields : List (String × Json)} {v : Json} {path : List Step}
      (hv : Fields.get? "components" fields = some v) (h : Among goal v path) :
      Reaches goal (.obj fields) (.key "components" :: path)

variable {goal : Json → List Step → Prop}

theorem among_item {items : List Json} {c : Json} {i : Nat} (hc : items[i]? = some c) (path : List Step) :
    Among goal (.arr items) (.place i :: path) ↔ Through goal c path := by
  constructor
  · intro h
    cases h with
    | item hc' h =>
      cases hc.symm.trans hc'
      exact h
  · exact .item hc

theorem through_children {fields : List (String × Json)} {v : Json}
    (hgoal : ∀ path, ¬ goal (.obj fields) (.key "children" :: path)) (hv : Fields.get? "children" fields = some v)
    (path : List Step) :
    Through goal (.obj fields) (.key "children" :: path) ↔ Among goal v path := by
  constructor
  · intro h
    cases h with
    | here h => exact (hgoal path h).elim
    | children hv' h =>
      cases hv.symm.trans hv'
      exact h
  · exact .children hv

theorem through_key {fields : List (String × Json)} {key : String} (hkey : key ≠ "children") (path : List Step) :
    Through goal (.obj fields) (.key key :: path) ↔ goal (.obj fields) (.key key :: path) := by
  constructor
  · intro h
    cases h with
    | here h => exact h
    | children => exact (hkey rfl).elim
  · exact .here

end Ways

/-- A field of a component after a change to what stands as children and to the other fields. -/
def editField (edit : List (String × Json) → String → Json → Json) (under : Json → Json) (fields : List (String × Json))
    (key : String) (v : Json) : Json :=
  if key == "children" then under v else edit fields key v

def editFields (edit : List (String × Json) → String → Json → Json) (under : Json → Json)
    (fields : List (String × Json)) : List (String × Json) :=
  fields.map fun f => (f.1, editField edit under fields f.1 f.2)

/-- A change of components that edits each of their fields by what the component is, and changes the components among
their children. -/
structure Edits (edit : List (String × Json) → String → Json → Json) (change under : Json → Json)
    (all : List Json → List Json) : Prop extends KeepsOutline change under all where
  fields : ∀ fields, change (.obj fields) = .obj (editFields edit under fields)

section

variable {edit : List (String × Json) → String → Json → Json} {change under : Json → Json}
  {all : List Json → List Json}

theorem KeepsOutline.all_eq_map (hc : KeepsOutline change under all) (items : List Json) :
    all items = items.map change := by
  induction items with
  | nil => exact hc.nil
  | cons v rest ih => rw [hc.cons, ih, List.map_cons]

theorem editField_children (fields : List (String × Json)) (v : Json) :
    editField edit under fields "children" v = under v :=
  if_pos rfl

theorem editField_of_ne {fields : List (String × Json)} {key : String} (hkey : key ≠ "children") (v : Json) :
    editField edit under fields key v = edit fields key v := by
  rw [editField, if_neg (by simpa using hkey)]

theorem KeepsOutline.under_under (hc : KeepsOutline change under all) {v : Json}
    (h : ∀ items, v = .arr items → ∀ c ∈ items, change (change c) = change c) : under (under v) = under v := by
  by_cases hlist : ∃ items, v = .arr items
  · obtain ⟨items, rfl⟩ := hlist
    rw [hc.list, hc.list, hc.all_eq_map, hc.all_eq_map, List.map_map]
    exact congrArg Json.arr (List.map_congr_left (h items rfl))
  · have hv : under v = v := hc.noList v fun items hitems => hlist ⟨items, hitems⟩
    rw [hv, hv]

/-- A second change finds nothing to do if it finds nothing to do in any field. -/
theorem Edits.change_change (he : Edits edit change under all)
    (hedit : ∀ fields key v, key ≠ "children" →
      edit (editFields edit under fields) key (edit fields key v) = edit fields key v)
    (c : Json) : change (change c) = change c := by
  induction c using component_induction with
  | h v ih =>
    by_cases hobj : ∃ fields, v = .obj fields
    · obtain ⟨fields, rfl⟩ := hobj
      -- Both changes are made field by field, so they meet in each field.
      have htwice : editFields edit under (editFields edit under fields) = fields.map fun f =>
          (f.1, editField edit under (editFields edit under fields) f.1 (editField edit under fields f.1 f.2)) :=
        List.map_map
      rw [he.fields, he.fields, htwice]
      congr 1
      apply List.map_congr_left
      rintro ⟨key, v⟩ hf
      by_cases hkey : key = "children"
      · subst hkey
        have hunder : under (under v) = under v := by
          apply he.under_under
          rintro items rfl
          exact ih fields items rfl hf
        rw [editField_children, editField_children, hunder]
      · rw [editField_of_ne hkey, editField_of_ne hkey, hedit fields key v hkey]
    · have hv : change v = v := he.other v fun fields hfields => hobj ⟨fields, hfields⟩
      rw [hv, hv]

variable {goal : Json → List Step → Prop} {rule : Json → Json}

theorem KeepsOutline.editedAt_under (hc : KeepsOutline change under all) {v : Json}
    (h : ∀ items, v = .arr items → ∀ c ∈ items, EditedAt (Through goal c) rule c (change c)) :
    EditedAt (Among goal v) rule v (under v) := by
  by_cases hlist : ∃ items, v = .arr items
  · obtain ⟨items, rfl⟩ := hlist
    rw [hc.list, hc.all_eq_map]
    apply editedAt_arr
    · rintro ⟨⟩
    · intro i c hi
      exact (h items rfl c (List.mem_of_getElem? hi)).congr (among_item hi)
  · rw [hc.noList v fun items hitems => hlist ⟨items, hitems⟩]
    apply editedAt_self
    intro path w hpath
    cases hpath with
    | item => exact (hlist ⟨_, rfl⟩).elim

/-- A component is changed at the ways at which its own fields are, and so are the components inside it. -/
theorem Edits.editedAt_change (he : Edits edit change under all)
    (hgoal : ∀ c path, goal c path → ∃ key rest, path = .key key :: rest ∧ key ≠ "children")
    (hedit : ∀ fields key v, key ≠ "children" → Fields.get? key fields = some v →
      EditedAt (fun path => goal (.obj fields) (.key key :: path)) rule v (edit fields key v)) (c : Json) :
    EditedAt (Through goal c) rule c (change c) := by
  induction c using component_induction with
  | h c ih =>
    by_cases hobj : ∃ fields, c = .obj fields
    · obtain ⟨fields, rfl⟩ := hobj
      rw [he.fields]
      apply editedAt_obj (Fields.keys_mapValues (editField edit under fields) fields) fun key =>
        Fields.get?_mapValues (editField edit under fields) key fields
      · intro hroot
        cases hroot with
        | here h =>
          obtain ⟨_, _, ⟨⟩, -⟩ := hgoal _ _ h
      · intro key v hv
        -- Only under `children` do ways lead on into other components.
        by_cases hkey : key = "children"
        · subst hkey
          rw [editField_children]
          have hunder : EditedAt (Among goal v) rule v (under v) := by
            apply he.editedAt_under
            rintro items rfl
            exact ih fields items rfl (Fields.mem_of_get? hv)
          refine hunder.congr (through_children (fun path h => ?_) hv)
          obtain ⟨_, _, ⟨⟩, hne⟩ := hgoal _ _ h
          exact hne rfl
        · rw [editField_of_ne hkey]
          exact (hedit fields key v hkey hv).congr (through_key hkey)
    · rw [he.other c fun fields hfields => hobj ⟨fields, hfields⟩]
      apply editedAt_self
      intro path w hpath hw
      cases hpath with
      | here h =>
        obtain ⟨key, rest, rfl, -⟩ := hgoal _ _ h
        cases c with
        | obj fields => exact (hobj ⟨fields, rfl⟩).elim
        | _ => cases hw
      | children => exact (hobj ⟨_, rfl⟩).elim

end

end Validation

namespace Template

open Validation

section

variable {under : Json → Json} {fields : List (String × Json)}

theorem keys_recompose (under : Json → Json) (fields : List (String × Json)) :
    (recompose under fields).map (·.1) = fields.map (·.1) := by
  cases hv : Fields.get? "components" fields with
  | none => rw [recompose_of_none hv]
  | some v => rw [recompose_of_get? hv, Fields.keys_set_of_get? hv]

theorem recompose_recompose (h : ∀ v, under (under v) = under v) :
    recompose under (recompose under fields) = recompose under fields := by
  apply recompose_eq_self
  intro v hv
  rw [(recomposed_recompose under fields).get?_components] at hv
  obtain ⟨w, -, rfl⟩ := Option.map_eq_some_iff.1 hv
  exact h w

theorem reaches_components {goal : Json → List Step → Prop} {v : Json} (hv : Fields.get? "components" fields = some v)
    (path : List Step) : Reaches goal (.obj fields) (.key "components" :: path) ↔ Among goal v path := by
  constructor
  · intro h
    cases h with
    | intro hv' h =>
      cases hv.symm.trans hv'
      exact h
  · exact .intro hv

/-- A template is changed where its components are. -/
theorem editedAt_recompose {goal : Json → List Step → Prop} {rule : Json → Json}
    (h : ∀ v, EditedAt (Among goal v) rule v (under v)) :
    EditedAt (Reaches goal (.obj fields)) rule (.obj fields) (.obj (recompose under fields)) := by
  apply editedAt_obj (keys_recompose under fields) (recomposed_recompose under fields)
  · rintro ⟨⟩
  · intro key v hv
    by_cases hkey : key = "components"
    · subst hkey
      exact (h v).congr (reaches_components hv)
    · rw [if_neg (by simpa using hkey)]
      apply editedAt_self
      intro path w hpath
      cases hpath with
      | intro => exact (hkey rfl).elim

end

end Template

end ConsentBanner
