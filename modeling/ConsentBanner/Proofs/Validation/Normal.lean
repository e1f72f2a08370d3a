import ConsentBanner.Proofs.Template.Offset
import ConsentBanner.Validation.Basic

/-!
Templates with numeric offsets and the same templates with percentages: checks and readers cannot tell them apart.
-/

namespace ConsentBanner

open Json Template

namespace Validation

theorem isOffset_percentage (v : Json) : isOffset (percentage v) = isOffset v := by
  obtain h | ⟨hnumber, text, h⟩ := percentage_cases v
  · rw [h]
  · have hlast : (text ++ "%").toList.getLast? = some '%' := by
      rw [String.toList_append]
      exact List.getLast?_concat
    have htext : isOffset (.str (text ++ "%")) = true := by
      rw [isOffset, hlast]
      simp
    rw [h, htext]
    obtain ⟨n, rfl⟩ | ⟨x, rfl⟩ := hnumber
    · rfl
    · rfl

/-- The complaints about the offsets of one device. -/
theorem offsetComplaints_normalizeOffsets (d : Device) (path : Path) (offsets : List (String × Json)) :
    ((Named.all : List Side).filterMap fun side =>
      match Fields.get? (Named.name side) (normalizeOffsets offsets) with
      | some v => if isOffset v then none else some (Complaint.offset d side path)
      | none => none) =
    (Named.all : List Side).filterMap fun side =>
      match Fields.get? (Named.name side) offsets with
      | some v => if isOffset v then none else some (Complaint.offset d side path)
      | none => none := by
  apply List.filterMap_congr
  intro side _
  rw [normalizeOffsets_eq, get?_editNamed]
  cases Fields.get? (Named.name side) offsets with
  | none => rfl
  | some v =>
    dsimp only [Option.map_some]
    rw [isOffset_percentage]

theorem checkOffsets_normalizeBlocks (path : Path) (position : List (String × Json)) :
    checkOffsets path (position.map normalizeBlock) = checkOffsets path position := by
  rw [checkOffsets, checkOffsets]
  congr 1
  funext d
  rw [get?_normalizeBlocks]
  cases Fields.get? (Named.name d) position with
  | none => rfl
  | some block =>
    cases block with
    | obj offsets => exact offsetComplaints_normalizeOffsets d path offsets
    | _ => rfl

theorem checkPosition_normalizeFields (path : Path) (fields : List (String × Json)) :
    checkPosition path (normalizeFields fields) = checkPosition path fields := by
  rw [checkPosition, checkPosition, get?_normalizeFields]
  cases Fields.get? "position" fields with
  | none => rfl
  | some v =>
    cases v with
    | obj position => exact checkOffsets_normalizeBlocks path position
    | _ => rfl

section

variable {limits : Limits}

theorem checkComponent_normalizeFields (path : Path) (seen : List Json) (fields : List (String × Json)) :
    checkComponent limits path seen (normalizeFields fields) = checkComponent limits path seen fields := by
  have hid : checkId path seen (normalizeFields fields) = checkId path seen fields := by
    rw [checkId, get?_normalizeFields_of_ne rfl rfl, checkId]
  have hkind : checkKind path (normalizeFields fields) = checkKind path fields := by
    rw [checkKind, get?_normalizeFields_of_ne rfl rfl, checkKind]
  have haction : checkAction path (normalizeFields fields) = checkAction path fields := by
    rw [checkAction, get?_normalizeFields_of_ne rfl rfl, actionOf_normalizeFields, checkAction]
  have htext : checkText limits path (normalizeFields fields) = checkText limits path fields := by
    rw [checkText, get?_normalizeFields_of_ne rfl rfl, actionOf_normalizeFields, get?_normalizeFields_of_ne rfl rfl,
      checkText]
  rw [checkComponent, hid, hkind, haction, htext, checkPosition_normalizeFields, checkComponent]

theorem enter_normalizeFields (path : Path) (fields : List (String × Json)) (w : Walk) :
    w.enter limits path (normalizeFields fields) = w.enter limits path fields := by
  rw [Walk.enter, checkComponent_normalizeFields, actionOf_normalizeFields, Walk.enter]

theorem walkChildrenOf_eq (path : Path) (fields : List (String × Json)) (w : Walk) :
    walkChildrenOf limits path fields w = walkChildren limits path (valueOf "children" fields) w := by
  induction fields with
  | nil => rfl
  | cons f rest ih =>
    obtain ⟨k, v⟩ := f
    rw [walkChildrenOf, valueOf, Fields.get?]
    split
    · rfl
    · exact ih

theorem walkItems_map {change : Json → Json} {items : List Json}
    (h : ∀ c ∈ items, ∀ path w, walk limits path (change c) w = walk limits path c w) (path : Path) (i : Nat)
    (w : Walk) :
    walkItems limits path i (items.map change) w = walkItems limits path i items w := by
  induction items generalizing i w with
  | nil => rfl
  | cons c rest ih =>
    rw [List.forall_mem_cons] at h
    rw [List.map_cons, walkItems, walkItems, h.1]
    congr 1
    funext w'
    exact ih h.2 (i + 1) w'

theorem walkRoots_map {change : Json → Json} {items : List Json}
    (h : ∀ c ∈ items, ∀ path w, walk limits path (change c) w = walk limits path c w) (i : Nat) (w : Walk) :
    walkRoots limits i (items.map change) w = walkRoots limits i items w := by
  induction items generalizing i w with
  | nil => rfl
  | cons c rest ih =>
    rw [List.forall_mem_cons] at h
    rw [List.map_cons, walkRoots, walkRoots, h.1]
    congr 1
    funext w'
    exact ih h.2 (i + 1) w'

/-- The walk says the same of a component with percentages, and goes on the same. -/
theorem walk_normalizeComponent (c : Json) (path : Path) (w : Walk) :
    walk limits path (normalizeComponent c) w = walk limits path c w := by
  induction c using component_induction generalizing path w with
  | h c ih =>
    cases c with
    | obj fields =>
      have hchildren (w : Walk) :
          walkChildrenOf limits path (normalizeFields fields) w = walkChildrenOf limits path fields w := by
        rw [walkChildrenOf_eq, walkChildrenOf_eq, valueOf, valueOf, get?_normalizeFields]
        cases hv : Fields.get? "children" fields with
        | none => rfl
        | some v =>
          cases v with
          | arr items =>
            have hitems := walkItems_map (ih fields items rfl (Fields.mem_of_get? hv)) path 0 w
            rw [← normalize_keepsOutline.all_eq_map] at hitems
            exact hitems
          | _ => rfl
      rw [normalizeComponent, walk, walk, enter_normalizeFields, funext hchildren]
    | _ =>
      rw [normalize_keepsOutline.other]
      rintro _ ⟨⟩

theorem checkForest_normalizeChildren (v : Json) : checkForest limits (normalizeChildren v) = checkForest limits v := by
  cases v with
  | arr items =>
    cases items with
    | nil => rfl
    | cons c rest =>
      have hroots : walkRoots limits 0 ((c :: rest).map normalizeComponent) {} = walkRoots limits 0 (c :: rest) {} :=
        walkRoots_map (fun c _ => walk_normalizeComponent c) 0 {}
      rw [normalizeChildren, normalize_keepsOutline.all_eq_map, checkForest, hroots, checkForest]
      · simp
      · simp
  | _ =>
    rw [normalize_keepsOutline.noList]
    rintro _ ⟨⟩

theorem complaints_normalized (fields : List (String × Json)) :
    complaints limits (.obj (recompose normalizeChildren fields)) = complaints limits (.obj fields) := by
  have hget (key : String) (hkey : (key == "components") = false) :
      Fields.get? key (recompose normalizeChildren fields) = Fields.get? key fields :=
    (recomposed_recompose normalizeChildren fields).get?_other hkey
  have hforest : checkForest limits ((Fields.get? "components" (recompose normalizeChildren fields)).getD .null) =
      checkForest limits ((Fields.get? "components" fields).getD .null) := by
    rw [(recomposed_recompose normalizeChildren fields).get?_components]
    cases Fields.get? "components" fields with
    | none => rfl
    | some v => exact checkForest_normalizeChildren v
  rw [complaints, complaints, hget "layout" rfl, hforest, hget "theme" rfl, hget "settings" rfl]

end

end Validation

namespace Template

theorem read_normalized (fields : List (String × Json)) :
    Template.read (.obj (recompose normalizeChildren fields)) = Template.read (.obj fields) := by
  have hfield {α : Type} {keys : List String} (hkeys : keys.all (· != "components") = true) (default : α)
      (r : Reader α) : Reader.field (recompose normalizeChildren fields) keys default r =
        Reader.field fields keys default r := by
    apply Reader.field_congr
    intro key hkey
    have hne := List.all_eq_true.1 hkeys key hkey
    exact (recomposed_recompose normalizeChildren fields).get?_other (by simpa using hne)
  have hcomponents : Reader.field (recompose normalizeChildren fields) ["components"] [] Component.readList =
      Reader.field fields ["components"] [] Component.readList := by
    rw [Reader.field, Reader.field, Reader.find?_singleton, Reader.find?_singleton,
      (recomposed_recompose normalizeChildren fields).get?_components]
    cases Fields.get? "components" fields with
    | none => rfl
    | some v => exact congrArg (Checked.under "components") (Component.readList_normalizeChildren v)
  rw [Template.read, Reader.model, hfield rfl, hfield rfl, hfield rfl, hcomponents, hfield rfl, hfield rfl,
    Reader.model]

theorem isCollection_normalizeChildren {v : Json} (h : IsCollection v) : IsCollection (normalizeChildren v) := by
  cases v with
  | arr items =>
    rw [normalizeChildren]
    exact trivial
  | _ =>
    rw [normalize_keepsOutline.noList]
    · exact h
    · rintro _ ⟨⟩

theorem normalizePositions_recompose {fields : List (String × Json)} {t : Json}
    (h : normalizePositions (.obj fields) = .ok t) :
    normalizePositions (.obj (recompose normalizeChildren fields)) =
      .ok (.obj (recompose normalizeChildren fields)) := by
  have hcollection : IsCollection (Validation.valueOf "components" fields) := isOk_normalizePositions.1 ⟨t, h⟩
  have hcollection' : IsCollection (Validation.valueOf "components" (recompose normalizeChildren fields)) := by
    rw [Validation.valueOf] at hcollection ⊢
    rw [(recomposed_recompose normalizeChildren fields).get?_components]
    cases hv : Fields.get? "components" fields with
    | none => exact trivial
    | some v =>
      rw [hv] at hcollection
      exact isCollection_normalizeChildren hcollection
  obtain ⟨t', ht'⟩ := isOk_normalizePositions.2 hcollection'
  have htwice := normalizePositions_eq ht'
  rw [recompose_recompose normalizeChildren_normalizeChildren] at htwice
  rw [ht', htwice]

/-- A box around a component with two offsets, and with a third value that is none, and around a number. -/
def tiltedTemplate (top left : Json) : List (String × Json) :=
  [("components", .arr [.obj [("id", .str "box"), ("children", .arr [
    .obj [("position", .obj [("tablet", .obj [("top", top), ("left", left), ("depth", .int 2)])])], .int 7])]])]

theorem percentage_float : percentage (.float (.ofDecimal false 25 (-1))) = .str "2.5%" := by
  have htext : (percentage (.float (.ofDecimal false 25 (-1)))).asString? = some "2.5%" := by decide +kernel
  generalize percentage (.float (.ofDecimal false 25 (-1))) = v at htext
  cases v with
  | str text =>
    cases htext
    rfl
  | _ => cases htext

end Template

end ConsentBanner
