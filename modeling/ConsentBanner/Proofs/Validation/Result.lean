import ConsentBanner.Proofs.Template.Outline
import ConsentBanner.Proofs.Validation.Basic
import ConsentBanner.Proofs.Validation.Checkable

/-!
Validation comes to a result exactly for templates whose parts can be checked.
-/

namespace ConsentBanner

namespace Validation

/-- A component that can be checked if it is looked at, which is done down to the nesting limit. -/
def ComponentCheckable (limits : Limits) (c : RawComponent) : Prop :=
  c.depth ≤ limits.maxNesting → ∀ fields, c.value = .obj fields → FieldsCheckable fields

namespace Walk

/-- All actions that were noted can be looked up among the actions of components. -/
def Plain (w : Walk) : Prop := ∀ a ∈ w.actions, a.isScalar = true

/-- A walk that gets through, with actions that can be looked up. -/
def Lasts (x : Except Fault Walk) : Prop := ∃ w, x = .ok w ∧ w.Plain

theorem lasts_ok {w : Walk} : Lasts (.ok w) ↔ w.Plain := by
  constructor
  · rintro ⟨_, ⟨⟩, h⟩
    exact h
  · exact fun h => ⟨w, rfl, h⟩

/-- A walk lasts when its first part does, and its rest from wherever that part has come to. -/
theorem lasts_bind {x : Except Fault Walk} {f : Walk → Except Fault Walk} {p : Prop}
    (h : ∀ w, Lasts (f w) ↔ w.Plain ∧ p) : Lasts (x >>= f) ↔ Lasts x ∧ p := by
  constructor
  · rintro ⟨w', hw', hplain⟩
    obtain ⟨w, hw, hw'⟩ := bind_eq_ok.1 hw'
    obtain ⟨hp, h⟩ := (h w).1 ⟨w', hw', hplain⟩
    exact ⟨⟨w, hw, hp⟩, h⟩
  · rintro ⟨⟨w, hw, hplain⟩, hp⟩
    obtain ⟨w', hw', hplain'⟩ := (h w).2 ⟨hplain, hp⟩
    exact ⟨w', bind_eq_ok.2 ⟨w, hw, hw'⟩, hplain'⟩

theorem lasts_complain {w : Walk} {c : Complaint} : Lasts (.ok (w.complain c)) ↔ w.Plain := lasts_ok

theorem lasts_passDeep {w : Walk} {limit : Int} : Lasts (.ok (w.passDeep limit)) ↔ w.Plain := by
  rw [lasts_ok]
  unfold passDeep
  split
  · rfl
  · rfl

theorem lasts_enter {limits : Limits} {path : Path} {fields : List (String × Json)} {w : Walk} :
    Lasts (w.enter limits path fields) ↔ w.Plain ∧ FieldsCheckable fields := by
  unfold enter Lasts
  simp only [bind_eq_ok]
  constructor
  · rintro ⟨w', ⟨⟨cs, seen⟩, hc, hw'⟩, hplain⟩
    cases hw'
    -- The check of a component lets some actions pass that stop the check of all actions in the end.
    have haction : (actionOf fields).isScalar = true := hplain _ (List.mem_append_right _ (List.mem_singleton_self _))
    exact ⟨fun a ha => hplain a (List.mem_append_left _ ha), (isOk_checkComponent haction).1 ⟨_, hc⟩⟩
  · rintro ⟨hplain, hfields⟩
    have hc : ∃ r, checkComponent limits path w.seen fields = .ok r := (isOk_checkComponent hfields.action).2 hfields
    obtain ⟨r, hc⟩ := hc
    refine ⟨_, ⟨r, hc, rfl⟩, ?_⟩
    intro a ha
    rcases List.mem_append.1 ha with ha | ha
    · exact hplain a ha
    · rw [List.mem_singleton.1 ha]
      exact hfields.action

end Walk

/-- Below the nesting limit nothing is looked at. -/
theorem checkable_of_deep {limits : Limits} {depth : Nat} (hd : limits.maxNesting < depth) (v : Json) :
    ∀ c ∈ componentsOf depth v, ComponentCheckable limits c := by
  intro c hc hlimit
  have hle := le_depth_of_mem hc
  omega

theorem checkable_of_other {limits : Limits} {depth : Nat} {v : Json} (hv : ∀ fields, v ≠ .obj fields) :
    ∀ c ∈ componentsOf depth v, ComponentCheckable limits c := by
  rw [componentsOf]
  · rw [List.forall_mem_singleton]
    intro _ fields h
    exact (hv fields h).elim
  · exact hv

theorem checkable_cons {limits : Limits} {depth : Nat} {fields : List (String × Json)} {cs : List RawComponent}
    (hd : ¬ limits.maxNesting < depth) :
    (∀ c ∈ (⟨depth, .obj fields⟩ :: cs : List RawComponent), ComponentCheckable limits c) ↔
      FieldsCheckable fields ∧ ∀ c ∈ cs, ComponentCheckable limits c := by
  rw [List.forall_mem_cons]
  refine and_congr_left' ⟨fun h => h (Int.not_lt.1 hd) fields rfl, ?_⟩
  rintro h _ _ ⟨⟩
  exact h

mutual

theorem lasts_walk {limits : Limits} {path : Path} {w : Walk} (v : Json) :
    Walk.Lasts (walk limits path v w) ↔
      w.Plain ∧ ∀ c ∈ componentsOf path.depth v, ComponentCheckable limits c := by
  by_cases hd : limits.maxNesting < path.depth
  -- What is inside a component that is too deep is too deep as well.
  · rw [walk_deep v hd, Walk.lasts_passDeep, iff_self_and]
    exact fun _ => checkable_of_deep hd v
  · cases v with
    | obj fields =>
      rw [walk, if_neg hd, Walk.lasts_bind fun _ => lasts_walkChildrenOf fields, Walk.lasts_enter, componentsOf,
        checkable_cons hd, and_assoc]
    | _ =>
      rw [walk_other hd (by rintro _ ⟨⟩), Walk.lasts_complain, iff_self_and]
      exact fun _ => checkable_of_other (by rintro _ ⟨⟩)

theorem lasts_walkChildrenOf {limits : Limits} {path : Path} {w : Walk} (fields : List (String × Json)) :
    Walk.Lasts (walkChildrenOf limits path fields w) ↔
      w.Plain ∧ ∀ c ∈ componentsAmong path.depth fields, ComponentCheckable limits c := by
  cases fields with
  | nil =>
    rw [walkChildrenOf, componentsAmong, Walk.lasts_ok, iff_self_and]
    exact fun _ => List.forall_mem_nil _
  | cons f rest =>
    obtain ⟨k, v⟩ := f
    rw [walkChildrenOf, componentsAmong]
    split
    · exact lasts_walkChildren v
    · exact lasts_walkChildrenOf rest

theorem lasts_walkChildren {limits : Limits} {path : Path} {w : Walk} (v : Json) :
    Walk.Lasts (walkChildren limits path v w) ↔
      w.Plain ∧ ∀ c ∈ componentsUnder path.depth v, ComponentCheckable limits c := by
  cases v with
  | null =>
    rw [walkChildren, Walk.lasts_ok, iff_self_and, componentsUnder]
    · exact fun _ => List.forall_mem_nil _
    · rintro _ ⟨⟩
  | arr items =>
    rw [walkChildren, componentsUnder]
    exact lasts_walkItems items
  | _ =>
    rw [walkChildren_other (by rintro (h | ⟨_, h⟩) <;> cases h), Walk.lasts_complain, iff_self_and, componentsUnder]
    · exact fun _ => List.forall_mem_nil _
    · rintro _ ⟨⟩

theorem lasts_walkItems {limits : Limits} {path : Path} {place : Nat} {w : Walk} (items : List Json) :
    Walk.Lasts (walkItems limits path place items w) ↔
      w.Plain ∧ ∀ c ∈ componentsIn (path.depth + 1) items, ComponentCheckable limits c := by
  cases items with
  | nil =>
    rw [walkItems, Walk.lasts_ok, componentsIn, iff_self_and]
    exact fun _ => List.forall_mem_nil _
  | cons v rest =>
    rw [walkItems, Walk.lasts_bind fun _ => lasts_walkItems rest, lasts_walk v, Path.depth_child, componentsIn,
      List.forall_mem_append, and_assoc]

end

theorem lasts_walkRoots {limits : Limits} {place : Nat} {w : Walk} (roots : List Json) :
    Walk.Lasts (walkRoots limits place roots w) ↔
      w.Plain ∧ ∀ c ∈ componentsIn 0 roots, ComponentCheckable limits c := by
  induction roots generalizing place w with
  | nil =>
    rw [walkRoots, Walk.lasts_ok, componentsIn, iff_self_and]
    exact fun _ => List.forall_mem_nil _
  | cons v rest ih =>
    rw [walkRoots, Walk.lasts_bind fun _ => ih, lasts_walk v, componentsIn, List.forall_mem_append, and_assoc]
    rfl

/-- The components of a forest can be checked; what is no list is only complained about. -/
def ForestCheckable (limits : Limits) (v : Json) : Prop :=
  ∀ roots, v = .arr roots → ∀ c ∈ componentsIn 0 roots, ComponentCheckable limits c

theorem checkForest_lasts {limits : Limits} {v : Json} :
    (∃ r, checkForest limits v = .ok r ∧ r.2.all Json.isScalar = true) ↔ ForestCheckable limits v := by
  unfold ForestCheckable
  cases v with
  | arr roots =>
    cases roots with
    | nil => simp [checkForest, componentsIn]
    | cons root roots =>
      have hwalk : Walk.Lasts (walkRoots limits 0 (root :: roots) {}) ↔
          ∀ c ∈ componentsIn 0 (root :: roots), ComponentCheckable limits c := by
        rw [lasts_walkRoots, and_iff_right]
        exact List.forall_mem_nil _
      have hroots : (∀ items, Json.arr (root :: roots) = .arr items → ∀ c ∈ componentsIn 0 items,
          ComponentCheckable limits c) ↔ ∀ c ∈ componentsIn 0 (root :: roots), ComponentCheckable limits c := by
        constructor
        · exact fun h => h _ rfl
        · rintro h _ ⟨⟩
          exact h
      rw [hroots, ← hwalk, checkForest]
      · constructor
        · rintro ⟨r, hr, hplain⟩
          obtain ⟨w, hw, hr⟩ := bind_eq_ok.1 hr
          cases hr
          exact ⟨w, hw, List.all_eq_true.1 hplain⟩
        · rintro ⟨w, hw, hplain⟩
          exact ⟨_, bind_eq_ok.2 ⟨w, hw, rfl⟩, List.all_eq_true.2 hplain⟩
      · simp
  | _ =>
    rw [checkForest]
    · simp
    · simp
    · simp

/-- The parts of a template that are looked into can be checked. -/
structure PartsCheckable (limits : Limits) (template : List (String × Json)) : Prop where
  layout : LayoutCheckable (valueOf "layout" template)
  forest : ForestCheckable limits (valueOf "components" template)
  settings : SettingsCheckable (valueOf "settings" template)

theorem isOk_complaints {limits : Limits} {template : List (String × Json)} :
    (∃ cs, complaints limits (.obj template) = .ok cs) ↔ PartsCheckable limits template := by
  rw [complaints]
  constructor
  · rintro ⟨cs, h⟩
    simp only [bind_eq_ok] at h
    obtain ⟨layout, hl, ⟨components, actions⟩, hf, settings, hs, h⟩ := h
    dsimp only at h
    split at h
    · cases h
    · rename_i hplain
      simp only [Bool.not_eq_true', Bool.not_eq_false] at hplain
      exact ⟨isOk_checkLayout.1 ⟨_, hl⟩, checkForest_lasts.1 ⟨_, hf, hplain⟩, isOk_checkSettings.1 ⟨_, hs⟩⟩
  · rintro ⟨hlayout, hforest, hsettings⟩
    obtain ⟨layout, hl⟩ := (@isOk_checkLayout limits _).2 hlayout
    obtain ⟨⟨components, actions⟩, hf, hplain⟩ := checkForest_lasts.2 hforest
    obtain ⟨settings, hs⟩ := isOk_checkSettings.2 hsettings
    dsimp only at hplain
    rw [hl]
    dsimp only [bind, Except.bind]
    rw [hf]
    dsimp only
    rw [hs, hplain]
    exact ⟨_, rfl⟩

/-- The offsets of a component, which are all that changes, do not matter to whether it can be checked. -/
theorem fieldsCheckable_normalizeFields {fields : List (String × Json)} :
    FieldsCheckable (Template.normalizeFields fields) ↔ FieldsCheckable fields := by
  have hid := Template.get?_normalizeFields "id" fields
  have hkind := Template.get?_normalizeFields "type" fields
  have haction := Template.get?_normalizeFields "action" fields
  have hcontent := Template.get?_normalizeFields "content" fields
  simp only [String.reduceBEq, Bool.false_eq_true, if_false, Option.map_id'] at hid hkind haction hcontent
  have ha : actionOf (Template.normalizeFields fields) = actionOf fields := by
    simp only [actionOf, haction]
  constructor
  · rintro ⟨h₁, h₂, h₃, h₄⟩
    simp only [valueOf, hid, hkind, ha, hcontent] at h₁ h₂ h₃ h₄
    exact ⟨h₁, h₂, h₃, h₄⟩
  · rintro ⟨h₁, h₂, h₃, h₄⟩
    constructor
    all_goals simpa only [valueOf, hid, hkind, ha, hcontent]

theorem componentCheckable_normalize {limits : Limits} (c : RawComponent) :
    ComponentCheckable limits (c.changed Template.normalizeComponent) ↔ ComponentCheckable limits c := by
  obtain ⟨depth, v⟩ := c
  unfold ComponentCheckable RawComponent.changed
  cases v with
  | obj fields =>
    simp only [Template.normalizeComponent, Json.obj.injEq, forall_eq', fieldsCheckable_normalizeFields]
  | _ => rw [Template.normalize_keepsOutline.other _ (by rintro _ ⟨⟩)]

theorem forestCheckable_normalize {limits : Limits} {v : Json} :
    ForestCheckable limits (Template.normalizeChildren v) ↔ ForestCheckable limits v := by
  unfold ForestCheckable
  cases v with
  | arr roots =>
    simp only [Template.normalizeChildren, Json.arr.injEq, forall_eq',
      Template.normalize_keepsOutline.componentsIn_change, List.forall_mem_map, componentCheckable_normalize]
  | _ => rw [Template.normalize_keepsOutline.noList _ (by rintro _ ⟨⟩)]

/-- A template that can be checked: its components can be gone through, and its parts can be checked. -/
structure Checkable (limits : Limits) (template : List (String × Json)) : Prop where
  components : Template.IsCollection (valueOf "components" template)
  parts : PartsCheckable limits template

theorem partsCheckable_recomposed {limits : Limits} {fields fields' : List (String × Json)}
    (h : Template.Recomposed Template.normalizeChildren fields fields') :
    PartsCheckable limits fields' ↔ PartsCheckable limits fields := by
  have hcomponents : valueOf "components" fields' = Template.normalizeChildren (valueOf "components" fields) := by
    rw [valueOf, h.get?_components, valueOf]
    cases Fields.get? "components" fields with
    | none => exact (Template.normalize_keepsOutline.noList _ (by rintro _ ⟨⟩)).symm
    | some v => rfl
  constructor
  · rintro ⟨hlayout, hforest, hsettings⟩
    rw [hcomponents, forestCheckable_normalize] at hforest
    rw [valueOf, h.get?_other rfl] at hlayout hsettings
    exact ⟨hlayout, hforest, hsettings⟩
  · rintro ⟨hlayout, hforest, hsettings⟩
    refine ⟨?_, ?_, ?_⟩
    · rwa [valueOf, h.get?_other rfl]
    · rwa [hcomponents, forestCheckable_normalize]
    · rwa [valueOf, h.get?_other rfl]

/-- A number in the place of the components stops the validation. -/
example : normalizedComplaints {} (.obj [("components", .int 5)]) = .error .wrongKind := by rfl

end Validation

end ConsentBanner
