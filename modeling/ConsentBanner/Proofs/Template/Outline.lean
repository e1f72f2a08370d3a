import ConsentBanner.Asset.Template
import ConsentBanner.Proofs.Json.Fields
import ConsentBanner.Proofs.Validation.Outline
import ConsentBanner.Template.Position

/-!
Changes to the fields of raw components that keep what each component is and asks for.
-/

namespace ConsentBanner

namespace Validation

/-- A change of components, of what stands as children, and of lists of components that leaves types, actions
and nesting alone. -/
structure KeepsOutline (change under : Json → Json) (all : List Json → List Json) : Prop where
  object : ∀ fields, ∃ fields', change (.obj fields) = .obj fields' ∧
    Fields.get? "children" fields' = (Fields.get? "children" fields).map under ∧
    Fields.get? "type" fields' = Fields.get? "type" fields ∧
    Fields.get? "action" fields' = Fields.get? "action" fields
  other : ∀ v, (∀ fields, v ≠ .obj fields) → change v = v
  list : ∀ items, under (.arr items) = .arr (all items)
  noList : ∀ v, (∀ items, v ≠ .arr items) → under v = v
  nil : all [] = []
  cons : ∀ v rest, all (v :: rest) = change v :: all rest

/-- What a component is and asks for. -/
def RawComponent.asks (c : RawComponent) : Json × Json := (c.kind, c.action)

theorem offers_congr {a : ActionKind} {cs ds : List RawComponent}
    (h : cs.map RawComponent.asks = ds.map RawComponent.asks) : Offers a cs ↔ Offers a ds := by
  have hp : ∀ cs : List RawComponent,
      Offers a cs ↔ ∃ p ∈ cs.map RawComponent.asks, p.2 = .str (Named.name a) := by
    intro cs
    constructor
    · rintro ⟨c, hc, ha⟩
      exact ⟨c.asks, List.mem_map_of_mem hc, ha⟩
    · rintro ⟨p, hp, ha⟩
      obtain ⟨c, hc, rfl⟩ := List.mem_map.1 hp
      exact ⟨c, hc, ha⟩
  rw [hp, hp, h]

theorem componentsAmong_eq (depth : Nat) (fields : List (String × Json)) :
    componentsAmong depth fields = ((Fields.get? "children" fields).map (componentsUnder depth)).getD [] := by
  induction fields with
  | nil => rw [componentsAmong]; rfl
  | cons f rest ih =>
    obtain ⟨k, v⟩ := f
    rw [componentsAmong, Fields.get?]
    split
    · rfl
    · exact ih

/-- A component after a change to it. -/
def RawComponent.changed (change : Json → Json) (c : RawComponent) : RawComponent := ⟨c.depth, change c.value⟩

section

variable {change under : Json → Json} {all : List Json → List Json}

mutual

theorem KeepsOutline.componentsOf_change (hc : KeepsOutline change under all) (depth : Nat) : (v : Json) →
    componentsOf depth (change v) = (componentsOf depth v).map (RawComponent.changed change)
  | .obj fields => by
    obtain ⟨fields', he, hk, -, -⟩ := hc.object fields
    rw [he, componentsOf, componentsOf, List.map_cons, hc.componentsAmong_change depth fields hk,
      RawComponent.changed, he]
  | .null | .bool _ | .int _ | .float _ | .str _ | .arr _ | .date _ | .moment _ | .bytes _ | .pair _ _ | .set _
  | .keyed _ _ => by
    rw [hc.other _ (by rintro _ ⟨⟩), componentsOf, List.map_singleton, RawComponent.changed,
      hc.other _ (by rintro _ ⟨⟩)]
    rintro _ ⟨⟩

theorem KeepsOutline.componentsAmong_change (hc : KeepsOutline change under all) (depth : Nat) :
    (fields : List (String × Json)) → {fields' : List (String × Json)} →
    Fields.get? "children" fields' = (Fields.get? "children" fields).map under →
    componentsAmong depth fields' = (componentsAmong depth fields).map (RawComponent.changed change)
  | [], fields', h => by
    rw [componentsAmong_eq, h, componentsAmong]
    rfl
  | (k, v) :: rest, fields', h => by
    rw [Fields.get?] at h
    rw [componentsAmong]
    split at h
    · rename_i hk
      rw [componentsAmong_eq, h, if_pos hk]
      exact hc.componentsUnder_change depth v
    · rename_i hk
      rw [if_neg hk]
      exact hc.componentsAmong_change depth rest h

theorem KeepsOutline.componentsUnder_change (hc : KeepsOutline change under all) (depth : Nat) : (v : Json) →
    componentsUnder depth (under v) = (componentsUnder depth v).map (RawComponent.changed change)
  | .arr items => by
    rw [hc.list, componentsUnder, componentsUnder]
    exact hc.componentsIn_change (depth + 1) items
  | .null | .bool _ | .int _ | .float _ | .str _ | .obj _ | .date _ | .moment _ | .bytes _ | .pair _ _ | .set _
  | .keyed _ _ => by
    rw [hc.noList _ (by rintro _ ⟨⟩), componentsUnder]
    · rfl
    · rintro _ ⟨⟩

theorem KeepsOutline.componentsIn_change (hc : KeepsOutline change under all) (depth : Nat) : (items : List Json) →
    componentsIn depth (all items) = (componentsIn depth items).map (RawComponent.changed change)
  | [] => by
    rw [hc.nil, componentsIn]
    rfl
  | v :: rest => by
    rw [hc.cons, componentsIn, componentsIn, List.map_append, hc.componentsOf_change depth v,
      hc.componentsIn_change depth rest]

end

theorem KeepsOutline.asks_changed (hc : KeepsOutline change under all) (c : RawComponent) :
    (c.changed change).asks = c.asks := by
  obtain ⟨depth, v⟩ := c
  rw [RawComponent.changed]
  cases v with
  | obj fields =>
    obtain ⟨fields', he, -, ht, ha⟩ := hc.object fields
    simp only [he, RawComponent.asks, RawComponent.kind, RawComponent.action, RawComponent.fields, valueOf, actionOf,
      ht, ha]
  | _ => rw [hc.other _ (by rintro _ ⟨⟩)]

theorem KeepsOutline.asks_items (hc : KeepsOutline change under all) (depth : Nat) (items : List Json) :
    (componentsIn depth (all items)).map RawComponent.asks = (componentsIn depth items).map RawComponent.asks := by
  rw [hc.componentsIn_change, List.map_map]
  exact List.map_congr_left fun c _ => hc.asks_changed c

theorem KeepsOutline.eq_list (hc : KeepsOutline change under all) {v : Json} {items' : List Json}
    (h : under v = .arr items') : ∃ items, v = .arr items ∧ items' = all items := by
  by_cases hv : ∃ items, v = .arr items
  · obtain ⟨items, rfl⟩ := hv
    rw [hc.list] at h
    exact ⟨items, rfl, (Json.arr.inj h).symm⟩
  · rw [hc.noList v fun items he => hv ⟨items, he⟩] at h
    exact (hv ⟨items', h⟩).elim

end

end Validation

namespace Template

theorem get?_normalizeFields (key : String) (fields : List (String × Json)) :
    Fields.get? key (normalizeFields fields) = (Fields.get? key fields).map fun v =>
      if key == "position" then normalizePosition v else if key == "children" then normalizeChildren v else v := by
  induction fields with
  | nil => rfl
  | cons f rest ih =>
    obtain ⟨k, v⟩ := f
    rw [normalizeFields]
    by_cases hk : k = key
    · subst hk
      rw [Fields.get?_cons_self]
      split
      · simp_all
      · split <;> simp_all
    · rw [Fields.get?_cons_of_ne hk, ← ih]
      split
      · rw [Fields.get?_cons_of_ne hk]
      · split <;> rw [Fields.get?_cons_of_ne hk]

section Unchanged

variable {key : String} {fields : List (String × Json)}

theorem get?_normalizeFields_of_ne (hposition : (key == "position") = false) (hchildren : (key == "children") = false) :
    Fields.get? key (normalizeFields fields) = Fields.get? key fields := by
  rw [get?_normalizeFields]
  simp [hposition, hchildren]

theorem valueOf_normalizeFields (hposition : (key == "position") = false) (hchildren : (key == "children") = false) :
    Validation.valueOf key (normalizeFields fields) = Validation.valueOf key fields := by
  rw [Validation.valueOf, get?_normalizeFields_of_ne hposition hchildren, Validation.valueOf]

theorem actionOf_normalizeFields : Validation.actionOf (normalizeFields fields) = Validation.actionOf fields := by
  rw [Validation.actionOf, get?_normalizeFields_of_ne rfl rfl, Validation.actionOf]

end Unchanged

theorem normalize_keepsOutline :
    Validation.KeepsOutline normalizeComponent normalizeChildren normalizeComponents where
  object fields := by
    refine ⟨normalizeFields fields, by rw [normalizeComponent], ?_, ?_, ?_⟩
    · simpa using get?_normalizeFields "children" fields
    · simpa using get?_normalizeFields "type" fields
    · simpa using get?_normalizeFields "action" fields
  other v hv := by
    cases v with
    | obj fields => exact (hv fields rfl).elim
    | _ => rw [normalizeComponent]; rintro _ ⟨⟩
  list items := by rw [normalizeChildren]
  noList v hv := by
    cases v with
    | arr items => exact (hv items rfl).elim
    | _ => rw [normalizeChildren]; rintro _ ⟨⟩
  nil := by rw [normalizeComponents]
  cons v rest := by rw [normalizeComponents]

/-- Components can be gone through, or are nothing. -/
def IsCollection : Json → Prop
  | .bool b => b = false
  | .int n => n = 0
  | .float x => x.isZero = true
  | .date _ | .moment _ => False
  | _ => True

theorem isOk_normalizePositions {fields : List (String × Json)} :
    (∃ v, normalizePositions (.obj fields) = .ok v) ↔ IsCollection (Validation.valueOf "components" fields) := by
  rw [normalizePositions, Validation.valueOf]
  cases Fields.get? "components" fields with
  | none => simp [IsCollection]
  | some v =>
    cases v with
    | bool b => cases b <;> simp [IsCollection]
    | int n =>
      dsimp only
      split
      · rename_i hn
        simpa [IsCollection] using hn
      · rename_i hn
        simpa [IsCollection] using hn
    | float x =>
      dsimp only
      split
      · rename_i hx
        simpa [IsCollection] using hx
      · rename_i hx
        simpa [IsCollection] using hx
    | _ => simp [IsCollection]

/-- Fields in which nothing but the components is changed. -/
def Recomposed (under : Json → Json) (fields fields' : List (String × Json)) : Prop :=
  ∀ key, Fields.get? key fields' = (Fields.get? key fields).map fun v => if key == "components" then under v else v

namespace Recomposed

variable {under : Json → Json} {fields fields' : List (String × Json)}

theorem get?_components (h : Recomposed under fields fields') :
    Fields.get? "components" fields' = (Fields.get? "components" fields).map under := h "components"

theorem get?_other (h : Recomposed under fields fields') {key : String} (hkey : (key == "components") = false) :
    Fields.get? key fields' = Fields.get? key fields := by
  simpa [hkey] using h key

end Recomposed

/-- The fields of a template after a change to its components. -/
def recompose (under : Json → Json) (fields : List (String × Json)) : List (String × Json) :=
  match Fields.get? "components" fields with
  | some v => Fields.set "components" (under v) fields
  | none => fields

section

variable {under : Json → Json} {fields : List (String × Json)}

theorem recompose_of_get? {v : Json} (h : Fields.get? "components" fields = some v) :
    recompose under fields = Fields.set "components" (under v) fields := by
  rw [recompose, h]

theorem recompose_of_none (h : Fields.get? "components" fields = none) : recompose under fields = fields := by
  rw [recompose, h]

theorem recompose_eq_self (h : ∀ v, Fields.get? "components" fields = some v → under v = v) :
    recompose under fields = fields := by
  cases hv : Fields.get? "components" fields with
  | none => exact recompose_of_none hv
  | some v => rw [recompose_of_get? hv, h v hv, Fields.set_of_get? hv]

theorem recompose_of_noList {change : Json → Json} {all : List Json → List Json}
    (hc : Validation.KeepsOutline change under all)
    (h : ∀ items, Fields.get? "components" fields ≠ some (.arr items)) : recompose under fields = fields := by
  apply recompose_eq_self
  intro v hv
  apply hc.noList
  rintro items rfl
  exact h items hv

theorem recomposed_recompose (under : Json → Json) (fields : List (String × Json)) :
    Recomposed under fields (recompose under fields) := by
  intro key
  cases hv : Fields.get? "components" fields with
  | none =>
    rw [recompose_of_none hv]
    by_cases hkey : key = "components"
    · rw [hkey, hv]
      rfl
    · simp [hkey]
  | some v =>
    rw [recompose_of_get? hv]
    by_cases hkey : key = "components"
    · subst hkey
      rw [Fields.get?_set_self, hv]
      rfl
    · rw [Fields.get?_set_of_ne (Ne.symm hkey)]
      simp [hkey]

end

theorem normalizePositions_other {fields : List (String × Json)} {normalized : Json}
    (h : ∀ items, Fields.get? "components" fields ≠ some (.arr items))
    (hn : normalizePositions (.obj fields) = .ok normalized) : normalized = .obj fields := by
  simp only [normalizePositions] at hn
  split at hn
  · rename_i items hv
    exact (h items hv).elim
  all_goals first
    | (split at hn <;> cases hn; rfl)
    | (cases hn; rfl)
    | cases hn

theorem normalizePositions_eq {fields : List (String × Json)} {normalized : Json}
    (h : normalizePositions (.obj fields) = .ok normalized) :
    normalized = .obj (recompose normalizeChildren fields) := by
  by_cases hlist : ∃ items, Fields.get? "components" fields = some (.arr items)
  · obtain ⟨items, hv⟩ := hlist
    simp only [normalizePositions, hv] at h
    cases h
    rw [recompose_of_get? hv, normalizeChildren]
  · have hitems : ∀ items, Fields.get? "components" fields ≠ some (.arr items) := fun items hv => hlist ⟨items, hv⟩
    rw [normalizePositions_other hitems h, recompose_of_noList normalize_keepsOutline hitems]

theorem normalizePositions_obj {fields : List (String × Json)} {normalized : Json}
    (h : normalizePositions (.obj fields) = .ok normalized) :
    ∃ fields', normalized = .obj fields' ∧ Recomposed normalizeChildren fields fields' :=
  ⟨_, normalizePositions_eq h, recomposed_recompose normalizeChildren fields⟩

end Template

namespace Asset

theorem get?_resolveFields (baseUrl : String) (image : Bool) (key : String) (fields : List (String × Json)) :
    Fields.get? key (resolveFields baseUrl image fields) = (Fields.get? key fields).map fun v =>
      if key == "content" then if image then resolveContent baseUrl v else v
      else if key == "children" then resolveChildren baseUrl v else v := by
  induction fields with
  | nil => rfl
  | cons f rest ih =>
    obtain ⟨k, v⟩ := f
    rw [resolveFields]
    by_cases hk : k = key
    · subst hk
      rw [Fields.get?_cons_self]
      split
      · simp_all
      · split <;> simp_all
    · rw [Fields.get?_cons_of_ne hk, ← ih]
      split
      · rw [Fields.get?_cons_of_ne hk]
      · split <;> rw [Fields.get?_cons_of_ne hk]

theorem resolve_keepsOutline (baseUrl : String) :
    Validation.KeepsOutline (resolveComponent baseUrl) (resolveChildren baseUrl) (resolveComponents baseUrl) where
  object fields := by
    refine ⟨resolveFields baseUrl (isImage fields) fields, by rw [resolveComponent], ?_, ?_, ?_⟩
    · simpa using get?_resolveFields baseUrl (isImage fields) "children" fields
    · simpa using get?_resolveFields baseUrl (isImage fields) "type" fields
    · simpa using get?_resolveFields baseUrl (isImage fields) "action" fields
  other v hv := by
    cases v with
    | obj fields => exact (hv fields rfl).elim
    | _ => rw [resolveComponent]; rintro _ ⟨⟩
  list items := by rw [resolveChildren]
  noList v hv := by
    cases v with
    | arr items => exact (hv items rfl).elim
    | _ => rw [resolveChildren]; rintro _ ⟨⟩
  nil := by rw [resolveComponents]
  cons v rest := by rw [resolveComponents]

theorem resolveTemplate_eq (baseUrl : String) (fields : List (String × Json)) :
    resolveTemplate baseUrl (.obj fields) = .obj (Template.recompose (resolveChildren baseUrl) fields) := by
  rw [resolveTemplate]
  split
  · rename_i items hv
    rw [Template.recompose_of_get? hv, resolveChildren]
  · rename_i hlist
    rw [Template.recompose_of_noList (resolve_keepsOutline baseUrl) hlist]

theorem resolveTemplate_obj (baseUrl : String) (fields : List (String × Json)) :
    ∃ fields', resolveTemplate baseUrl (.obj fields) = .obj fields' ∧
      Template.Recomposed (resolveChildren baseUrl) fields fields' :=
  ⟨_, resolveTemplate_eq baseUrl fields, Template.recomposed_recompose (resolveChildren baseUrl) fields⟩

end Asset

end ConsentBanner
