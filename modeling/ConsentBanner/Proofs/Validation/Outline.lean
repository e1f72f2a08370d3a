import ConsentBanner.Proofs.Validation.Component

/-!
The components of a raw forest in document order, and forests that fit.
-/

namespace ConsentBanner.Validation

/-- A raw component and the number of components around it. -/
structure RawComponent where
  depth : Nat
  value : Json

namespace RawComponent

/-- The fields of a component, none when it is no object. -/
def fields (c : RawComponent) : List (String × Json) :=
  match c.value with
  | .obj fields => fields
  | _ => []

def id (c : RawComponent) : Json := valueOf "id" c.fields

def kind (c : RawComponent) : Json := valueOf "type" c.fields

def action (c : RawComponent) : Json := actionOf c.fields

end RawComponent

mutual

/-- A component and those inside it. -/
def componentsOf (depth : Nat) : Json → List RawComponent
  | .obj fields => ⟨depth, .obj fields⟩ :: componentsAmong depth fields
  | v => [⟨depth, v⟩]

/-- The components among the fields of a component. -/
def componentsAmong (depth : Nat) : List (String × Json) → List RawComponent
  | [] => []
  | (k, v) :: rest => if k == "children" then componentsUnder depth v else componentsAmong depth rest

/-- The components inside a component with these children. -/
def componentsUnder (depth : Nat) : Json → List RawComponent
  | .arr items => componentsIn (depth + 1) items
  | _ => []

/-- The components of a forest whose roots have the given depth. -/
def componentsIn (depth : Nat) : List Json → List RawComponent
  | [] => []
  | v :: rest => componentsOf depth v ++ componentsIn depth rest

end

/-- Children are not given, or a list. -/
def ChildrenFit (v : Json) : Prop := v = .null ∨ ∃ items, v = .arr items

/-- A component that is an object, not too deep, with fields and children that fit. -/
structure ComponentFits (limits : Limits) (c : RawComponent) : Prop where
  object : ∃ fields, c.value = .obj fields
  fields : FieldsFit limits c.fields
  children : ChildrenFit (valueOf "children" c.fields)
  shallow : c.depth ≤ limits.maxNesting

/-- The identifier of the second component is not that of the first one. -/
def Distinct (c d : RawComponent) : Prop := ¬ d.id.same c.id = true

/-- Some component asks for an action. -/
def Offers (a : ActionKind) (cs : List RawComponent) : Prop := ∃ c ∈ cs, c.action = .str (Named.name a)

/-- A list of roots with all that is inside them. -/
structure ForestFits (limits : Limits) (roots : List Json) : Prop where
  nonempty : roots ≠ []
  each : ∀ c ∈ componentsIn 0 roots, ComponentFits limits c
  distinct : (componentsIn 0 roots).Pairwise Distinct
  few : (componentsIn 0 roots).length ≤ limits.maxComponents
  accepts : Offers .acceptAll (componentsIn 0 roots)
  rejects : Offers .rejectAll (componentsIn 0 roots)

theorem componentFits_mk {limits : Limits} {depth : Nat} {fields : List (String × Json)}
    (hd : depth ≤ limits.maxNesting) : ComponentFits limits ⟨depth, .obj fields⟩ ↔
      FieldsFit limits fields ∧ ChildrenFit (valueOf "children" fields) := by
  constructor
  · intro h
    exact ⟨h.fields, h.children⟩
  · rintro ⟨hf, hc⟩
    exact ⟨⟨fields, rfl⟩, hf, hc, hd⟩

theorem not_componentFits_of_deep {limits : Limits} {depth : Nat} {v : Json} (hd : limits.maxNesting < depth) :
    ¬ ComponentFits limits ⟨depth, v⟩ := by
  intro h
  have hs := h.shallow
  simp only at hs
  omega

theorem componentsOf_head (depth : Nat) (v : Json) : ∃ rest, componentsOf depth v = ⟨depth, v⟩ :: rest := by
  cases v with
  | obj fields => exact ⟨_, by rw [componentsOf]⟩
  | _ => exact ⟨[], by rw [componentsOf]; rintro _ ⟨⟩⟩

section

variable {p : Nat → Json → Prop}

mutual

/-- What holds of a component and passes from each component to its children holds of all components of its tree. -/
theorem forall_componentsOf (hchild : ∀ depth fields items, p depth (.obj fields) →
      Fields.get? "children" fields = some (.arr items) → ∀ v ∈ items, p (depth + 1) v) (depth : Nat) :
    (v : Json) → p depth v → ∀ c ∈ componentsOf depth v, p c.depth c.value
  | .obj fields, h => by
    rw [componentsOf, List.forall_mem_cons]
    exact ⟨h, forall_componentsAmong hchild depth fields fun items => hchild depth fields items h⟩
  | .null, h | .bool _, h | .int _, h | .float _, h | .str _, h | .arr _, h | .date _, h | .moment _, h | .bytes _, h
  | .pair _ _, h | .set _, h | .keyed _ _, h => by
    rw [componentsOf]
    · exact List.forall_mem_singleton.2 h
    · rintro _ ⟨⟩

theorem forall_componentsAmong (hchild : ∀ depth fields items, p depth (.obj fields) →
      Fields.get? "children" fields = some (.arr items) → ∀ v ∈ items, p (depth + 1) v) (depth : Nat) :
    (fields : List (String × Json)) →
    (∀ items, Fields.get? "children" fields = some (.arr items) → ∀ v ∈ items, p (depth + 1) v) →
    ∀ c ∈ componentsAmong depth fields, p c.depth c.value
  | [], _ => by
    rw [componentsAmong]
    exact List.forall_mem_nil _
  | (k, v) :: rest, h => by
    rw [Fields.get?] at h
    rw [componentsAmong]
    split
    · rename_i hk
      rw [if_pos hk] at h
      exact forall_componentsUnder hchild depth v fun items hv => h items (congrArg some hv)
    · rename_i hk
      rw [if_neg hk] at h
      exact forall_componentsAmong hchild depth rest h

theorem forall_componentsUnder (hchild : ∀ depth fields items, p depth (.obj fields) →
      Fields.get? "children" fields = some (.arr items) → ∀ v ∈ items, p (depth + 1) v) (depth : Nat) :
    (v : Json) → (∀ items, v = .arr items → ∀ w ∈ items, p (depth + 1) w) →
    ∀ c ∈ componentsUnder depth v, p c.depth c.value
  | .arr items, h => by
    rw [componentsUnder]
    exact forall_componentsIn hchild (depth + 1) items (h items rfl)
  | .null, _ | .bool _, _ | .int _, _ | .float _, _ | .str _, _ | .obj _, _ | .date _, _ | .moment _, _ | .bytes _, _
  | .pair _ _, _ | .set _, _ | .keyed _ _, _ => by
    rw [componentsUnder]
    · exact List.forall_mem_nil _
    · rintro _ ⟨⟩

theorem forall_componentsIn (hchild : ∀ depth fields items, p depth (.obj fields) →
      Fields.get? "children" fields = some (.arr items) → ∀ v ∈ items, p (depth + 1) v) (depth : Nat) :
    (items : List Json) → (∀ v ∈ items, p depth v) → ∀ c ∈ componentsIn depth items, p c.depth c.value
  | [], _ => by
    rw [componentsIn]
    exact List.forall_mem_nil _
  | v :: rest, h => by
    rw [List.forall_mem_cons] at h
    rw [componentsIn, List.forall_mem_append]
    exact ⟨forall_componentsOf hchild depth v h.1, forall_componentsIn hchild depth rest h.2⟩

end

end

theorem le_depth_of_mem {depth : Nat} {v : Json} {c : RawComponent} (h : c ∈ componentsOf depth v) : depth ≤ c.depth :=
  forall_componentsOf (p := fun d _ => depth ≤ d) (fun _ _ _ hd _ _ _ => Nat.le_succ_of_le hd) depth v
    (Nat.le_refl depth) c h

end ConsentBanner.Validation
