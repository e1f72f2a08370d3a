import ConsentBanner.Proofs.Schema
import ConsentBanner.Proofs.Validation.Outline
import ConsentBanner.Template.Basic
import ConsentBanner.Template.Read

/-!
The components of a forest in document order, which keep their kinds and actions when they are read.
-/

namespace ConsentBanner.Component

mutual

/-- What a component and those inside it hold. -/
def everyData : Component → List ComponentData
  | node data children => data :: everyDataIn children

def everyDataIn : List Component → List ComponentData
  | [] => []
  | c :: rest => c.everyData ++ everyDataIn rest

end

/-- A component that is drawn as a control for an action. -/
def IsControl (a : ActionKind) (c : ComponentData) : Prop :=
  (c.kind = .button ∨ c.kind = .link) ∧ c.action.kind = a

end ConsentBanner.Component

namespace ConsentBanner

open Reader Validation

theorem Action.readFields_kind {fields : List (String × Json)} {a : ActionKind} {action : Action}
    (ha : Fields.get? "type" fields = some (.str (Named.name a))) (h : readFields fields = .valid action) :
    action.kind = a := by
  simp only [readFields, Checked.seq_eq_valid, Checked.map_eq_valid] at h
  obtain ⟨_, url, ⟨_, category, ⟨kind, hk, rfl⟩, -, rfl⟩, -, rfl⟩ := h
  exact (member_eq_valid (field_eq_valid ha hk)).symm

theorem Action.read_kind {fields : List (String × Json)} {a : ActionKind} {action : Action}
    (ha : actionOf fields = .str (Named.name a))
    (h : field fields ["action"] {} Action.read = .valid action) : action.kind = a := by
  unfold actionOf at ha
  split at ha
  · rename_i name hv
    cases ha
    exact readFields_kind rfl (field_eq_valid hv h)
  · rename_i parts hv
    cases ht : Fields.get? "type" parts with
    | none => simp [ht] at ha
    | some v =>
      rw [ht, Option.getD_some] at ha
      exact readFields_kind (by rw [ht, ha]) (field_eq_valid hv h)
  · cases ha

namespace Component

/-- A component that is read holds the kind and the action of the raw one, and its children. -/
theorem read_obj {fields : List (String × Json)} {c : Component} (h : read (.obj fields) = .valid c) :
    ∃ data children, c = .node data children ∧ readChildrenOf fields = .valid children ∧
      (∀ k : ComponentKind, valueOf "type" fields = .str (Named.name k) → data.kind = k) ∧
      (∀ a : ActionKind, actionOf fields = .str (Named.name a) → data.action.kind = a) := by
  simp only [read, Checked.seq_eq_valid, Checked.map_eq_valid] at h
  obtain ⟨_, locked, ⟨_, alt, ⟨_, config, ⟨_, children, ⟨_, action, ⟨_, position, ⟨_, style, ⟨_, content,
    ⟨_, kind, ⟨id, -, rfl⟩, hk, rfl⟩, -, rfl⟩, -, rfl⟩, -, rfl⟩, ha, rfl⟩, hc, rfl⟩, -, rfl⟩, -, rfl⟩, -, rfl⟩ := h
  refine ⟨_, children, rfl, hc, fun k hv => ?_, fun a hv => Action.read_kind hv ha⟩
  obtain ⟨v, hf, hr⟩ := requiredField_eq_valid hk
  rw [valueOf, hf, Option.getD_some] at hv
  rw [hv] at hr
  exact (member_eq_valid hr).symm

mutual

theorem read_everyData {k : ComponentKind} {a : ActionKind} {depth : Nat} : (v : Json) → {c : Component} →
    read v = .valid c → ∀ r ∈ componentsOf depth v, r.kind = .str (Named.name k) →
    r.action = .str (Named.name a) → ∃ data ∈ c.everyData, data.kind = k ∧ data.action.kind = a
  | .obj fields, c, h, r, hr, hk, ha => by
    obtain ⟨data, children, rfl, hc, hkind, haction⟩ := read_obj h
    rw [componentsOf, List.mem_cons] at hr
    rw [everyData]
    rcases hr with rfl | hr
    · exact ⟨data, .head _, hkind k hk, haction a ha⟩
    · obtain ⟨d, hd, h⟩ := readChildrenOf_everyData fields hc r hr hk ha
      exact ⟨d, .tail _ hd, h⟩

theorem readChildrenOf_everyData {k : ComponentKind} {a : ActionKind} {depth : Nat} :
    (fields : List (String × Json)) → {cs : List Component} →
    readChildrenOf fields = .valid cs → ∀ r ∈ componentsAmong depth fields, r.kind = .str (Named.name k) →
    r.action = .str (Named.name a) → ∃ data ∈ everyDataIn cs, data.kind = k ∧ data.action.kind = a
  | [], _, _, r, hr, _, _ => by
    rw [componentsAmong] at hr
    cases hr
  | (key, v) :: rest, cs, h, r, hr, hk, ha => by
    rw [componentsAmong] at hr
    rw [readChildrenOf] at h
    split at hr
    · rename_i hkey
      rw [if_pos hkey] at h
      exact readChildren_everyData v (Checked.under_eq_valid.1 h) r hr hk ha
    · rename_i hkey
      rw [if_neg hkey] at h
      exact readChildrenOf_everyData rest h r hr hk ha

theorem readChildren_everyData {k : ComponentKind} {a : ActionKind} {depth : Nat} : (v : Json) →
    {cs : List Component} → readChildren v = .valid cs → ∀ r ∈ componentsUnder depth v,
    r.kind = .str (Named.name k) → r.action = .str (Named.name a) →
    ∃ data ∈ everyDataIn cs, data.kind = k ∧ data.action.kind = a
  | .arr items, cs, h, r, hr, hk, ha => by
    rw [componentsUnder] at hr
    rw [readChildren] at h
    exact readAll_everyData items h r hr hk ha

theorem readAll_everyData {k : ComponentKind} {a : ActionKind} {depth place : Nat} : (items : List Json) →
    {cs : List Component} → readAll place items = .valid cs → ∀ r ∈ componentsIn depth items,
    r.kind = .str (Named.name k) → r.action = .str (Named.name a) →
    ∃ data ∈ everyDataIn cs, data.kind = k ∧ data.action.kind = a
  | [], _, _, r, hr, _, _ => by
    rw [componentsIn] at hr
    cases hr
  | v :: rest, cs, h, r, hr, hk, ha => by
    simp only [readAll, Checked.seq_eq_valid, Checked.map_eq_valid, Checked.under_eq_valid] at h
    obtain ⟨_, cs, ⟨c, hc, rfl⟩, hcs, rfl⟩ := h
    rw [componentsIn, List.mem_append] at hr
    rw [everyDataIn]
    rcases hr with hr | hr
    · obtain ⟨d, hd, h⟩ := read_everyData v hc r hr hk ha
      exact ⟨d, List.mem_append_left _ hd, h⟩
    · obtain ⟨d, hd, h⟩ := readAll_everyData rest hcs r hr hk ha
      exact ⟨d, List.mem_append_right _ hd, h⟩

end

end Component

end ConsentBanner
