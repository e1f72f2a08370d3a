import Mathlib.Data.List.Forall2
import ConsentBanner.Proofs.Template.Arena
import ConsentBanner.Proofs.Template.Outline
import ConsentBanner.Proofs.Template.Read

/-!
Parsed forests stand place by place for the raw components they are read from, and so do the entries of their arenas.
-/

namespace ConsentBanner

open Checked Reader Validation

namespace Validation

/-- The raw components inside a component. -/
def childItems (fields : List (String × Json)) : List Json :=
  match Fields.get? "children" fields with
  | some (.arr items) => items
  | _ => []

theorem childItems_cons_self (v : Json) (rest : List (String × Json)) :
    childItems (("children", v) :: rest) = match v with | .arr items => items | _ => [] := by
  rw [childItems, Fields.get?_cons_self]
  cases v with
  | _ => rfl

theorem childItems_cons_of_ne {k : String} (h : k ≠ "children") (v : Json) (rest : List (String × Json)) :
    childItems ((k, v) :: rest) = childItems rest := by
  rw [childItems, Fields.get?_cons_of_ne h, childItems]

theorem componentsAmong_childItems (depth : Nat) (fields : List (String × Json)) :
    componentsAmong depth fields = componentsIn (depth + 1) (childItems fields) := by
  rw [componentsAmong_eq, childItems]
  cases Fields.get? "children" fields with
  | none =>
    rw [componentsIn]
    rfl
  | some v =>
    rw [Option.map_some, Option.getD_some]
    cases v with
    | arr items => rw [componentsUnder]
    | _ =>
      rw [componentsUnder, componentsIn]
      rintro _ ⟨⟩

theorem KeepsOutline.childItems_change {change under : Json → Json} {all : List Json → List Json}
    (hc : KeepsOutline change under all) {fields fields' : List (String × Json)}
    (h : change (.obj fields) = .obj fields') : childItems fields' = all (childItems fields) := by
  obtain ⟨_, he, hget, -, -⟩ := hc.object fields
  cases h.symm.trans he
  rw [childItems, childItems, hget]
  cases Fields.get? "children" fields with
  | none => exact hc.nil.symm
  | some v =>
    rw [Option.map_some]
    cases v with
    | arr items => rw [hc.list]
    | _ =>
      rw [hc.noList _ (by rintro _ ⟨⟩)]
      exact hc.nil.symm

end Validation

theorem foldl_max_le {α : Type} {depth : α → Nat} {limit : Nat} {l : List α} (h : ∀ a ∈ l, depth a ≤ limit)
    {start : Nat} (hstart : start ≤ limit) : l.foldl (fun d a => max d (depth a)) start ≤ limit := by
  induction l generalizing start with
  | nil => exact hstart
  | cons a l ih =>
    rw [List.forall_mem_cons] at h
    exact ih h.2 (Nat.max_le.2 ⟨hstart, h.1⟩)

theorem Arena.maxDepth_le {a : Arena} {limit : Nat} (h : ∀ n ∈ a.nodes, n.depth ≤ limit) : a.maxDepth ≤ limit :=
  foldl_max_le h (Nat.zero_le limit)

section

variable {α β : Type} {R : α → β → Prop} {as : List α} {bs : List β}

theorem exists_of_forall₂ (h : List.Forall₂ R as bs) :
    (∀ a ∈ as, ∃ b ∈ bs, R a b) ∧ ∀ b ∈ bs, ∃ a ∈ as, R a b := by
  induction h with
  | nil => simp
  | cons hab _ ih =>
    rw [List.forall_mem_cons, List.forall_mem_cons]
    obtain ⟨hleft, hright⟩ := ih
    refine ⟨⟨⟨_, .head _, hab⟩, fun a ha => ?_⟩, ⟨_, .head _, hab⟩, fun b hb => ?_⟩
    · obtain ⟨b, hb, h⟩ := hleft a ha
      exact ⟨b, .tail _ hb, h⟩
    · obtain ⟨a, ha, h⟩ := hright b hb
      exact ⟨a, .tail _ ha, h⟩

/-- Pairs of one list are related as the pairs at the same places of the other, when the elements at each place
settle it. -/
theorem pairwise_iff_of_forall₂ {P : α → α → Prop} {Q : β → β → Prop} (h : List.Forall₂ R as bs)
    (hPQ : ∀ a b a' b', R a b → R a' b' → (P a a' ↔ Q b b')) : as.Pairwise P ↔ bs.Pairwise Q := by
  induction h with
  | nil => simp
  | cons hab htail ih =>
    rw [List.pairwise_cons, List.pairwise_cons]
    obtain ⟨hleft, hright⟩ := exists_of_forall₂ htail
    refine and_congr ⟨fun h b hb => ?_, fun h a ha => ?_⟩ ih
    · obtain ⟨a, ha, hr⟩ := hright b hb
      exact (hPQ _ _ a b hab hr).1 (h a ha)
    · obtain ⟨b, hb, hr⟩ := hleft a ha
      exact (hPQ _ _ a b hab hr).2 (h b hb)

end

namespace Component

/-- A parsed tree that stands for a raw one: what each of its components holds stands in a relation to the fields of
the raw component at its place, and it has components inside it where that has some. -/
inductive Mirrors (R : List (String × Json) → ComponentData → Prop) : Json → Component → Prop
  | node {fields : List (String × Json)} {data : ComponentData} {children : List Component} (hdata : R fields data)
      (hchildren : List.Forall₂ (Mirrors R) (childItems fields) children) : Mirrors R (.obj fields) (node data children)

/-- What a component holds is read from fields. -/
structure ReadsAs (fields : List (String × Json)) (data : ComponentData) : Prop where
  id : requiredField fields "id" string = .valid data.id
  kind : requiredField fields "type" (member ComponentKind) = .valid data.kind
  content : field fields ["content"] (.plain "") Content.read = .valid data.content
  style : field fields ["style"] [] readStyle = .valid data.style
  action : field fields ["action"] {} Action.read = .valid data.action
  containerConfig : field fields ["containerConfig", "container_config"] [] readContainerConfig =
    .valid data.containerConfig

theorem readChildrenOf_eq_valid {fields : List (String × Json)} {cs : List Component}
    (h : readChildrenOf fields = .valid cs) : readAll 0 (childItems fields) = .valid cs := by
  induction fields with
  | nil =>
    rw [readChildrenOf] at h
    cases h
    rw [childItems, Fields.get?, readAll]
  | cons f rest ih =>
    obtain ⟨k, v⟩ := f
    rw [readChildrenOf] at h
    split at h
    · rename_i hk
      rw [beq_iff_eq] at hk
      subst hk
      rw [under_eq_valid] at h
      rw [childItems_cons_self]
      cases v with
      | arr items =>
        rw [readChildren] at h
        exact h
      | _ =>
        rw [readChildren] at h
        · split at h
          · cases h
          · cases h
            rw [readAll]
        · rintro _ ⟨⟩
    · rename_i hk
      rw [childItems_cons_of_ne (by simpa using hk)]
      exact ih h

theorem read_eq_valid {v : Json} {data : ComponentData} {children : List Component}
    (h : read v = .valid (.node data children)) :
    ∃ fields, v = .obj fields ∧ ReadsAs fields data ∧ readAll 0 (childItems fields) = .valid children := by
  cases v with
  | obj fields =>
    simp only [read, seq_eq_valid, map_eq_valid] at h
    obtain ⟨_, locked, ⟨_, alt, ⟨_, config, ⟨_, children', ⟨_, action, ⟨_, position, ⟨_, style, ⟨_, content,
      ⟨_, kind, ⟨id, hid, rfl⟩, hkind, rfl⟩, hcontent, rfl⟩, hstyle, rfl⟩, -, rfl⟩, haction, rfl⟩, hchildren, rfl⟩,
      hconfig, rfl⟩, -, rfl⟩, -, hnode⟩ := h
    cases hnode
    exact ⟨fields, rfl, ⟨hid, hkind, hcontent, hstyle, haction, hconfig⟩, readChildrenOf_eq_valid hchildren⟩
  | _ =>
    rw [read] at h
    · cases h
    · rintro _ ⟨⟩

mutual

theorem mirrors_of_read : (c : Component) → {v : Json} → read v = .valid c → Mirrors ReadsAs v c
  | .node data children, v, h => by
    obtain ⟨fields, rfl, hdata, hchildren⟩ := read_eq_valid h
    exact .node hdata (mirrors_of_readAll children hchildren)

/-- Components that are read stand for those that they are read from. -/
theorem mirrors_of_readAll : (cs : List Component) → {place : Nat} → {items : List Json} →
    readAll place items = .valid cs → List.Forall₂ (Mirrors ReadsAs) items cs
  | [], place, items, h => by
    cases items with
    | nil => exact .nil
    | cons v rest =>
      simp only [readAll, seq_eq_valid, map_eq_valid] at h
      obtain ⟨_, _, ⟨_, -, rfl⟩, -, hcons⟩ := h
      cases hcons
  | c :: cs, place, items, h => by
    cases items with
    | nil =>
      rw [readAll] at h
      cases h
    | cons v rest =>
      simp only [readAll, seq_eq_valid, map_eq_valid, under_eq_valid] at h
      obtain ⟨_, _, ⟨_, hc, rfl⟩, hcs, hcons⟩ := h
      cases hcons
      exact .cons (mirrors_of_read c hc) (mirrors_of_readAll cs hcs)

end

section

variable {R S : List (String × Json) → ComponentData → Prop} {change under : Json → Json}
  {all : List Json → List Json}

mutual

/-- A tree that stands for a changed tree stands for the tree itself, in the relation that the change leaves. -/
theorem Mirrors.of_change (hc : KeepsOutline change under all)
    (hR : ∀ fields fields' data, change (.obj fields) = .obj fields' → R fields' data → S fields data) :
    (c : Component) → {v : Json} → Mirrors R (change v) c → Mirrors S v c
  | .node data children, v, h => by
    by_cases hobj : ∃ fields, v = .obj fields
    · obtain ⟨fields, rfl⟩ := hobj
      obtain ⟨fields', he, -⟩ := hc.object fields
      rw [he] at h
      cases h with
      | node hdata hchildren =>
        rw [hc.childItems_change he] at hchildren
        exact .node (hR _ _ _ he hdata) (Mirrors.of_all hc hR children hchildren)
    · rw [hc.other v fun fields hv => hobj ⟨fields, hv⟩] at h
      cases h
      exact (hobj ⟨_, rfl⟩).elim

theorem Mirrors.of_all (hc : KeepsOutline change under all)
    (hR : ∀ fields fields' data, change (.obj fields) = .obj fields' → R fields' data → S fields data) :
    (cs : List Component) → {items : List Json} → List.Forall₂ (Mirrors R) (all items) cs →
    List.Forall₂ (Mirrors S) items cs
  | [], items, h => by
    cases items with
    | nil => exact .nil
    | cons v rest =>
      rw [hc.cons] at h
      cases h
  | c :: cs, items, h => by
    cases items with
    | nil =>
      rw [hc.nil] at h
      cases h
    | cons v rest =>
      rw [hc.cons] at h
      cases h with
      | cons hhead htail => exact .cons (Mirrors.of_change hc hR c hhead) (Mirrors.of_all hc hR cs htail)

end

mutual

theorem Mirrors.mono (depth : Nat) : (c : Component) → {v : Json} → Mirrors R v c →
    (∀ r ∈ componentsOf depth v, ∀ data, R r.fields data → S r.fields data) → Mirrors S v c
  | .node data children, v, h, hRS => by
    cases h with
    | node hdata hchildren =>
      rw [componentsOf, List.forall_mem_cons, componentsAmong_childItems] at hRS
      exact .node (hRS.1 _ hdata) (Mirrors.mono_all (depth + 1) children hchildren hRS.2)

/-- A relation in which a parsed forest stands for raw components can be weakened by what holds of all of these. -/
theorem Mirrors.mono_all (depth : Nat) : (cs : List Component) → {items : List Json} →
    List.Forall₂ (Mirrors R) items cs →
    (∀ r ∈ componentsIn depth items, ∀ data, R r.fields data → S r.fields data) → List.Forall₂ (Mirrors S) items cs
  | [], items, h, _ => by
    cases h
    exact .nil
  | c :: cs, items, h, hRS => by
    cases h with
    | cons hhead htail =>
      rw [componentsIn, List.forall_mem_append] at hRS
      exact .cons (Mirrors.mono depth c hhead hRS.1) (Mirrors.mono_all depth cs htail hRS.2)

end

end

section

variable {R : List (String × Json) → ComponentData → Prop}

mutual

theorem Mirrors.entries {depth start : Nat} {parent : Option Nat} : (c : Component) → {v : Json} → Mirrors R v c →
    List.Forall₂ (fun r n => r.depth = n.depth ∧ R r.fields n.data) (componentsOf depth v)
      (entries start parent depth c)
  | .node data children, v, h => by
    cases h with
    | node hdata hchildren =>
      rw [componentsOf, componentsAmong_childItems, Component.entries]
      exact .cons ⟨rfl, hdata⟩ (Mirrors.entriesAll children hchildren)

/-- The entries of a forest stand, in their order and at their depths, for the raw components. -/
theorem Mirrors.entriesAll {depth start : Nat} {parent : Option Nat} : (cs : List Component) → {items : List Json} →
    List.Forall₂ (Mirrors R) items cs →
    List.Forall₂ (fun r n => r.depth = n.depth ∧ R r.fields n.data) (componentsIn depth items)
      (entriesAll start parent depth cs)
  | [], items, h => by
    cases h
    rw [componentsIn, Component.entriesAll]
    exact .nil
  | c :: cs, items, h => by
    cases h with
    | cons hhead htail =>
      rw [componentsIn, Component.entriesAll]
      exact List.rel_append (Mirrors.entries c hhead) (Mirrors.entriesAll cs htail)

end

end

mutual

theorem map_data_entries {depth start : Nat} {parent : Option Nat} : (c : Component) →
    (entries start parent depth c).map (·.data) = c.everyData
  | .node data children => by
    rw [entries, List.map_cons, map_data_entriesAll children, everyData]
    rfl

theorem map_data_entriesAll {depth start : Nat} {parent : Option Nat} : (cs : List Component) →
    (entriesAll start parent depth cs).map (·.data) = everyDataIn cs
  | [] => by
    rw [entriesAll, everyDataIn]
    rfl
  | c :: cs => by
    rw [entriesAll, List.map_append, map_data_entries c, map_data_entriesAll cs, everyDataIn]

end

end Component

theorem Arena.forall₂_ofComponents {R : List (String × Json) → ComponentData → Prop} {cs : List Component}
    {items : List Json} (h : List.Forall₂ (Component.Mirrors R) items cs) :
    List.Forall₂ (fun r n => r.depth = n.depth ∧ R r.fields n.data) (componentsIn 0 items) (ofComponents cs).nodes := by
  rw [nodes_ofComponents]
  exact Component.Mirrors.entriesAll cs h

theorem Arena.map_data_ofComponents (cs : List Component) :
    (ofComponents cs).nodes.map (·.data) = Component.everyDataIn cs := by
  rw [nodes_ofComponents, Component.map_data_entriesAll]

theorem Component.exists_raw {R : List (String × Json) → ComponentData → Prop} {cs : List Component} {items : List Json}
    (h : List.Forall₂ (Mirrors R) items cs) : ∀ d ∈ everyDataIn cs, ∃ r ∈ componentsIn 0 items, R r.fields d := by
  intro d hd
  rw [← Arena.map_data_ofComponents] at hd
  obtain ⟨n, hn, rfl⟩ := List.mem_map.1 hd
  obtain ⟨r, hr, -, hdata⟩ := (exists_of_forall₂ (Arena.forall₂_ofComponents h)).2 n hn
  exact ⟨r, hr, hdata⟩

end ConsentBanner
