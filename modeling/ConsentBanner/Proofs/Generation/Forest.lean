import ConsentBanner.Proofs.Generation.Prepare
import ConsentBanner.Proofs.Template.Mirror

/-!
The forest of a prepared template is that of the raw one, and its arena keeps the limits.
-/

namespace ConsentBanner

open Checked Reader Validation

namespace Validation

/-- The text that an identifier is read as. -/
inductive Spells : Json → String → Prop
  | str (s : String) : Spells (.str s) s
  | bytes {bs : List Nat} {s : String} (h : Text.ofBytes? bs = some s.toList) : Spells (.bytes bs) s

/-- A text beside bytes that spell it. -/
def SpelledAlike (v w : Json) : Prop :=
  ∃ s bs, Text.ofBytes? bs = some s.toList ∧ (v = .str s ∧ w = .bytes bs ∨ v = .bytes bs ∧ w = .str s)

theorem spells_of_string {v : Json} {s : String} (h : string v = .valid s) : Spells v s := by
  cases v with
  | str t =>
    cases h
    exact .str s
  | bytes bs =>
    rw [string, ofBytes] at h
    split at h
    · rename_i cs hcs
      cases h
      exact .bytes (by rw [hcs, String.toList_ofList])
    · cases h
  | _ => cases h

/-- Bytes spell one text, and no other bytes spell it. -/
theorem ofBytes?_inj {bs bs' : List Nat} {cs cs' : List Char} (h : Text.ofBytes? bs = some cs)
    (h' : Text.ofBytes? bs' = some cs') : bs = bs' ↔ cs = cs' := by
  constructor
  · rintro rfl
    exact Option.some.inj (h.symm.trans h')
  · rintro rfl
    simp only [Text.ofBytes?, Option.ite_none_right_eq_some, beq_iff_eq, Option.some.injEq] at h h'
    obtain ⟨hbs, rfl⟩ := h
    obtain ⟨hbs', he⟩ := h'
    rw [← hbs, ← hbs', he]

theorem Spells.ne_empty {v : Json} {s : String} (h : Spells v s) (hset : v.isSet = true) : s ≠ "" := by
  rintro rfl
  cases h with
  | str => cases hset
  | bytes h =>
    have hnil : Text.ofBytes? [] = some "".toList := rfl
    cases (ofBytes?_inj h hnil).2 rfl
    cases hset

/-- Identifiers are told apart by the texts they are read as, unless one of them is a text and the other spells it in
bytes. -/
theorem Spells.ne_iff {v w : Json} {s t : String} (h : Spells v s) (h' : Spells w t) :
    s ≠ t ↔ ¬ w.same v = true ∧ ¬ SpelledAlike v w := by
  cases h with
  | str =>
    cases h' with
    | str =>
      have halike : ¬ SpelledAlike (.str s) (.str t) := by
        rintro ⟨_, _, -, ⟨-, ⟨⟩⟩ | ⟨⟨⟩, -⟩⟩
      rw [Json.same, beq_iff_eq, eq_comm]
      exact ⟨fun hne => ⟨hne, halike⟩, And.left⟩
    | bytes h' =>
      rename_i bs
      constructor
      · intro hne
        refine ⟨by simp [Json.same, Json.number?], ?_⟩
        rintro ⟨_, _, hbs, ⟨⟨⟩, ⟨⟩⟩ | ⟨⟨⟩, -⟩⟩
        exact hne (String.toList_inj.1 (Option.some.inj (hbs.symm.trans h')))
      · rintro ⟨-, halike⟩ rfl
        exact halike ⟨s, bs, h', .inl ⟨rfl, rfl⟩⟩
  | bytes h =>
    rename_i bs
    cases h' with
    | str =>
      constructor
      · intro hne
        refine ⟨by simp [Json.same, Json.number?], ?_⟩
        rintro ⟨_, _, hbs, ⟨⟨⟩, -⟩ | ⟨⟨⟩, ⟨⟩⟩⟩
        exact hne (String.toList_inj.1 (Option.some.inj (h.symm.trans hbs)))
      · rintro ⟨-, halike⟩ rfl
        exact halike ⟨s, bs, h, .inr ⟨rfl, rfl⟩⟩
    | bytes h' =>
      rename_i bs'
      have hsame : Json.same (.bytes bs') (.bytes bs) = true ↔ s = t := by
        rw [Json.same, beq_iff_eq, eq_comm, ofBytes?_inj h h', String.toList_inj]
      have halike : ¬ SpelledAlike (.bytes bs) (.bytes bs') := by
        rintro ⟨_, _, -, ⟨⟨⟩, -⟩ | ⟨-, ⟨⟩⟩⟩
      rw [hsame]
      exact ⟨fun hne => ⟨hne, halike⟩, And.left⟩

theorem RawComponent.fields_normalized (c : RawComponent) :
    (c.changed Template.normalizeComponent).fields = Template.normalizeFields c.fields := by
  obtain ⟨depth, v⟩ := c
  cases v with
  | obj fields =>
    rw [changed, Template.normalizeComponent]
    rfl
  | _ =>
    rw [changed, Template.normalize_keepsOutline.other _ (by rintro _ ⟨⟩)]
    rfl

end Validation

/-- An arena of components that are named and within limits, and that ask for both answers. -/
structure Arena.Fits (limits : Limits) (a : Arena) : Prop where
  nonempty : a.nodes ≠ []
  named : ∀ n ∈ a.nodes, n.data.id ≠ ""
  few : a.size ≤ limits.maxComponents
  shallow : a.maxDepth ≤ limits.maxNesting
  accepts : a.findActions (Named.name ActionKind.acceptAll) ≠ []
  rejects : a.findActions (Named.name ActionKind.rejectAll) ≠ []

namespace Generation

/-- What a component holds has the identifier, the type and the type of the action of a raw one. -/
structure Likens (fields : List (String × Json)) (data : ComponentData) : Prop where
  id : Spells (valueOf "id" fields) data.id
  kind : valueOf "type" fields = .str (Named.name data.kind)
  action : valueOf "action" fields = .null ∧ data.action.kind = .none ∨
    actionOf fields = .str (Named.name data.action.kind)

/-- A component without complaints that is read, once it is prepared, is like the raw one. -/
theorem likens_of_readsAs {limits : Limits} {baseUrl : String} {fields : List (String × Json)} {data : ComponentData}
    (hfits : FieldsFit limits (Template.normalizeFields fields))
    (hreads : Component.ReadsAs (preparedFields baseUrl fields) data) : Likens fields data := by
  constructor
  · obtain ⟨v, hv, hread⟩ := requiredField_eq_valid hreads.id
    rw [get?_preparedFields (by decide)] at hv
    rw [valueOf, hv, Option.getD_some]
    exact spells_of_string hread
  · obtain ⟨k, hk⟩ := hfits.kind
    rw [Template.valueOf_normalizeFields rfl rfl, valueOf] at hk
    obtain ⟨v, hv, hread⟩ := requiredField_eq_valid hreads.kind
    rw [get?_preparedFields (by decide)] at hv
    rw [hv, Option.getD_some] at hk
    subst hk
    rw [valueOf, hv, Option.getD_some, member_eq_valid hread]
  · have haction := hfits.action
    rw [Template.valueOf_normalizeFields rfl rfl, Template.actionOf_normalizeFields] at haction
    have hread := hreads.action
    obtain hnull | ⟨a, ha⟩ := haction
    · refine .inl ⟨hnull, ?_⟩
      cases hget : Fields.get? "action" fields with
      | none =>
        have hprepared : Fields.get? "action" (preparedFields baseUrl fields) = none := by
          rw [get?_preparedFields (by decide), hget]
        simp only [field, find?, List.findSome?, hprepared, Option.map_none, valid.injEq] at hread
        rw [← hread]
      | some v =>
        rw [valueOf, hget, Option.getD_some] at hnull
        subst hnull
        have hnone := field_eq_valid ((get?_preparedFields (by decide)).trans hget) hread
        rw [Action.read, valid.injEq] at hnone
        rw [← hnone]
    · refine .inr ?_
      have hkind : data.action.kind = a := by
        refine Action.read_kind ?_ hread
        rw [actionOf, get?_preparedFields (by decide)]
        exact ha
      rw [hkind, ha]

theorem Likens.kind_of_action {fields : List (String × Json)} {data : ComponentData} {a : ActionKind}
    (h : Likens fields data) (ha : actionOf fields = .str (Named.name a)) : data.action.kind = a := by
  obtain ⟨hnull, -⟩ | hname := h.action
  · -- A component without an action does not ask for one.
    rw [actionOf] at ha
    cases hget : Fields.get? "action" fields with
    | none =>
      rw [hget] at ha
      cases ha
    | some v =>
      rw [valueOf, hget, Option.getD_some] at hnull
      subst hnull
      rw [hget] at ha
      cases ha
  · exact Named.name_injective (Json.str.inj (hname.symm.trans ha))

section

variable {limits : Limits} {roots : List Json} {arena : Arena}

theorem id_normalized (c : RawComponent) : (c.changed Template.normalizeComponent).id = c.id := by
  rw [RawComponent.id, c.fields_normalized, Template.valueOf_normalizeFields rfl rfl, RawComponent.id]

theorem findActions_ne_nil {a : ActionKind} {raws : List RawComponent}
    (h : List.Forall₂ (fun r n => r.depth = n.depth ∧ Likens r.fields n.data) raws arena.nodes) (ha : Offers a raws) :
    arena.findActions (Named.name a) ≠ [] := by
  obtain ⟨c, hc, haction⟩ := ha
  obtain ⟨n, hn, -, hlikens⟩ := (exists_of_forall₂ h).1 c hc
  have hmem : n ∈ arena.findActions (Named.name a) := by
    rw [Arena.findActions, List.mem_filter, beq_iff_eq, hlikens.kind_of_action haction]
    exact ⟨hn, rfl⟩
  exact List.ne_nil_of_mem hmem

/-- An arena whose components are like those of a raw forest without complaints keeps the limits. -/
theorem fits_of_entries (hforest : ForestFits limits (Template.normalizeComponents roots))
    (hentries : List.Forall₂ (fun r n => r.depth = n.depth ∧ Likens r.fields n.data) (componentsIn 0 roots)
      arena.nodes) : arena.Fits limits := by
  obtain ⟨hleft, hright⟩ := exists_of_forall₂ hentries
  have hchanged := Template.normalize_keepsOutline.componentsIn_change 0 roots
  have hasks := Template.normalize_keepsOutline.asks_items 0 roots
  have heach : ∀ c ∈ componentsIn 0 roots, ComponentFits limits (c.changed Template.normalizeComponent) := by
    intro c hc
    apply hforest.each
    rw [hchanged]
    exact List.mem_map_of_mem hc
  have hnonempty : arena.nodes ≠ [] := by
    obtain ⟨c, hc, -⟩ := (offers_congr hasks).1 hforest.accepts
    obtain ⟨n, hn, -⟩ := hleft c hc
    exact List.ne_nil_of_mem hn
  refine ⟨hnonempty, ?_, ?_, ?_, ?_, ?_⟩
  · intro n hn
    obtain ⟨c, hc, -, hl⟩ := hright n hn
    refine hl.id.ne_empty ?_
    rw [← RawComponent.id, ← id_normalized]
    exact (heach c hc).fields.id
  · have hfew := hforest.few
    rw [hchanged, List.length_map, hentries.length_eq] at hfew
    exact hfew
  · have hdepth : ∀ n ∈ arena.nodes, (n.depth : Int) ≤ limits.maxNesting := by
      intro n hn
      obtain ⟨c, hc, hd, -⟩ := hright n hn
      rw [← hd]
      exact (heach c hc).shallow
    have hmax : arena.maxDepth ≤ limits.maxNesting.toNat :=
      Arena.maxDepth_le fun n hn => by
        have := hdepth n hn
        omega
    obtain ⟨n, hn⟩ := List.exists_mem_of_ne_nil _ hnonempty
    have := hdepth n hn
    omega
  · exact findActions_ne_nil hentries ((offers_congr hasks).1 hforest.accepts)
  · exact findActions_ne_nil hentries ((offers_congr hasks).1 hforest.rejects)

theorem nodup_ids_iff (hforest : ForestFits limits (Template.normalizeComponents roots))
    (hentries : List.Forall₂ (fun r n => r.depth = n.depth ∧ Likens r.fields n.data) (componentsIn 0 roots)
      arena.nodes) : (arena.nodes.map (·.data.id)).Nodup ↔
        (componentsIn 0 roots).Pairwise fun c d => ¬ SpelledAlike c.id d.id := by
  have hdistinct : (componentsIn 0 roots).Pairwise Distinct := by
    have hd := hforest.distinct
    rw [Template.normalize_keepsOutline.componentsIn_change, List.pairwise_map] at hd
    refine hd.imp fun h => ?_
    rw [Distinct, id_normalized, id_normalized] at h
    exact h
  rw [List.Nodup, List.pairwise_map, ← pairwise_iff_of_forall₂ (P := fun c d => Distinct c d ∧
    ¬ SpelledAlike c.id d.id) hentries fun c n c' n' hn hn' => (hn.2.id.ne_iff hn'.2.id).symm, List.pairwise_and_iff]
  exact and_iff_right hdistinct

end

section

variable {limits : Limits} {options : Options} {template : Json} {t : Template}

/-- The forest of a prepared template stands for the raw one: each of its components is read from a raw one without
complaints, once that is prepared. -/
theorem prepare_mirrors (h : prepare limits options template = .ok t) :
    ∃ fields roots, template = .obj fields ∧ Fields.get? "components" fields = some (.arr roots) ∧
      ForestFits limits (Template.normalizeComponents roots) ∧
      List.Forall₂ (Component.Mirrors fun raw data => FieldsFit limits (Template.normalizeFields raw) ∧
        Component.ReadsAs (preparedFields options.baseUrl raw) data) roots t.components := by
  obtain ⟨fields, rfl, hvalid⟩ := valid_of_prepare h
  obtain ⟨roots, fields', hadapted, hprepare⟩ := @prepare_eq limits options fields hvalid
  have hread := read_components hadapted.items (checkedTemplate_eq_ok (hprepare.symm.trans h))
  refine ⟨fields, roots, rfl, hadapted.components, hadapted.forest, ?_⟩
  have hresolved : List.Forall₂ (Component.Mirrors fun raw data => Component.ReadsAs
      (Asset.resolveFields options.baseUrl (Asset.isImage raw) raw) data)
      (Template.normalizeComponents roots) t.components := by
    refine Component.Mirrors.of_all (Asset.resolve_keepsOutline options.baseUrl) (fun raw raw' data he hd => ?_) _
      (Component.mirrors_of_readAll _ hread)
    rw [Asset.resolveComponent] at he
    cases he
    exact hd
  have hprepared : List.Forall₂ (Component.Mirrors fun raw data => Component.ReadsAs
      (preparedFields options.baseUrl raw) data) roots t.components := by
    refine Component.Mirrors.of_all Template.normalize_keepsOutline (fun raw raw' data he hd => ?_) _ hresolved
    rw [Template.normalizeComponent] at he
    cases he
    exact hd
  refine Component.Mirrors.mono_all 0 _ hprepared fun r hr data hd => ⟨?_, hd⟩
  have hfits := hadapted.forest.each (r.changed Template.normalizeComponent) (by
    rw [Template.normalize_keepsOutline.componentsIn_change]
    exact List.mem_map_of_mem hr)
  rw [← r.fields_normalized]
  exact hfits.fields

/-- The arena of a prepared template. Its components are those of the raw template, at their places and with their
identifiers and actions, and are within the limits; no two have an identifier in common unless the raw template spells
it once as a text and once in bytes. -/
theorem prepare_arena (h : prepare limits options template = .ok t) :
    ∃ fields roots, template = .obj fields ∧ Fields.get? "components" fields = some (.arr roots) ∧
      List.Forall₂ (Component.Mirrors Likens) roots t.components ∧
      (Arena.ofComponents t.components).Fits limits ∧
      (((Arena.ofComponents t.components).nodes.map (·.data.id)).Nodup ↔
        (componentsIn 0 roots).Pairwise fun c d => ¬ SpelledAlike c.id d.id) := by
  obtain ⟨fields, roots, rfl, hroots, hforest, hmirrors⟩ := prepare_mirrors h
  have hlikens : List.Forall₂ (Component.Mirrors Likens) roots t.components :=
    Component.Mirrors.mono_all 0 _ hmirrors fun _ _ _ hr => likens_of_readsAs hr.1 hr.2
  have hentries : List.Forall₂ (fun r n => r.depth = n.depth ∧ Likens r.fields n.data) (componentsIn 0 roots)
      (Arena.ofComponents t.components).nodes := Arena.forall₂_ofComponents hlikens
  exact ⟨fields, roots, rfl, hroots, hlikens, fits_of_entries hforest hentries, nodup_ids_iff hforest hentries⟩

end

/-- A banner in which one identifier is a text and the other bytes that spell it. -/
def twiceNamedTemplate : List (String × Json) :=
  [("layout", .obj [("desktop", .obj [("type", .str "banner"), ("position", .str "bottom")])]),
    ("components", .arr [
      .obj [("id", .str "a"), ("type", .str "button"), ("action", .str "accept_all")],
      .obj [("id", .bytes [97]), ("type", .str "button"), ("action", .str "reject_all")]])]

theorem prepare_arena_twiceNamed : ∃ t, prepare {} {} (.obj twiceNamedTemplate) = .ok t ∧
    (Arena.ofComponents t.components).Fits {} ∧ ¬ ((Arena.ofComponents t.components).nodes.map (·.data.id)).Nodup := by
  obtain ⟨t, ht⟩ : ∃ t, prepare {} {} (.obj twiceNamedTemplate) = .ok t := exists_eq_ok (by decide +kernel)
  obtain ⟨_, roots, ⟨⟩, hroots, -, hfits, hnodup⟩ := prepare_arena ht
  refine ⟨t, ht, hfits, fun hn => ?_⟩
  cases hroots
  have hpairs := hnodup.1 hn
  simp only [componentsIn, componentsOf, componentsAmong, String.reduceBEq, Bool.false_eq_true, if_false,
    List.cons_append, List.nil_append, List.pairwise_cons, List.mem_singleton, forall_eq] at hpairs
  exact hpairs.1 ⟨"a", [97], rfl, .inl ⟨rfl, rfl⟩⟩

end Generation

end ConsentBanner
