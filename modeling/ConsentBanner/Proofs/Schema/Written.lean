import ConsentBanner.Proofs.Json.Plain
import ConsentBanner.Proofs.Schema
import ConsentBanner.Template.Write

/-!
What is written of fields is read back from them, nulls left out.
-/

namespace ConsentBanner

namespace Checked

variable {α β : Type}

theorem all_map {read : β → Checked α} {write : α → β} {l : List α} (h : ∀ a ∈ l, read (write a) = .valid a) :
    all read (l.map write) = .valid l := by
  induction l with
  | nil => rfl
  | cons a rest ih =>
    rw [List.forall_mem_cons] at h
    rw [List.map_cons, all, h.1, ih h.2]
    rfl

end Checked

theorem Fields.get?_givenFields {fields : List (String × Json)} (hkeys : (fields.map (·.1)).Nodup) (key : String) :
    get? key (givenFields fields) = (get? key fields).bind fun v => if v.isNull then none else some v := by
  rw [← get?_filterMap hkeys, givenFields, ← List.filterMap_eq_filter]
  congr 2
  funext f
  cases hf : f.2.isNull with
  | true => simp [Option.guard, hf]
  | false => simp [Option.guard, hf]

namespace Reader

open Json

variable {α : Type} {fields : List (String × Json)} {key : String} {keys aliases : List String} {default a : α}
  {read : Reader α} {v : Json}

/-- A value that some JSON document with finite numbers is read as. -/
def Reads (read : Reader α) (a : α) : Prop := ∃ v : Json, v.IsFinite ∧ read v = .valid a

theorem reads_of_field (hfields : (Json.obj fields).IsFinite) (h : field fields keys default read = .valid a) :
    a = default ∨ Reads read a := by
  obtain h | ⟨key, -, v, hv, h⟩ := exists_of_field h
  · exact .inl h
  · exact .inr ⟨v, hfields.of_get? hv, h⟩

theorem Reads.of_field (hfields : (Json.obj fields).IsFinite) (hdefault : Reads read default)
    (h : field fields keys default read = .valid a) : Reads read a := by
  obtain rfl | h := reads_of_field hfields h
  · exact hdefault
  · exact h

theorem Reads.of_model {name : String} {read : List (String × Json) → Checked α} (h : Reads (model name read) a) :
    ∃ fields, (Json.obj fields).IsFinite ∧ read fields = .valid a := by
  obtain ⟨v, hv, h⟩ := h
  cases v with
  | obj fields => exact ⟨fields, hv, h⟩
  | _ => cases h

theorem nullable_eq_valid {b : Option α} :
    nullable read v = .valid b ↔ v = .null ∧ b = none ∨ v.isNull = false ∧ ∃ a, b = some a ∧ read v = .valid a := by
  have hgiven : (read v).map some = .valid b ↔ ∃ a, b = some a ∧ read v = .valid a := by
    cases read v with
    | valid a => simp [Checked.map, eq_comm]
    | _ => simp [Checked.map]
  cases v with
  | null => simp [nullable, isNull, eq_comm]
  | _ => simpa [nullable, isNull] using hgiven

theorem Reads.of_nullable {b : Option α} (hfields : (Json.obj fields).IsFinite)
    (h : field fields keys none (nullable read) = .valid b) : ∀ a ∈ b, Reads read a := by
  rintro a rfl
  obtain ⟨⟨⟩⟩ | ⟨v, hv, h⟩ := reads_of_field hfields h
  obtain ⟨-, ⟨⟩⟩ | ⟨-, _, ⟨⟩, h⟩ := nullable_eq_valid.1 h
  exact ⟨v, hv, h⟩

theorem field_of_get? (hv : Fields.get? key fields = some v) (h : read v = .valid a) :
    field fields (key :: aliases) default read = .valid a := by
  rw [field, find?, List.findSome?_cons, hv]
  exact Checked.under_eq_valid.2 h

theorem field_of_missing (h : ∀ k ∈ keys, Fields.get? k fields = none) :
    field fields keys default read = .valid default := by
  have hfind : find? keys fields = none := by
    rw [find?, List.findSome?_eq_none_iff]
    intro k hk
    rw [h k hk]
    rfl
  rw [field, hfind]

section

variable (hkeys : (fields.map (·.1)).Nodup)
include hkeys

theorem field_given (hv : Fields.get? key fields = some v) (hnull : v.isNull = false) (h : read v = .valid a) :
    field (givenFields fields) (key :: aliases) default read = .valid a := by
  apply field_of_get? _ h
  rw [Fields.get?_givenFields hkeys, hv, Option.bind_some, hnull]
  rfl

theorem requiredField_given (hv : Fields.get? key fields = some v) (hnull : v.isNull = false)
    (h : read v = .valid a) : requiredField (givenFields fields) key read = .valid a := by
  have hgiven : Fields.get? key (givenFields fields) = some v := by
    rw [Fields.get?_givenFields hkeys, hv, Option.bind_some, hnull]
    rfl
  rw [requiredField, hgiven]
  exact Checked.under_eq_valid.2 h

theorem field_missing {default : α} {read : Reader α} (hv : Fields.get? key fields = some .null)
    (haliases : ∀ k ∈ aliases, Fields.get? k fields = none) :
    field (givenFields fields) (key :: aliases) default read = .valid default := by
  apply field_of_missing
  rw [List.forall_mem_cons]
  constructor
  · rw [Fields.get?_givenFields hkeys, hv]
    rfl
  · intro k hk
    rw [Fields.get?_givenFields hkeys, haliases k hk]
    rfl

theorem field_optional {json : α → Json} {a : Option α} {read : Reader (Option α)}
    (hv : Fields.get? key fields = some (nullableJson json a)) (haliases : ∀ k ∈ aliases, Fields.get? k fields = none)
    (h : ∀ b ∈ a, (json b).isNull = false ∧ read (json b) = .valid a) :
    field (givenFields fields) (key :: aliases) none read = .valid a := by
  cases a with
  | none => exact field_missing hkeys hv haliases
  | some b => exact field_given hkeys hv (h b rfl).1 (h b rfl).2

theorem field_nullable_map {β : Type} {json : α → Json} {exact : α → β} {read : Reader β} {a : Option α}
    (hv : Fields.get? key fields = some (nullableJson json a)) (haliases : ∀ k ∈ aliases, Fields.get? k fields = none)
    (h : ∀ b ∈ a, (json b).isNull = false ∧ read (json b) = .valid (exact b)) :
    field (givenFields fields) (key :: aliases) none (nullable read) = .valid (a.map exact) := by
  cases a with
  | none => exact field_missing hkeys hv haliases
  | some b =>
    obtain ⟨hnull, hread⟩ := h b rfl
    exact field_given hkeys hv hnull (nullable_eq_valid.2 (.inr ⟨hnull, exact b, rfl, hread⟩))

theorem field_nullable {json : α → Json} {a : Option α} (hv : Fields.get? key fields = some (nullableJson json a))
    (haliases : ∀ k ∈ aliases, Fields.get? k fields = none)
    (h : ∀ b ∈ a, (json b).isNull = false ∧ read (json b) = .valid b) :
    field (givenFields fields) (key :: aliases) none (nullable read) = .valid a := by
  have hmap : field (givenFields fields) (key :: aliases) none (nullable read) = .valid (a.map id) :=
    field_nullable_map hkeys hv haliases h
  rwa [Option.map_id, id] at hmap

theorem field_text {s : Option String} (hv : Fields.get? key fields = some (optional s))
    (haliases : ∀ k ∈ aliases, Fields.get? k fields = none) :
    field (givenFields fields) (key :: aliases) none (nullable string) = .valid s :=
  field_nullable hkeys hv haliases fun _ _ => ⟨rfl, rfl⟩

end

theorem oneOf_name {α : Type} [Named α] [LawfulNamed α] (a : α) : oneOf α (.str (Named.name a)) = .valid a := by
  simp [oneOf, asString?, LawfulNamed.ofName?_name]

theorem exists_of_mem_entries {values : List (String × α)} (h : entries read fields = .valid values) :
    ∀ f ∈ values, ∃ v, read v = .valid f.2 := by
  induction fields generalizing values with
  | nil =>
    cases h
    exact List.forall_mem_nil _
  | cons g rest ih =>
    unfold entries at h
    split at h
    · contradiction
    · rename_i heq
      cases heq
      simp only [Checked.seq_eq_valid, Checked.map_eq_valid, Checked.under_eq_valid] at h
      obtain ⟨_, more, ⟨_, a, ⟨name, -, rfl⟩, ha, rfl⟩, hmore, rfl⟩ := h
      rw [List.forall_mem_cons]
      exact ⟨⟨_, ha⟩, ih hmore⟩
    · rename_i heq
      cases heq
      simp only [Checked.seq_eq_valid, Checked.map_eq_valid, Checked.under_eq_valid] at h
      obtain ⟨_, more, ⟨a, ha, rfl⟩, hmore, rfl⟩ := h
      rw [List.forall_mem_cons]
      exact ⟨⟨_, ha⟩, ih hmore⟩

theorem entries_map {json : α → Json} {l : List (String × α)}
    (h : ∀ f ∈ l, (∀ k v, json f.2 ≠ .keyed k v) ∧ read (json f.2) = .valid f.2) :
    entries read (l.map fun f => (f.1, json f.2)) = .valid l := by
  induction l with
  | nil => rfl
  | cons f rest ih =>
    rw [List.forall_mem_cons] at h
    obtain ⟨⟨hkeyed, hread⟩, hrest⟩ := h
    rw [List.map_cons, entries, hread, ih hrest]
    · rfl
    · exact hkeyed

theorem nodup_dictionary {values : List (String × α)} (h : dictionary read v = .valid values) :
    (values.map (·.1)).Nodup := by
  cases v with
  | obj fields =>
    rw [dictionary, Checked.map_eq_valid] at h
    obtain ⟨pairs, -, rfl⟩ := h
    exact Fields.nodup_ofPairs pairs
  | _ => cases h

theorem exists_of_mem_dictionary {values : List (String × α)} (h : dictionary read v = .valid values) :
    ∀ f ∈ values, ∃ w, read w = .valid f.2 := by
  cases v with
  | obj fields =>
    rw [dictionary, Checked.map_eq_valid] at h
    obtain ⟨pairs, hpairs, rfl⟩ := h
    exact fun f hf => exists_of_mem_entries hpairs f (Fields.mem_of_mem_ofPairs hf)
  | _ => cases h

theorem dictionary_map {json : α → Json} {l : List (String × α)} (hkeys : (l.map (·.1)).Nodup)
    (h : ∀ f ∈ l, (∀ k v, json f.2 ≠ .keyed k v) ∧ read (json f.2) = .valid f.2) :
    dictionary read (.obj (l.map fun f => (f.1, json f.2))) = .valid l := by
  rw [dictionary, Checked.map_eq_valid]
  exact ⟨l, entries_map h, Fields.ofPairs_of_nodup hkeys⟩

theorem dictionary_any (hkeys : (fields.map (·.1)).Nodup) (h : ∀ f ∈ fields, ∀ k w, f.2 ≠ .keyed k w) :
    dictionary any (.obj fields) = .valid fields := by
  have hdictionary := @dictionary_map Json any id fields hkeys fun f hf => ⟨h f hf, rfl⟩
  rwa [show (fun f : String × Json => (f.1, id f.2)) = id from rfl, List.map_id] at hdictionary

theorem dictionary_plain (h : (Json.obj fields).IsPlain) : dictionary any (.obj fields) = .valid fields :=
  dictionary_any h.1 fun f hf => unkeyed_of_isPlain (fieldsArePlain_iff.1 h.2 f hf)

theorem dictionary_freeFields (fields : List (String × Json)) :
    dictionary any (freeFields fields) = .valid (portableBlock fields) :=
  dictionary_any (nodup_portableBlock fields) unkeyed_portableBlock

theorem dictionary_textFields {texts : List (String × String)} (hkeys : (texts.map (·.1)).Nodup) :
    dictionary string (.obj (textFields texts)) = .valid texts :=
  dictionary_map hkeys fun _ _ => ⟨nofun, rfl⟩

end Reader

end ConsentBanner
