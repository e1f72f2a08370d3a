import ConsentBanner.Proofs.Schema

/-!
Readings that end in a value or in issues, never in a fault.
-/

namespace ConsentBanner

namespace Checked

variable {α β : Type}

/-- There is a value. -/
def IsValid (x : Checked α) : Prop := ∃ a, x = valid a

/-- There is a value, or there are issues. -/
def Faultless (x : Checked α) : Prop := ∀ e, x ≠ fault e

@[simp] theorem isValid_valid (a : α) : (valid a).IsValid := ⟨a, rfl⟩

@[simp] theorem not_isValid_reject (p : Problem) : ¬ (reject p : Checked α).IsValid := by
  rintro ⟨_, ⟨⟩⟩

@[simp] theorem isValid_map {f : α → β} {x : Checked α} : (f <$> x).IsValid ↔ x.IsValid := by
  simp only [IsValid, map_eq_valid]
  constructor
  · rintro ⟨_, a, ha, -⟩
    exact ⟨a, ha⟩
  · rintro ⟨a, ha⟩
    exact ⟨f a, a, ha, rfl⟩

@[simp] theorem isValid_seq {x : Checked (α → β)} {y : Checked α} : (x <*> y).IsValid ↔ x.IsValid ∧ y.IsValid := by
  simp only [IsValid, seq_eq_valid]
  constructor
  · rintro ⟨_, f, a, hf, ha, -⟩
    exact ⟨⟨f, hf⟩, a, ha⟩
  · rintro ⟨⟨f, hf⟩, a, ha⟩
    exact ⟨f a, f, a, hf, ha, rfl⟩

@[simp] theorem isValid_under {key : String} {x : Checked α} : (x.under key).IsValid ↔ x.IsValid := by
  simp only [IsValid, under_eq_valid]

theorem isValid_all {read : α → Checked β} (l : List α) : (all read l).IsValid ↔ ∀ a ∈ l, (read a).IsValid := by
  induction l with
  | nil => simp [all]
  | cons a rest ih => rw [all, isValid_seq, isValid_map, ih, List.forall_mem_cons]

@[simp] theorem faultless_valid (a : α) : (valid a).Faultless := by
  rintro _ ⟨⟩

theorem IsValid.faultless {x : Checked α} (h : x.IsValid) : x.Faultless := by
  obtain ⟨a, rfl⟩ := h
  exact faultless_valid a

@[simp] theorem faultless_invalid (issues : List Issue) : (invalid issues : Checked α).Faultless := by
  rintro _ ⟨⟩

@[simp] theorem faultless_reject (p : Problem) : (reject p : Checked α).Faultless := faultless_invalid _

@[simp] theorem faultless_map {f : α → β} {x : Checked α} : (f <$> x).Faultless ↔ x.Faultless := by
  simp only [Faultless, ne_eq, map_eq_fault]

/-- A reading that goes on after its first part is faultless when it is so from whatever that part has read. -/
theorem Faultless.andThen {x : Checked α} {f : α → Checked β} (hx : x.Faultless) (hf : ∀ a, (f a).Faultless) :
    (x.andThen f).Faultless := by
  cases x with
  | valid a => exact hf a
  | invalid issues => exact faultless_invalid issues
  | fault e => exact (hx e rfl).elim

@[simp] theorem faultless_seq {x : Checked (α → β)} {y : Checked α} :
    (x <*> y).Faultless ↔ x.Faultless ∧ y.Faultless := by
  simp only [Faultless, ne_eq, seq_eq_fault, not_or, not_and]
  constructor
  · intro h
    exact ⟨fun e => (h e).1, fun e => (h e).2 fun e' => (h e').1⟩
  · rintro ⟨hx, hy⟩ e
    exact ⟨hx e, fun _ => hy e⟩

@[simp] theorem faultless_under {key : String} {x : Checked α} : (x.under key).Faultless ↔ x.Faultless := by
  simp only [Faultless, ne_eq, under_eq_fault]

theorem faultless_all {read : α → Checked β} (h : ∀ a, (read a).Faultless) (l : List α) : (all read l).Faultless := by
  induction l with
  | nil => exact faultless_valid []
  | cons a rest ih =>
    rw [all, faultless_seq, faultless_map]
    exact ⟨h a, ih⟩

theorem Faultless.eq_invalid {x : Checked α} (h : x.Faultless) (hv : ¬ x.IsValid) : ∃ issues, x = .invalid issues := by
  cases x with
  | valid a => exact (hv (isValid_valid a)).elim
  | invalid issues => exact ⟨issues, rfl⟩
  | fault e => exact (h e rfl).elim

end Checked

namespace Reader

open Checked

variable {α : Type}

/-- Whatever stands under one of the keys can be read. -/
def Takes (fields : List (String × Json)) (keys : List String) (read : Reader α) : Prop :=
  ∀ k v, find? keys fields = some (k, v) → (read v).IsValid

theorem isValid_field {fields : List (String × Json)} {keys : List String} {default : α} {read : Reader α} :
    (field fields keys default read).IsValid ↔ Takes fields keys read := by
  unfold field Takes
  cases find? keys fields with
  | none => simp
  | some found =>
    obtain ⟨k, v⟩ := found
    simp

theorem isValid_requiredField {fields : List (String × Json)} {key : String} {read : Reader α} :
    (requiredField fields key read).IsValid ↔ ∃ v, Fields.get? key fields = some v ∧ (read v).IsValid := by
  unfold requiredField
  cases Fields.get? key fields with
  | none => simp
  | some v => simp

/-- Every value can be read, or has issues. -/
def Total (read : Reader α) : Prop := ∀ v, (read v).Faultless

theorem faultless_field {fields : List (String × Json)} {keys : List String} {default : α} {read : Reader α} :
    (field fields keys default read).Faultless ↔
      ∀ k v, find? keys fields = some (k, v) → (read v).Faultless := by
  simp only [Faultless, ne_eq, field_eq_fault, not_exists, not_and]
  constructor
  · intro h k v hv e
    exact h e k v hv
  · intro h e k v hv
    exact h k v hv e

theorem Total.field {read : Reader α} (h : Total read) (fields : List (String × Json)) (keys : List String)
    (default : α) : (field fields keys default read).Faultless :=
  faultless_field.2 fun _ v _ => h v

theorem Total.requiredField {read : Reader α} (h : Total read) (fields : List (String × Json)) (key : String) :
    (requiredField fields key read).Faultless := by
  unfold Reader.requiredField
  split
  · rw [faultless_under]
    exact h _
  · rw [faultless_under]
    exact faultless_reject _

theorem find?_singleton {fields : List (String × Json)} {key : String} :
    find? [key] fields = (Fields.get? key fields).map (key, ·) := by
  unfold find?
  cases hv : Fields.get? key fields with
  | none => simp [hv]
  | some v => simp [hv]

theorem takes_singleton {fields : List (String × Json)} {key : String} {read : Reader α} :
    Takes fields [key] read ↔ ∀ v, Fields.get? key fields = some v → (read v).IsValid := by
  rw [Takes, find?_singleton]
  cases Fields.get? key fields with
  | none => simp
  | some v => simp

theorem faultless_field_singleton {fields : List (String × Json)} {key : String} {default : α}
    {read : Reader α} :
    (field fields [key] default read).Faultless ↔ ∀ v, Fields.get? key fields = some v → (read v).Faultless := by
  rw [faultless_field, find?_singleton]
  cases Fields.get? key fields with
  | none => simp
  | some v => simp

theorem find?_congr {keys : List String} {fields fields' : List (String × Json)}
    (h : ∀ k ∈ keys, Fields.get? k fields' = Fields.get? k fields) : find? keys fields' = find? keys fields := by
  induction keys with
  | nil => rfl
  | cons k rest ih =>
    rw [List.forall_mem_cons] at h
    unfold find? at ih ⊢
    rw [List.findSome?_cons, List.findSome?_cons, h.1, ih h.2]

theorem faultless_ofBytes {bs : List Nat} {problem : Problem} {read : String → Checked α}
    (h : ∀ s, (read s).Faultless) : (ofBytes bs problem read).Faultless := by
  unfold ofBytes
  split
  · exact h _
  · exact faultless_reject _

theorem total_string : Total string := by
  intro v
  exact fun _ => string_ne_fault

theorem faultless_boolOfInt (n : Int) : (boolOfInt n).Faultless := by
  unfold boolOfInt
  split
  · exact faultless_valid _
  · split
    · exact faultless_valid _
    · exact faultless_reject _

theorem faultless_boolOfText (s : String) : (boolOfText s).Faultless := by
  unfold boolOfText
  split
  · exact faultless_valid _
  · exact faultless_reject _

theorem total_bool : Total bool := by
  intro v
  unfold bool
  split
  · exact faultless_valid _
  · split
    · exact faultless_boolOfInt _
    · exact faultless_reject _
  · split
    · exact faultless_boolOfInt _
    · exact faultless_reject _
  · exact faultless_boolOfText _
  · exact faultless_ofBytes faultless_boolOfText
  · exact faultless_reject _

theorem faultless_intOfText (s : String) : (intOfText s).Faultless := by
  unfold intOfText
  split
  · exact faultless_valid _
  · exact faultless_reject _
  · exact faultless_reject _

theorem total_int : Total int := by
  intro v
  unfold int
  split
  · exact faultless_valid _
  · exact faultless_valid _
  · split
    · exact faultless_reject _
    · split
      · exact faultless_reject _
      · split
        · exact faultless_valid _
        · exact faultless_reject _
  · exact faultless_intOfText _
  · exact faultless_ofBytes faultless_intOfText
  · exact faultless_reject _

theorem total_intAtLeast (least : Int) : Total (intAtLeast least) := by
  intro v
  apply (total_int v).andThen
  intro n
  split
  · exact faultless_valid _
  · exact faultless_reject _

theorem faultless_numberOfText (s : String) : (numberOfText s).Faultless := by
  unfold numberOfText
  split
  · exact faultless_valid _
  · exact faultless_reject _

theorem total_number : Total number := by
  intro v
  unfold number
  split
  · exact faultless_valid _
  · dsimp only
    split
    · exact faultless_valid _
    · exact faultless_reject _
  · exact faultless_valid _
  · exact faultless_numberOfText _
  · exact faultless_ofBytes faultless_numberOfText
  · exact faultless_reject _

theorem total_nonNegative : Total nonNegative := by
  intro v
  apply (total_number v).andThen
  intro x
  split
  · exact faultless_valid _
  · exact faultless_valid _
  · exact faultless_reject _

theorem total_nullable {read : Reader α} (h : Total read) : Total (nullable read) := by
  intro v
  unfold nullable
  split
  · exact faultless_valid _
  · exact faultless_map.2 (h _)

theorem isValid_nullable {read : Reader α} {v : Json} (hv : v ≠ .null) :
    (nullable read v).IsValid ↔ (read v).IsValid := by
  unfold nullable
  split
  · exact (hv rfl).elim
  · exact isValid_map

theorem total_member [Named α] : Total (member α) := by
  intro v
  unfold member
  split
  · split
    · exact faultless_valid _
    · exact faultless_reject _
  · exact faultless_reject _

theorem isValid_member [Named α] [LawfulNamed α] (a : α) : (member α (.str (Named.name a))).IsValid :=
  ⟨a, member_name a⟩

theorem total_oneOf [Named α] : Total (oneOf α) := by
  intro v
  unfold oneOf
  split
  · exact faultless_valid _
  · exact faultless_reject _

theorem total_any : Total any := faultless_valid

theorem faultless_entries {read : Reader α} (h : Total read) (fields : List (String × Json)) :
    (entries read fields).Faultless := by
  induction fields with
  | nil => exact faultless_valid []
  | cons f rest ih =>
    unfold entries
    split
    · contradiction
    · rename_i heq
      cases heq
      simp only [faultless_seq, faultless_map, faultless_under]
      exact ⟨⟨total_string _, h _⟩, ih⟩
    · rename_i heq
      cases heq
      simp only [faultless_seq, faultless_map, faultless_under]
      exact ⟨h _, ih⟩

theorem total_dictionary {read : Reader α} (h : Total read) : Total (dictionary read) := by
  intro v
  unfold dictionary
  split
  · exact faultless_map.2 (faultless_entries h _)
  · exact faultless_reject _

theorem faultless_otherFields (names : List String) (fields : List (String × Json)) :
    (otherFields names fields).Faultless := by
  induction fields with
  | nil => exact faultless_valid []
  | cons f rest ih =>
    unfold otherFields
    split
    · contradiction
    · rename_i heq
      cases heq
      simp only [faultless_seq, faultless_map, faultless_under]
      exact ⟨faultless_ofBytes faultless_valid, ih⟩
    · rename_i heq
      cases heq
      simp only [faultless_seq, faultless_map, faultless_under]
      exact ⟨faultless_reject _, ih⟩
    · rename_i heq
      cases heq
      exact faultless_map.2 ih

theorem total_model {name : String} {read : List (String × Json) → Checked α} (h : ∀ fields, (read fields).Faultless) :
    Total (model name read) := by
  intro v
  unfold model
  split
  · exact h _
  · exact faultless_reject _

end Reader

end ConsentBanner
