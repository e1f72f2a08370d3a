import ConsentBanner.Schema
import ConsentBanner.Template.Basic

/-!
Readings that succeed, taken apart. Every value with a name is found under its own name, and only there.
-/

namespace ConsentBanner

/-- A type whose values are found under their names. -/
class LawfulNamed (α : Type) [Named α] : Prop where
  ofName?_name : ∀ a : α, Named.ofName? (Named.name a) = some a

namespace Named

variable {α : Type} [Named α]

theorem name_of_ofName? {s : String} {a : α} (h : ofName? s = some a) : name a = s := by
  have hs := List.find?_some h
  simpa using hs

theorem isName_iff [LawfulNamed α] {s : String} : isName α s = true ↔ ∃ a : α, name a = s := by
  constructor
  · intro h
    obtain ⟨a, ha⟩ := Option.isSome_iff_exists.1 h
    exact ⟨a, name_of_ofName? ha⟩
  · rintro ⟨a, rfl⟩
    simp [isName, LawfulNamed.ofName?_name]

theorem name_injective [LawfulNamed α] {a b : α} (h : name a = name b) : a = b := by
  have ha := LawfulNamed.ofName?_name a
  rw [h, LawfulNamed.ofName?_name] at ha
  exact (Option.some.inj ha).symm

end Named

instance : LawfulNamed Device where
  ofName?_name a := by cases a <;> rfl

instance : LawfulNamed Side where
  ofName?_name a := by cases a <;> rfl

instance : LawfulNamed ComponentKind where
  ofName?_name a := by cases a <;> rfl

instance : LawfulNamed ActionKind where
  ofName?_name a := by cases a <;> rfl

instance : LawfulNamed LayoutKind where
  ofName?_name a := by cases a <;> rfl

instance : LawfulNamed Anchor where
  ofName?_name a := by cases a <;> rfl

instance : LawfulNamed AnimationKind where
  ofName?_name a := by cases a <;> rfl

instance : LawfulNamed Corner where
  ofName?_name a := by cases a <;> rfl

namespace Checked

variable {α β : Type}

theorem map_eq_valid {f : α → β} {x : Checked α} {b : β} : f <$> x = valid b ↔ ∃ a, x = valid a ∧ f a = b := by
  change both (valid f) (fun _ => x) = valid b ↔ _
  cases x with
  | valid a => simp [both, map]
  | invalid issues => simp [both, map]
  | fault e => simp [both, map]

theorem seq_eq_valid {x : Checked (α → β)} {y : Checked α} {b : β} :
    x <*> y = valid b ↔ ∃ f a, x = valid f ∧ y = valid a ∧ f a = b := by
  change both x (fun _ => y) = valid b ↔ _
  cases x with
  | valid f =>
    cases y with
    | valid a => simp [both, map]
    | invalid issues => simp [both, map]
    | fault e => simp [both, map]
  | invalid issues =>
    cases y with
    | valid a => simp [both]
    | invalid more => simp [both]
    | fault e => simp [both]
  | fault e => simp [both]

theorem andThen_eq_valid {x : Checked α} {f : α → Checked β} {b : β} :
    x.andThen f = valid b ↔ ∃ a, x = valid a ∧ f a = valid b := by
  cases x with
  | valid a => simp [andThen]
  | invalid issues => simp [andThen]
  | fault e => simp [andThen]

theorem exists_of_all_eq_valid {read : α → Checked β} {l : List α} {bs : List β} (h : all read l = valid bs) :
    ∀ b ∈ bs, ∃ a ∈ l, read a = valid b := by
  induction l generalizing bs with
  | nil =>
    cases h
    exact List.forall_mem_nil _
  | cons a rest ih =>
    rw [all, seq_eq_valid] at h
    obtain ⟨_, more, hhead, hmore, rfl⟩ := h
    obtain ⟨b, hb, rfl⟩ := map_eq_valid.1 hhead
    rw [List.forall_mem_cons]
    refine ⟨⟨a, List.mem_cons_self, hb⟩, fun c hc => ?_⟩
    obtain ⟨a', ha', hread⟩ := ih hmore c hc
    exact ⟨a', List.mem_cons_of_mem a ha', hread⟩

theorem map_eq_fault {f : α → β} {x : Checked α} {e : Fault} : f <$> x = fault e ↔ x = fault e := by
  change both (valid f) (fun _ => x) = fault e ↔ _
  cases x with
  | valid a => simp [both, map]
  | invalid issues => simp [both, map]
  | fault e' => simp [both, map]

/-- The first fault of two outcomes is theirs, whatever the issues beside it. -/
theorem seq_eq_fault {x : Checked (α → β)} {y : Checked α} {e : Fault} :
    x <*> y = fault e ↔ x = fault e ∨ (∀ e', x ≠ fault e') ∧ y = fault e := by
  change both x (fun _ => y) = fault e ↔ _
  cases x with
  | valid f =>
    cases y with
    | valid a => simp [both, map]
    | invalid issues => simp [both, map]
    | fault e' => simp [both, map]
  | invalid issues =>
    cases y with
    | valid a => simp [both]
    | invalid more => simp [both]
    | fault e' => simp [both]
  | fault e' => simp [both]

@[simp] theorem under_eq_fault {key : String} {x : Checked α} {e : Fault} : x.under key = fault e ↔ x = fault e := by
  cases x with
  | valid a => simp [under]
  | invalid issues => simp [under]
  | fault e' => simp [under]

@[simp] theorem under_eq_valid {key : String} {x : Checked α} {a : α} : x.under key = valid a ↔ x = valid a := by
  cases x with
  | valid b => simp [under]
  | invalid issues => simp [under]
  | fault e => simp [under]

end Checked

namespace Reader

variable {α : Type}

theorem field_eq_valid {fields : List (String × Json)} {key : String} {default a : α} {read : Reader α} {v : Json}
    (hv : Fields.get? key fields = some v) (h : field fields [key] default read = .valid a) :
    read v = .valid a := by
  simpa [field, find?, hv] using h

theorem exists_of_field {fields : List (String × Json)} {keys : List String} {default a : α} {read : Reader α}
    (h : field fields keys default read = .valid a) :
    a = default ∨ ∃ key ∈ keys, ∃ v, Fields.get? key fields = some v ∧ read v = .valid a := by
  rw [field] at h
  split at h
  · rename_i k v hfound
    obtain ⟨key, hkey, hv⟩ := List.exists_of_findSome?_eq_some hfound
    obtain ⟨w, hw, hpair⟩ := Option.map_eq_some_iff.1 hv
    cases hpair
    exact .inr ⟨_, hkey, _, hw, Checked.under_eq_valid.1 h⟩
  · cases h
    exact .inl rfl

theorem field_eq_fault {fields : List (String × Json)} {keys : List String} {default : α} {read : Reader α}
    {e : Fault} :
    field fields keys default read = .fault e ↔ ∃ k v, find? keys fields = some (k, v) ∧ read v = .fault e := by
  unfold field
  cases find? keys fields with
  | none => simp
  | some found =>
    obtain ⟨k, v⟩ := found
    rw [Checked.under_eq_fault]
    constructor
    · intro h
      exact ⟨k, v, rfl, h⟩
    · rintro ⟨_, _, ⟨⟩, h⟩
      exact h

theorem string_ne_fault {v : Json} {e : Fault} : string v ≠ .fault e := by
  cases v with
  | bytes bs =>
    change ofBytes bs .notUnicode .valid ≠ .fault e
    unfold ofBytes
    split
    · exact nofun
    · exact nofun
  | _ => exact nofun

theorem requiredField_eq_valid {fields : List (String × Json)} {key : String} {a : α} {read : Reader α}
    (h : requiredField fields key read = .valid a) : ∃ v, Fields.get? key fields = some v ∧ read v = .valid a := by
  unfold requiredField at h
  split at h
  · rename_i v hv
    exact ⟨v, hv, Checked.under_eq_valid.1 h⟩
  · cases h

theorem member_name {α : Type} [Named α] [LawfulNamed α] (a : α) : member α (.str (Named.name a)) = .valid a := by
  simp only [member, string, LawfulNamed.ofName?_name]

theorem member_eq_valid {α : Type} [Named α] [LawfulNamed α] {a b : α}
    (h : member α (.str (Named.name a)) = .valid b) : a = b := by
  rw [member_name] at h
  cases h
  rfl

end Reader

end ConsentBanner
