import ConsentBanner.Json.Basic

/-!
Looking up fields, and documents in which no object has a key twice.
-/

namespace ConsentBanner.Fields

variable {α β : Type}

@[simp] theorem get?_cons_self (key : String) (v : α) (rest : List (String × α)) :
    get? key ((key, v) :: rest) = some v := by
  simp [get?]

theorem get?_cons_of_ne {k key : String} (h : k ≠ key) (v : α) (rest : List (String × α)) :
    get? key ((k, v) :: rest) = get? key rest := by
  simp [get?, h]

theorem mem_of_get? {fields : List (String × α)} {key : String} {v : α} (h : get? key fields = some v) :
    (key, v) ∈ fields := by
  induction fields with
  | nil => cases h
  | cons f rest ih =>
    obtain ⟨k, w⟩ := f
    rw [get?] at h
    split at h
    · rename_i hk
      cases h
      rw [eq_of_beq hk]
      exact List.mem_cons_self
    · exact List.mem_cons_of_mem _ (ih h)

theorem get?_of_mem {fields : List (String × α)} (h : (fields.map (·.1)).Nodup) {key : String} {v : α}
    (hm : (key, v) ∈ fields) : get? key fields = some v := by
  induction fields with
  | nil => cases hm
  | cons f rest ih =>
    obtain ⟨k, w⟩ := f
    rw [List.map_cons, List.nodup_cons] at h
    obtain hm | hm := List.mem_cons.1 hm
    · cases hm
      exact get?_cons_self key v rest
    · have hne : k ≠ key := by
        rintro rfl
        exact h.1 (List.mem_map.2 ⟨(k, v), hm, rfl⟩)
      rw [get?_cons_of_ne hne, ih h.2 hm]

section

variable {g : α → Option β} {fields : List (String × α)}

theorem get?_of_not_mem {key : String} (h : key ∉ fields.map (·.1)) : get? key fields = none := by
  induction fields with
  | nil => rfl
  | cons f rest ih =>
    obtain ⟨k, v⟩ := f
    rw [List.map_cons, List.mem_cons, not_or] at h
    rw [get?_cons_of_ne (Ne.symm h.1), ih h.2]

theorem exists_get?_of_mem {key : String} (h : key ∈ fields.map (·.1)) : ∃ v, get? key fields = some v := by
  induction fields with
  | nil => cases h
  | cons f rest ih =>
    obtain ⟨k, v⟩ := f
    by_cases hk : k = key
    · subst hk
      exact ⟨v, get?_cons_self k v rest⟩
    · rw [get?_cons_of_ne hk]
      exact ih ((List.mem_cons.1 h).resolve_left (Ne.symm hk))

theorem get?_filterMap (h : (fields.map (·.1)).Nodup) (key : String) :
    get? key (fields.filterMap fun f => (g f.2).map (f.1, ·)) = (get? key fields).bind g := by
  induction fields with
  | nil => rfl
  | cons f rest ih =>
    obtain ⟨k, v⟩ := f
    rw [List.map_cons, List.nodup_cons] at h
    obtain ⟨hk, hrest⟩ := h
    by_cases hkey : k = key
    · subst hkey
      rw [get?_cons_self, Option.bind_some]
      cases hg : g v with
      | some b => rw [List.filterMap_cons_some (by rw [hg]; rfl), get?_cons_self]
      | none =>
        -- A key that is left out does not stand further on.
        rw [List.filterMap_cons_none (by rw [hg]; rfl), ih hrest, get?_of_not_mem hk]
        rfl
    · rw [get?_cons_of_ne hkey, ← ih hrest]
      cases hg : g v with
      | some b => rw [List.filterMap_cons_some (by rw [hg]; rfl), get?_cons_of_ne hkey]
      | none => rw [List.filterMap_cons_none (by rw [hg]; rfl)]

theorem keys_filterMap_sublist (g : α → Option β) (fields : List (String × α)) :
    ((fields.filterMap fun f => (g f.2).map (f.1, ·)).map (·.1)).Sublist (fields.map (·.1)) := by
  induction fields with
  | nil => exact .slnil
  | cons f rest ih =>
    cases hg : g f.2 with
    | some b =>
      rw [List.filterMap_cons_some (by rw [hg]; rfl)]
      exact ih.cons_cons f.1
    | none =>
      rw [List.filterMap_cons_none (by rw [hg]; rfl)]
      exact ih.cons f.1

end

@[simp] theorem get?_set_self (key : String) (v : α) (fields : List (String × α)) :
    get? key (set key v fields) = some v := by
  induction fields with
  | nil => simp [set]
  | cons f rest ih =>
    obtain ⟨k, w⟩ := f
    rw [set]
    split
    · rename_i hk
      rw [eq_of_beq hk, get?_cons_self]
    · rename_i hk
      rw [get?_cons_of_ne (by simpa using hk), ih]

theorem get?_set_of_ne {k key : String} (h : k ≠ key) (v : α) (fields : List (String × α)) :
    get? key (set k v fields) = get? key fields := by
  induction fields with
  | nil => exact get?_cons_of_ne h v []
  | cons f rest ih =>
    obtain ⟨k', w⟩ := f
    rw [set]
    split
    · rename_i hk
      rw [eq_of_beq hk, get?_cons_of_ne h, get?_cons_of_ne h]
    · by_cases hkey : k' = key
      · rw [hkey, get?_cons_self, get?_cons_self]
      · rw [get?_cons_of_ne hkey, get?_cons_of_ne hkey, ih]

theorem set_set (key : String) (v w : α) (fields : List (String × α)) :
    set key w (set key v fields) = set key w fields := by
  induction fields with
  | nil => exact if_pos (beq_self_eq_true key)
  | cons f rest ih =>
    rw [set, set]
    split
    · rename_i hk
      rw [set, if_pos hk]
    · rename_i hk
      rw [set, if_neg hk, ih]

theorem set_of_get? {key : String} {v : α} {fields : List (String × α)} (h : get? key fields = some v) :
    set key v fields = fields := by
  induction fields with
  | nil => cases h
  | cons f rest ih =>
    rw [get?] at h
    rw [set]
    split at h
    · rename_i hk
      cases h
      rw [if_pos hk]
    · rename_i hk
      rw [if_neg hk, ih h]

theorem set_of_not_mem {key : String} {fields : List (String × α)} (h : key ∉ fields.map (·.1)) (v : α) :
    set key v fields = fields ++ [(key, v)] := by
  induction fields with
  | nil => rfl
  | cons f rest ih =>
    obtain ⟨k, w⟩ := f
    rw [List.map_cons, List.mem_cons, not_or] at h
    rw [set, if_neg (by simpa using Ne.symm h.1), ih h.2, List.cons_append]

theorem foldl_set_of_nodup {fields before : List (String × α)} (h : ((before ++ fields).map (·.1)).Nodup) :
    fields.foldl (fun fields f => set f.1 f.2 fields) before = before ++ fields := by
  induction fields generalizing before with
  | nil => rw [List.foldl_nil, List.append_nil]
  | cons f rest ih =>
    have hf : f.1 ∉ before.map (·.1) := by
      rw [List.map_append, List.nodup_append] at h
      exact fun hm => h.2.2 f.1 hm f.1 List.mem_cons_self rfl
    rw [List.append_cons] at h
    rw [List.foldl_cons, List.append_cons, set_of_not_mem hf, ih h]

theorem mem_of_mem_set {key : String} {v : α} {fields : List (String × α)} {f : String × α}
    (h : f ∈ set key v fields) : f = (key, v) ∨ f ∈ fields := by
  induction fields with
  | nil => exact .inl (List.mem_singleton.1 h)
  | cons g rest ih =>
    obtain ⟨k, w⟩ := g
    rw [set] at h
    split at h
    · rename_i hk
      rw [beq_iff_eq] at hk
      rw [hk, List.mem_cons] at h
      exact h.imp_right (.tail _)
    · rw [List.mem_cons] at h
      obtain rfl | h := h
      · exact .inr (.head _)
      · exact (ih h).imp_right (.tail _)

theorem mem_keys_set {key k : String} {v : α} {fields : List (String × α)} (h : k ∈ (set key v fields).map (·.1)) :
    k = key ∨ k ∈ fields.map (·.1) := by
  obtain ⟨f, hf, rfl⟩ := List.mem_map.1 h
  obtain rfl | hf := mem_of_mem_set hf
  · exact .inl rfl
  · exact .inr (List.mem_map_of_mem hf)

theorem nodup_set {fields : List (String × α)} (h : (fields.map (·.1)).Nodup) (key : String) (v : α) :
    ((set key v fields).map (·.1)).Nodup := by
  induction fields with
  | nil => exact List.pairwise_singleton _ _
  | cons g rest ih =>
    obtain ⟨k, w⟩ := g
    rw [List.map_cons, List.nodup_cons] at h
    rw [set]
    split
    · rw [List.map_cons, List.nodup_cons]
      exact h
    · rename_i hk
      rw [List.map_cons, List.nodup_cons]
      refine ⟨fun hmem => ?_, ih h.2⟩
      obtain rfl | hmem := mem_keys_set hmem
      · exact hk (beq_self_eq_true _)
      · exact h.1 hmem

theorem nodup_foldl_set (pairs : List (String × α)) {before : List (String × α)} (h : (before.map (·.1)).Nodup) :
    ((pairs.foldl (fun fields f => set f.1 f.2 fields) before).map (·.1)).Nodup := by
  induction pairs generalizing before with
  | nil => exact h
  | cons f rest ih => exact ih (nodup_set h f.1 f.2)

theorem mem_of_mem_foldl_set {pairs before : List (String × α)} {f : String × α}
    (h : f ∈ pairs.foldl (fun fields f => set f.1 f.2 fields) before) : f ∈ before ∨ f ∈ pairs := by
  induction pairs generalizing before with
  | nil => exact .inl h
  | cons g rest ih =>
    obtain h | h := ih h
    · obtain rfl | h := mem_of_mem_set h
      · exact .inr (.head _)
      · exact .inl h
    · exact .inr (.tail _ h)

theorem nodup_ofPairs (pairs : List (String × α)) : ((ofPairs pairs).map (·.1)).Nodup :=
  nodup_foldl_set pairs List.nodup_nil

theorem mem_of_mem_ofPairs {pairs : List (String × α)} {f : String × α} (h : f ∈ ofPairs pairs) : f ∈ pairs :=
  (mem_of_mem_foldl_set h).resolve_left List.not_mem_nil

theorem ofPairs_of_nodup {fields : List (String × α)} (h : (fields.map (·.1)).Nodup) :
    ofPairs fields = fields := by
  rw [← List.nil_append fields] at h
  exact foldl_set_of_nodup h

end ConsentBanner.Fields

namespace ConsentBanner.Json

mutual

/-- No object has a key twice, at any depth of lists and objects. -/
def keysOnce : Json → Bool
  | arr items => itemsKeysOnce items
  | obj fields => decide (fields.map (·.1)).Nodup && fieldsKeysOnce fields
  | keyed _ v => v.keysOnce
  | _ => true

def itemsKeysOnce : List Json → Bool
  | [] => true
  | v :: rest => v.keysOnce && itemsKeysOnce rest

def fieldsKeysOnce : List (String × Json) → Bool
  | [] => true
  | (_, v) :: rest => v.keysOnce && fieldsKeysOnce rest

end

theorem itemsKeysOnce_iff {items : List Json} : itemsKeysOnce items = true ↔ ∀ v ∈ items, v.keysOnce = true := by
  induction items with
  | nil => exact iff_of_true rfl (List.forall_mem_nil _)
  | cons v rest ih => rw [itemsKeysOnce, Bool.and_eq_true, ih, List.forall_mem_cons]

theorem fieldsKeysOnce_iff {fields : List (String × Json)} :
    fieldsKeysOnce fields = true ↔ ∀ f ∈ fields, f.2.keysOnce = true := by
  induction fields with
  | nil => exact iff_of_true rfl (List.forall_mem_nil _)
  | cons f rest ih => rw [fieldsKeysOnce, Bool.and_eq_true, ih, List.forall_mem_cons]

theorem keysOnce_obj_iff {fields : List (String × Json)} :
    (obj fields).keysOnce = true ↔ (fields.map (·.1)).Nodup ∧ ∀ f ∈ fields, f.2.keysOnce = true := by
  rw [keysOnce, Bool.and_eq_true, decide_eq_true_eq, fieldsKeysOnce_iff]

theorem nodup_of_keysOnce {fields : List (String × Json)} (h : (obj fields).keysOnce = true) :
    (fields.map (·.1)).Nodup := (keysOnce_obj_iff.1 h).1

theorem keysOnce_value {fields : List (String × Json)} {key : String} {v : Json} (h : (obj fields).keysOnce = true)
    (hv : Fields.get? key fields = some v) : v.keysOnce = true :=
  (keysOnce_obj_iff.1 h).2 _ (Fields.mem_of_get? hv)

theorem keysOnce_of_mem {items : List Json} (h : (arr items).keysOnce = true) : ∀ v ∈ items, v.keysOnce = true := by
  rwa [keysOnce, itemsKeysOnce_iff] at h

end ConsentBanner.Json
