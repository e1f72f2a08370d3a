import ConsentBanner.Proofs.Json.Fields

/-!
Ways into documents, and documents that differ from others at the end of some ways only.
-/

namespace ConsentBanner

namespace Fields

variable {α β : Type} {fields : List (String × α)}

theorem get?_mapValues (f : String → α → β) (key : String) (fields : List (String × α)) :
    get? key (fields.map fun x => (x.1, f x.1 x.2)) = (get? key fields).map (f key) := by
  induction fields with
  | nil => rfl
  | cons x rest ih =>
    obtain ⟨k, v⟩ := x
    rw [List.map_cons]
    by_cases hk : k = key
    · subst hk
      rw [get?_cons_self, get?_cons_self, Option.map_some]
    · rw [get?_cons_of_ne hk, get?_cons_of_ne hk, ih]

theorem keys_mapValues (f : String → α → β) (fields : List (String × α)) :
    (fields.map fun x => (x.1, f x.1 x.2)).map (·.1) = fields.map (·.1) := by
  rw [List.map_map]
  rfl

theorem keys_set_of_get? {key : String} {v : α} (h : get? key fields = some v) (w : α) :
    (set key w fields).map (·.1) = fields.map (·.1) := by
  induction fields with
  | nil => cases h
  | cons x rest ih =>
    obtain ⟨k, u⟩ := x
    rw [get?] at h
    rw [set]
    split at h
    · rename_i hk
      rw [if_pos hk, List.map_cons, List.map_cons]
    · rename_i hk
      rw [if_neg hk, List.map_cons, List.map_cons, ih h]

end Fields

namespace Json

/-- A step into a document, to the value under a key or at a place of a list. -/
inductive Step where
  | key (name : String)
  | place (i : Nat)
deriving DecidableEq, Repr

def child? (v : Json) : Step → Option Json
  | .key name => v.get? name
  | .place i =>
    match v with
    | arr items => items[i]?
    | _ => none

/-- The value to which a way leads. -/
def at? : Json → List Step → Option Json
  | v, [] => some v
  | v, s :: path => (v.child? s).bind fun inner => inner.at? path

/-- A value without what is inside it: of an object its keys, of a list its length. -/
def outline : Json → Json
  | obj fields => obj (fields.map fun f => (f.1, null))
  | arr items => arr (items.map fun _ => null)
  | v => v

open Classical in
/-- A document is another one after a rule was applied to the values at the given ways: to whatever value a way leads
in one of them, it leads to the same value, or to what the rule makes of it, in the other. -/
def EditedAt (ways : List Step → Prop) (rule : Json → Json) (v v' : Json) : Prop :=
  ∀ path, (v'.at? path).map outline = (v.at? path).map fun w => outline (if ways path then rule w else w)

section

variable {ways ways' : List Step → Prop} {rule : Json → Json}

theorem EditedAt.congr {v v' : Json} (h : EditedAt ways rule v v') (hways : ∀ path, ways' path ↔ ways path) :
    EditedAt ways' rule v v' := by
  have he : ways' = ways := funext fun path => propext (hways path)
  rw [he]
  exact h

theorem editedAt_self {v : Json} (h : ∀ path w, ways path → v.at? path = some w → outline (rule w) = outline w) :
    EditedAt ways rule v v := by
  intro path
  cases hw : v.at? path with
  | none => rfl
  | some w =>
    rw [Option.map_some, Option.map_some]
    split
    · rename_i hpath
      rw [h path w hpath hw]
    · rfl

/-- The rule was applied to the document itself, and what is inside it was left alone. -/
theorem editedAt_root {v : Json} (hways : ∀ path, ways path ↔ path = [])
    (h : ∀ s, (rule v).child? s = v.child? s) : EditedAt ways rule v (rule v) := by
  intro path
  cases path with
  | nil =>
    simp only [if_pos ((hways []).2 rfl)]
    rfl
  | cons s path =>
    have hpath : ¬ ways (s :: path) := by
      rw [hways]
      exact List.cons_ne_nil s path
    simp only [if_neg hpath]
    rw [at?, at?, h s]

theorem EditedAt.rule_str {v : Json} (h : EditedAt ways rule v v)
    {path : List Step} (hpath : ways path) {s : String} (hs : v.at? path = some (.str s)) : rule (.str s) = .str s := by
  have heq := h path
  rw [hs, Option.map_some, Option.map_some, if_pos hpath, Option.some.injEq] at heq
  cases hrule : rule (.str s) with
  | str s' =>
    rw [hrule] at heq
    exact heq.symm
  | _ =>
    rw [hrule] at heq
    cases heq

theorem editedAt_obj {fields fields' : List (String × Json)} {edit : String → Json → Json}
    (hkeys : fields'.map (·.1) = fields.map (·.1))
    (hget : ∀ key, Fields.get? key fields' = (Fields.get? key fields).map (edit key))
    (hroot : ways [] → outline (rule (obj fields)) = outline (obj fields))
    (h : ∀ key v, Fields.get? key fields = some v →
      EditedAt (fun path => ways (.key key :: path)) rule v (edit key v)) :
    EditedAt ways rule (obj fields) (obj fields') := by
  have houtline : outline (obj fields') = outline (obj fields) := by
    have hmap (fs : List (String × Json)) : fs.map (fun f => (f.1, null)) = (fs.map (·.1)).map (·, null) := by
      rw [List.map_map]
      rfl
    rw [outline, outline, hmap, hmap, hkeys]
  intro path
  cases path with
  | nil =>
    rw [at?, at?, Option.map_some, Option.map_some, houtline]
    split
    · rename_i hpath
      rw [hroot hpath]
    · rfl
  | cons s path =>
    cases s with
    | key name =>
      rw [at?, at?, child?, child?, get?, get?, hget]
      cases hv : Fields.get? name fields with
      | none => rfl
      | some v => exact h name v hv path
    | place i => rfl

theorem editedAt_arr {items : List Json} {edit : Json → Json} (hroot : ¬ ways [])
    (h : ∀ i v, items[i]? = some v → EditedAt (fun path => ways (.place i :: path)) rule v (edit v)) :
    EditedAt ways rule (arr items) (arr (items.map edit)) := by
  intro path
  cases path with
  | nil =>
    rw [at?, at?, Option.map_some, Option.map_some, if_neg hroot, outline, outline, List.map_map]
    rfl
  | cons s path =>
    cases s with
    | key name => rfl
    | place i =>
      rw [at?, at?, child?, child?, List.getElem?_map]
      cases hv : items[i]? with
      | none => rfl
      | some v => exact h i v hv path

end

end Json

end ConsentBanner
