import ConsentBanner.Json.Writer
import Mathlib.Algebra.GroupWithZero.Nat
import Mathlib.Data.List.Forall2

/-!
How long the written forms of documents are.
-/

namespace ConsentBanner.Json

variable {f : Format}

/-- How many characters a document takes. -/
def size (f : Format) (v : Json) : Nat := (write f v).length

theorem length_render (f : Format) (v : Json) : (v.render f).length = v.size f := by
  rw [render, String.length_ofList, size]

/-- How many characters a field takes, with a separator after it. -/
def fieldSize (f : Format) (e : String × Json) : Nat :=
  (writeString f.ascii (fieldName e.1 e.2)).length + f.keySeparator.toList.length + e.2.size f +
    f.itemSeparator.toList.length

theorem fieldSize_mono (k : String) {v w : Json} (h : v.size f ≤ w.size f) (hname : fieldName k v = fieldName k w) :
    fieldSize f (k, v) ≤ fieldSize f (k, w) := by
  rw [fieldSize, fieldSize, hname]
  dsimp only
  omega

theorem length_writeFields (e : String × Json) (rest : List (String × Json)) :
    (writeFields f (e :: rest)).length + f.itemSeparator.toList.length = ((e :: rest).map (fieldSize f)).sum := by
  obtain ⟨k, v⟩ := e
  induction rest generalizing k v with
  | nil =>
    simp only [writeFields, List.length_append, List.map_cons, List.map_nil, List.sum_cons, List.sum_nil, fieldSize,
      size]
    omega
  | cons e rest ih =>
    obtain ⟨k', v'⟩ := e
    rw [List.map_cons, List.sum_cons, ← ih k' v']
    simp only [writeFields, List.length_append, fieldSize, size]
    omega

theorem size_obj (e : String × Json) (rest : List (String × Json)) :
    (obj (e :: rest)).size f + f.itemSeparator.toList.length = ((e :: rest).map (fieldSize f)).sum + 2 := by
  rw [← length_writeFields, size, write]
  simp only [List.length_cons, List.length_append, List.length_nil]
  omega

theorem size_obj_mono {es es' : List (String × Json)}
    (h : List.SublistForall₂ (fun e e' => fieldSize f e ≤ fieldSize f e') es es') :
    (obj es).size f ≤ (obj es').size f := by
  have hsum : (es.map (fieldSize f)).sum ≤ (es'.map (fieldSize f)).sum := by
    induction h with
    | nil => exact Nat.zero_le _
    | cons he _ ih =>
      rw [List.map_cons, List.map_cons, List.sum_cons, List.sum_cons]
      omega
    | cons_right _ ih =>
      rw [List.map_cons, List.sum_cons]
      omega
  cases es with
  | nil =>
    rw [size, size, write, write, List.length_cons, List.length_cons, List.length_append, List.length_append]
    exact Nat.add_le_add_right (Nat.add_le_add_right (Nat.zero_le _) _) _
  | cons e rest =>
    cases es' with
    | nil => cases h
    | cons e' rest' =>
      have hshort := size_obj (f := f) e rest
      have hlong := size_obj (f := f) e' rest'
      omega

theorem size_item {v : Json} {items : List Json} (h : v ∈ items) : v.size f + 2 ≤ (arr items).size f := by
  have hitems : v.size f ≤ (writeItems f items).length := by
    induction items with
    | nil => cases h
    | cons w rest ih =>
      obtain rfl | h := List.mem_cons.1 h
      · cases rest with
        | nil => exact Nat.le_refl _
        | cons w rest =>
          rw [writeItems, List.length_append, size]
          · omega
          · exact nofun
      · cases rest with
        | nil => cases h
        | cons w' rest =>
          have hrest := ih h
          rw [writeItems, List.length_append, List.length_append]
          · omega
          · exact nofun
  rw [size, size, write] at *
  simp only [List.length_cons, List.length_append, List.length_nil]
  omega

theorem size_singleton (v : Json) : (arr [v]).size f = v.size f + 2 := by
  rw [size, write, writeItems, List.length_cons, List.length_append, size]
  rfl

theorem size_arr_nil_le (items : List Json) : (arr []).size f ≤ (arr items).size f := by
  rw [size, size, write, write, List.length_cons, List.length_cons, List.length_append, List.length_append]
  exact Nat.add_le_add_right (Nat.add_le_add_right (Nat.zero_le _) _) _

end ConsentBanner.Json
