import ConsentBanner.Proofs.Template.Written

/-!
Forests that are written one component at a time: what comes out is the recursive writing of each tree, and each tree is
read back from it.
-/

namespace ConsentBanner

open Checked Reader Json Validation

theorem nullable_optional (s : Option String) : nullable string (optional s) = .valid s := by
  cases s with
  | none => rfl
  | some s => rfl

theorem Action.read_rawJson (a : Action) : read (.obj a.json) = .valid a := by
  have hkind : Reader.field a.json ["type"] .none (member ActionKind) = .valid a.kind :=
    field_of_get? rfl (member_name a.kind)
  have hcategory : Reader.field a.json ["category"] none (nullable string) = .valid a.category :=
    field_of_get? rfl (nullable_optional a.category)
  have hurl : Reader.field a.json ["url"] none (nullable string) = .valid a.url :=
    field_of_get? rfl (nullable_optional a.url)
  rw [read, model, readFields, hkind, hcategory, hurl]
  · rfl
  · rintro ⟨⟩
  · rintro _ ⟨⟩

namespace Component

section Change

variable {f g : List Json → List Json}

theorem changeChildren_congr {v : Json} (h : f (childrenOf v) = g (childrenOf v)) :
    changeChildren f v = changeChildren g v := by
  cases v with
  | obj fields =>
    rw [changeChildren, changeChildren]
    rw [childrenOf, Json.get?] at h
    split
    · rename_i items hitems
      rw [hitems] at h
      rw [h]
    · rfl
  | _ => rfl

theorem changeChildren_changeChildren (v : Json) :
    changeChildren g (changeChildren f v) = changeChildren (g ∘ f) v := by
  cases v with
  | obj fields =>
    rw [changeChildren, changeChildren]
    split
    · rename_i items hitems
      rw [changeChildren, Fields.get?_set_self]
      dsimp only
      rw [Fields.set_set]
      rfl
    · rename_i hnone
      rw [changeChildren]
      split
      · rename_i items hitems
        exact absurd hitems (hnone items)
      · rfl
  | _ => rfl

theorem changeAt_append (path : List Nat) (place : Nat) (items : List Json) :
    changeAt f (path ++ [place]) items = changeAt (·.modify place (changeChildren f)) path items := by
  induction path generalizing items with
  | nil => rfl
  | cons p path ih =>
    rw [List.cons_append, changeAt, changeAt]
    congr 2
    funext inner
    exact ih inner

theorem changeAt_changeAt (path : List Nat) (items : List Json) :
    changeAt g path (changeAt f path items) = changeAt (g ∘ f) path items := by
  induction path generalizing items with
  | nil => rfl
  | cons p path ih =>
    rw [changeAt, changeAt, changeAt, List.modify_modify_eq]
    congr 1
    funext v
    rw [Function.comp_apply, changeChildren_changeChildren]
    congr 1
    funext inner
    exact ih inner

/-- A change at a path depends on what it makes of the list there alone. -/
theorem changeAt_congr {path : List Nat} {items : List Json} (h : f (listAt path items) = g (listAt path items)) :
    changeAt f path items = changeAt g path items := by
  induction path generalizing items with
  | nil => exact h
  | cons p path ih =>
    rw [changeAt, changeAt, List.modify_eq_set_getElem?, List.modify_eq_set_getElem?]
    cases hv : items[p]? with
    | none => rfl
    | some v =>
      rw [listAt, hv] at h
      have hchange : changeChildren (changeAt f path) v = changeChildren (changeAt g path) v :=
        changeChildren_congr (ih h)
      rw [Option.map_eq_map, Option.map_eq_map, Option.map_some, Option.map_some, hchange]

theorem changeChildren_id (v : Json) : changeChildren id v = v := by
  cases v with
  | obj fields =>
    rw [changeChildren]
    split
    · rename_i items hitems
      rw [id, Fields.set_of_get? hitems]
    · rfl
  | _ => rfl

theorem changeAt_id (path : List Nat) (items : List Json) : changeAt id path items = items := by
  induction path generalizing items with
  | nil => rfl
  | cons p path ih =>
    have hid : changeChildren (changeAt id path) = id := by
      rw [show changeAt id path = id from funext ih]
      exact funext changeChildren_id
    rw [changeAt, hid, List.modify_id]

end Change

theorem changeChildren_rawJson (change : List Json → List Json) (d : ComponentData) (items : List Json) :
    changeChildren change (rawJson d items) = rawJson d (change items) := rfl

theorem jsonItems_eq_map (cs : List Component) : jsonItems cs = cs.map json := by
  induction cs with
  | nil => rfl
  | cons c cs ih => rw [jsonItems, ih, List.map_cons]

mutual

theorem walk_emit_node : (c : Component) → {path : List Nat} → {written : List Json} →
    (stack : List (Component × List Nat)) →
    walk emit ((c, path) :: stack) written = walk emit stack (changeAt (· ++ [c.json]) path written)
  | .node data children, path, written, stack => by
    rw [walk]
    change walk emit (push (path ++ [(listAt path written).length]) children stack)
      (changeAt (· ++ [rawJson data []]) path written) = _
    rw [walk_emit_push children, changeAt_append, changeAt_changeAt, json]
    congr 1
    apply changeAt_congr
    rw [Function.comp_apply, modify_length, changeChildren_rawJson, List.nil_append]

/-- Components on top of the stack are written one after the other at their path, each with all that is inside it. -/
theorem walk_emit_push : (cs : List Component) → {path : List Nat} → {written : List Json} →
    (stack : List (Component × List Nat)) →
    walk emit (push path cs stack) written = walk emit stack (changeAt (· ++ jsonItems cs) path written)
  | [], path, written, stack => by
    have hsame : changeAt (· ++ jsonItems []) path written = changeAt id path written :=
      changeAt_congr (List.append_nil _)
    rw [hsame, changeAt_id]
    rfl
  | c :: cs, path, written, stack => by
    rw [push, List.foldr_cons, ← push, walk_emit_node c, walk_emit_push cs, changeAt_changeAt]
    congr 1
    apply changeAt_congr
    rw [Function.comp_apply, List.append_assoc, jsonItems]
    rfl

end

theorem jsonAll_eq_map (cs : List Component) : jsonAll cs = cs.map json := by
  rw [jsonAll, walk_emit_push cs [], walk, changeAt, List.nil_append, jsonItems_eq_map]

/-- The content of a component stands among its fields as a text, or as texts by language. -/
def HoldsContent (fields : List (String × Json)) (d : ComponentData) : Prop :=
  Fields.get? "content" fields = some (match d.content with
    | .plain text => .str text
    | .localized texts => .obj [("texts", .obj (texts.map fun (language, text) => (language, .str text)))])

mutual

theorem mirrors_json : (c : Component) → Mirrors HoldsContent c.json c
  | .node data children => by
    have hcontent : HoldsContent (dataFields data ++ [("content", data.content.json),
        ("children", .arr (jsonItems children))]) data := by
      rw [HoldsContent]
      cases data.content with
      | plain text => rfl
      | localized texts => rfl
    rw [json, rawJson]
    exact .node hcontent (mirrors_jsonItems children)

theorem mirrors_jsonItems : (cs : List Component) → List.Forall₂ (Mirrors HoldsContent) (jsonItems cs) cs
  | [] => .nil
  | c :: cs => .cons (mirrors_json c) (mirrors_jsonItems cs)

end

/-- What a component holds apart from its children is read back. -/
theorem read_rawJson {d : ComponentData} {items : List Json} {children : List Component}
    (hcontent : d.content.KeysOnce) (hchildren : readAll 0 items = .valid children) :
    read (rawJson d items) = .valid (node d.portable.trimmed children) := by
  let fields := dataFields d ++ [("content", d.content.json), ("children", .arr items)]
  have hid : requiredField fields "id" string = .valid d.id := rfl
  have hkind : requiredField fields "type" (member ComponentKind) = .valid d.kind :=
    under_eq_valid.2 (member_name d.kind)
  have hcontent : Reader.field fields ["content"] (.plain "") Content.read = .valid d.content :=
    field_of_get? rfl (Content.read_json hcontent)
  have hstyle : Reader.field fields ["style"] [] readStyle = .valid d.style.portable :=
    field_of_get? rfl (readStyle_deviceFields d.style)
  have hposition : Reader.field fields ["position"] [] readPosition = .valid d.position.placing :=
    field_of_get? rfl (readPosition_deviceFields d.position)
  have haction : Reader.field fields ["action"] {} Action.read = .valid d.action :=
    field_of_get? rfl d.action.read_rawJson
  have hchildren : readChildrenOf fields = .valid children := readChildrenOf_of_get? rfl hchildren
  have hconfig : Reader.field fields ["containerConfig", "container_config"] [] readContainerConfig =
      .valid d.containerConfig.portable := field_of_get? rfl (readContainerConfig_deviceFields d.containerConfig)
  have halt : Reader.field fields ["alt"] none (nullable string) = .valid d.alt :=
    field_of_get? rfl (nullable_optional d.alt)
  have hlocked : Reader.field fields ["locked"] false bool = .valid d.locked := field_of_get? rfl rfl
  rw [rawJson, read, hid, hkind, hcontent, hstyle, hposition, haction, hchildren, hconfig, halt, hlocked]
  rfl

mutual

theorem read_json : (c : Component) → (∀ d ∈ c.everyData, d.content.KeysOnce) → read c.json = .valid c.portable.trimmed
  | .node data children, h => by
    rw [everyData, List.forall_mem_cons] at h
    rw [json, portable, trimmed]
    exact read_rawJson h.1 (readAll_jsonItems children h.2)

theorem readAll_jsonItems : (cs : List Component) → {place : Nat} → (∀ d ∈ everyDataIn cs, d.content.KeysOnce) →
    readAll place (jsonItems cs) = .valid (trimmedAll (portableAll cs))
  | [], place, _ => by
    rw [jsonItems, readAll, portableAll, trimmedAll]
  | c :: cs, place, h => by
    rw [everyDataIn, List.forall_mem_append] at h
    rw [jsonItems, readAll, read_json c h.1, readAll_jsonItems cs h.2, portableAll, trimmedAll]
    rfl

end

theorem mem_everyDataIn {cs : List Component} {c : Component} (hc : c ∈ cs) {d : ComponentData}
    (hd : d ∈ c.everyData) : d ∈ everyDataIn cs := by
  induction cs with
  | nil => cases hc
  | cons c' cs ih =>
    rw [everyDataIn, List.mem_append]
    rw [List.mem_cons] at hc
    obtain rfl | hc := hc
    · exact .inl hd
    · exact .inr (ih hc)

/-- A box with a hidden button in it, whose position has no offset on the desktop. -/
def boxedDocument : Json := .arr [.obj [
  ("id", .str "box"), ("type", .str "container"),
  ("position", .obj [("desktop", .obj [("zIndex", .int 2)]), ("mobile", .obj [("top", .int 5)])]),
  ("children", .arr [.obj [
    ("id", .str "accept"), ("type", .str "button"), ("action", .str "accept_all"),
    ("style", .obj [("desktop", .obj [("opacity", .float (.infinite false))])]),
    ("content", .obj [("texts", .obj [("en", .str "Accept"), ("fr", .null)])])]])]]

/-- The button of the box, with an opacity on the desktop. -/
def hiddenButton (opacity : Json) : ComponentData where
  id := "accept"
  kind := .button
  content := .localized [("en", "Accept")]
  action := { kind := .acceptAll }
  style := [(.desktop, [("opacity", opacity)])]

def box (position : PerDevice (List (Side × String))) (opacity : Json) : Component :=
  .node { id := "box", kind := .container, position := position } [.node (hiddenButton opacity) []]

def boxed : List Component := [box [(.desktop, []), (.mobile, [(.top, "5%")])] (.float (.infinite false))]

end Component

end ConsentBanner
