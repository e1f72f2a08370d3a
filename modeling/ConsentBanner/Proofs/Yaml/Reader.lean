import ConsentBanner.Proofs.Json.Fields
import ConsentBanner.Proofs.Outcome
import ConsentBanner.Yaml.Reader

/-!
No mapping of a document that is read has a key twice, whatever the text repeats: a later entry of a key replaces the value
of the earlier one, and entries that are brought in give way to those of the mapping itself.
-/

namespace ConsentBanner

namespace Json

/-- No object has a key twice, at any depth of lists, objects and pairs. -/
inductive Unique : Json → Prop
  | null : Unique null
  | bool (b : Bool) : Unique (bool b)
  | int (n : Int) : Unique (int n)
  | float (x : Double) : Unique (float x)
  | str (s : String) : Unique (str s)
  | arr {items : List Json} (hitems : ∀ v ∈ items, Unique v) : Unique (arr items)
  | obj {fields : List (String × Json)} (hkeys : (fields.map (·.1)).Nodup) (hvalues : ∀ f ∈ fields, Unique f.2) :
    Unique (obj fields)
  | date (d : Date) : Unique (date d)
  | moment (m : Moment) : Unique (moment m)
  | bytes (bs : List Nat) : Unique (bytes bs)
  | pair {first second : Json} (hsecond : Unique second) : Unique (pair first second)
  | set (members : List Json) : Unique (set members)
  | keyed {key v : Json} (hv : Unique v) : Unique (keyed key v)

theorem keysOnce_of_unique {v : Json} (h : v.Unique) : v.keysOnce = true := by
  induction h with
  | arr hitems ih => rwa [keysOnce, itemsKeysOnce_iff]
  | obj hkeys hvalues ih => exact keysOnce_obj_iff.2 ⟨hkeys, ih⟩
  | keyed hv ih => rwa [keysOnce]
  | _ => rfl

theorem unique_emptyArr : (arr []).Unique := .arr (List.forall_mem_nil _)

theorem unique_emptyObj : (obj []).Unique := .obj List.nodup_nil (List.forall_mem_nil _)

theorem unique_bare {v : Json} (h : v.Unique) : v.bare.Unique := by
  cases h with
  | keyed hv => exact hv
  | _ => constructor <;> assumption

theorem unique_field {v : Json} (h : v.Unique) (key : Json) : (field key v).2.Unique := by
  cases key with
  | str s => exact h
  | _ => exact .keyed h

theorem unique_singleton {key v : Json} (h : v.Unique) : (obj [field key v]).Unique :=
  .obj (List.pairwise_singleton _ _) (List.forall_mem_singleton.2 (unique_field h key))

/-- An entry is added to an object without another field of its key. -/
theorem unique_addEntry {fields : List (String × Json)} {key v : Json} (h : (obj fields).Unique) (hv : v.Unique) :
    (obj (addEntry fields (key, v))).Unique := by
  have hset (name : String) (w : Json) (hw : w.Unique) : (obj (Fields.set name w fields)).Unique := by
    cases h with
    | obj hkeys hvalues =>
      refine .obj (Fields.nodup_set hkeys name w) fun f hf => ?_
      obtain rfl | hf := Fields.mem_of_mem_set hf
      · exact hw
      · exact hvalues f hf
  have hfield := unique_field hv key
  unfold addEntry
  dsimp only
  split
  · exact hset _ _ (.keyed (unique_bare hfield))
  · exact hset _ _ hfield

theorem unique_fieldsOf {entries : List (Json × Json)} (h : ∀ e ∈ entries, e.2.Unique) : (obj (fieldsOf entries)).Unique := by
  suffices hfold : ∀ before, (obj before).Unique → (obj (entries.foldl addEntry before)).Unique from
    hfold [] unique_emptyObj
  induction entries with
  | nil => exact fun _ hbefore => hbefore
  | cons e rest ih =>
    intro before hbefore
    rw [List.forall_mem_cons] at h
    exact ih h.2 _ (unique_addEntry hbefore h.1)

end Json

namespace Yaml

open ReadingM

/-- The values of the anchors have no key twice. -/
def Reading.Unique (r : Reading) : Prop := ∀ a ∈ r.anchors, a.2.Unique

namespace ReadingM

variable {α β : Type}

/-- Where no known value has a key twice, a step ends so as well, and what it gives has a property. -/
def Upholds (P : α → Prop) (step : ReadingM α) : Prop :=
  ∀ r a r', r.Unique → step r = some (a, r') → P a ∧ r'.Unique

variable {P : α → Prop} {Q : β → Prop}

theorem Upholds.pure {a : α} (h : P a) : Upholds P (pure a) := by
  intro r a' r' hr hrun
  cases hrun
  exact ⟨h, hr⟩

theorem Upholds.bind {step : ReadingM α} {next : α → ReadingM β} (hstep : Upholds P step)
    (hnext : ∀ a, P a → Upholds Q (next a)) : Upholds Q (step >>= next) := by
  intro r b r' hr hrun
  obtain ⟨⟨a, r₁⟩, hfirst, hrest⟩ := Option.bind_eq_some_iff.1 hrun
  obtain ⟨ha, hr₁⟩ := hstep r a r₁ hr hfirst
  exact hnext a ha r₁ b r' hr₁ hrest

theorem upholds_get : Upholds Reading.Unique get := by
  intro r a r' hr hrun
  cases hrun
  exact ⟨hr, hr⟩

theorem upholds_failure : Upholds P failure := by
  intro r a r' hr hrun
  cases hrun

theorem upholds_set {r : Reading} (h : r.Unique) : Upholds (fun _ => True) (set r) := by
  intro _ a r' _ hrun
  cases hrun
  exact ⟨trivial, h⟩

theorem upholds_modify {change : Reading → Reading} (h : ∀ r : Reading, r.Unique → (change r).Unique) :
    Upholds (fun _ => True) (modify change) := by
  intro r a r' hr hrun
  cases hrun
  exact ⟨trivial, h r hr⟩

theorem upholds_define {v : Json} (h : v.Unique) (anchor : Option String) : Upholds (fun _ => True) (define anchor v) := by
  cases anchor with
  | none => exact .pure trivial
  | some name =>
    refine upholds_get.bind fun r hr => ?_
    have hset := upholds_set (r := { r with anchors := (name, v) :: r.anchors }) (List.forall_mem_cons.2 ⟨h, hr⟩)
    dsimp only
    split
    · exact (upholds_failure (P := fun _ => True)).bind fun _ _ => hset
    · exact hset

theorem upholds_resolve {v : Json} (h : v.Unique) (anchor : Option String) : Upholds Json.Unique (resolve anchor v) := by
  cases anchor with
  | none => exact .pure h
  | some name =>
    refine (upholds_modify fun r hr a ha => ?_).bind fun _ _ => .pure h
    obtain rfl | ha := Fields.mem_of_mem_set ha
    · exact h
    · exact hr a ha

theorem upholds_follow (name : String) : Upholds Json.Unique (follow name) := by
  refine upholds_get.bind fun r hr => ?_
  split
  · rename_i v hv
    exact .pure (hr _ (Fields.mem_of_get? hv))
  · exact upholds_failure

theorem upholds_note {outcome : Except Fault Json} (h : ∀ v, outcome = .ok v → v.Unique) (depth : Nat) :
    Upholds Json.Unique (note depth outcome) := by
  cases outcome with
  | ok v => exact .pure (h v rfl)
  | error f =>
    have hmodify : Upholds (fun _ => True) (modify fun r => { r with faults := r.faults ++ [(depth, f)] }) :=
      upholds_modify fun _ hr => hr
    exact hmodify.bind fun _ _ => .pure Json.Unique.null

theorem upholds_reject (depth : Nat) : Upholds Json.Unique (reject depth) := by
  refine upholds_note ?_ depth
  rintro v ⟨⟩

theorem upholds_pass {step : ReadingM α} (h : Upholds P step) : Upholds (fun _ => True) (pass step) :=
  upholds_get.bind fun _ _ => h.bind fun _ _ => upholds_modify fun _ hr => hr

end ReadingM

theorem unique_instant {text : String} {v : Json} (h : instant text = .ok v) : v.Unique := by
  unfold instant at h
  split at h
  · cases h
  · rename_i t _
    cases hv : t.json? with
    | none =>
      rw [hv] at h
      cases h
    | some w =>
      rw [hv] at h
      cases h
      obtain ⟨date, -, hrest⟩ := Option.bind_eq_some_iff.1 hv
      split at hrest
      · cases hrest
        exact .date _
      · obtain ⟨time, -, hrest⟩ := Option.bind_eq_some_iff.1 hrest
        split at hrest
        · cases hrest
        · cases hrest
          exact .moment _

theorem Kind.unique_scalar {kind : Kind} {text : String} {v : Json} (h : kind.scalar text = .ok v) : v.Unique := by
  unfold Kind.scalar at h
  split at h
  · cases h
    exact .null
  · obtain ⟨b, -, rfl⟩ := map_eq_ok.1 h
    exact .bool b
  · obtain ⟨n, -, rfl⟩ := map_eq_ok.1 h
    exact .int n
  · obtain ⟨x, -, rfl⟩ := map_eq_ok.1 h
    exact .float x
  · cases h
    exact .str _
  · cases hbytes : Text.Base64.decode? text.toList with
    | none =>
      rw [hbytes] at h
      cases h
    | some bs =>
      rw [hbytes] at h
      cases h
      exact .bytes bs
  · exact unique_instant h
  · cases h

theorem unique_scalarOutcome {kind : Option Kind} {text : String} {v : Json}
    (h : (kind.map (Kind.scalar text)).getD (.error .unreadable) = .ok v) : v.Unique := by
  cases kind with
  | none => cases h
  | some kind => exact kind.unique_scalar h

theorem Kind.unique_ofMapping {kind : Kind} {parts : List Node} {v : Json} (h : kind.ofMapping parts = .ok v) :
    v.Unique := by
  unfold Kind.ofMapping at h
  split at h
  · cases h
  · split at h
    · cases h
    · exact kind.unique_scalar h

/-- What holds before the items of a list are gone through, and is kept at each of them, holds at the end. -/
theorem foldlM_keeps {α β : Type} {P : β → Prop} {step : β → α → Option β} {items : List α} {b b' : β}
    (hstep : ∀ a ∈ items, ∀ b b', P b → step b a = some b' → P b') (hb : P b) (h : items.foldlM step b = some b') :
    P b' := by
  induction items generalizing b with
  | nil =>
    cases h
    exact hb
  | cons a rest ih =>
    rw [List.foldlM_cons] at h
    obtain ⟨c, hc, hrest⟩ := Option.bind_eq_some_iff.1 h
    rw [List.forall_mem_cons] at hstep
    exact ih hstep.2 (hstep.1 b c hb hc) hrest

theorem unique_fieldEntries {fields : List (String × Json)} (h : (Json.obj fields).Unique) :
    ∀ e ∈ fields.map fun field => (Json.keyOf field, field.2.bare), e.2.Unique := by
  cases h with
  | obj hkeys hvalues =>
    rw [List.forall_mem_map]
    exact fun f hf => Json.unique_bare (hvalues f hf)

theorem unique_memberEntries (members : List Json) : ∀ e ∈ members.map (·, Json.null), e.2.Unique := by
  rw [List.forall_mem_map]
  exact fun _ _ => .null

theorem unique_mappingOutcome {kind : Option Kind} {parts : List Node} {v : Json}
    (h : (kind.map (Kind.ofMapping parts)).getD (.error .unreadable) = .ok v) : v.Unique := by
  cases kind with
  | none => cases h
  | some kind => exact kind.unique_ofMapping h

/-- The values that are brought in have no key twice if the value that they are taken from has none. -/
theorem unique_broughtIn? {v : Json} {entries : List (Json × Json)} (hv : v.Unique) (h : broughtIn? v = some entries) :
    ∀ e ∈ entries, e.2.Unique := by
  unfold broughtIn? at h
  split at h
  · cases h
    exact unique_fieldEntries hv
  · cases h
    exact unique_memberEntries _
  · rename_i items
    cases hv with
    | arr hitems =>
      refine foldlM_keeps (P := fun entries => ∀ e ∈ entries, e.2.Unique) ?_ (List.forall_mem_nil _) h
      intro item hitem before after hbefore hafter
      have hunique := hitems item (List.mem_reverse.1 hitem)
      split at hafter
      · cases hafter
        exact List.forall_mem_append.2 ⟨hbefore, unique_fieldEntries hunique⟩
      · cases hafter
        exact List.forall_mem_append.2 ⟨hbefore, unique_memberEntries _⟩
      · cases hafter
        cases hunique with
        | pair hsecond => exact List.forall_mem_append.2 ⟨hbefore, List.forall_mem_singleton.2 hsecond⟩
      · cases hafter
  · cases h

/-- The values of entries, whether brought in or not, have no key twice. -/
def Entries.Unique (e : Entries) : Prop := (∀ f ∈ e.others, f.2.Unique) ∧ ∀ f ∈ e.own, f.2.Unique

theorem Entries.Unique.fields {e : Entries} (h : e.Unique) : (Json.obj e.fields).Unique :=
  Json.unique_fieldsOf (List.forall_mem_append.2 h)

/-- A key and its value before the other entries of a mapping. -/
theorem upholds_ownEntry {value : ReadingM Json} {rest : ReadingM Entries} (hvalue : Upholds Json.Unique value)
    (hrest : Upholds Entries.Unique rest) (depth : Nat) (k : Json) :
    Upholds Entries.Unique (do
      if !k.isScalar then
        let _ ← reject depth
      let v ← value
      let entries ← rest
      return { entries with own := (k, v) :: entries.own }) := by
  have hentries : Upholds Entries.Unique (do
      let v ← value
      let entries ← rest
      return { entries with own := (k, v) :: entries.own }) := by
    refine hvalue.bind fun v hv => hrest.bind fun entries hentries => ?_
    exact .pure ⟨hentries.1, List.forall_mem_cons.2 ⟨hv, hentries.2⟩⟩
  dsimp only
  split
  · exact (upholds_reject depth).bind fun _ _ => hentries
  · exact hentries

/-- A value whose entries are brought in, before the other entries of a mapping. -/
theorem upholds_otherEntries {rest : ReadingM Entries} (hrest : Upholds Entries.Unique rest) (depth : Nat) {v : Json}
    (hv : v.Unique) :
    Upholds Entries.Unique (do
      let more ←
        match broughtIn? v with
        | some more => pure more
        | none => do
          let _ ← reject depth
          pure []
      let entries ← rest
      return { entries with others := more ++ entries.others }) := by
  have hentries {more : List (Json × Json)} (hmore : ∀ e ∈ more, e.2.Unique) : Upholds Entries.Unique (do
      let entries ← rest
      return { entries with others := more ++ entries.others }) :=
    hrest.bind fun entries hentries => .pure ⟨List.forall_mem_append.2 ⟨hmore, hentries.1⟩, hentries.2⟩
  dsimp only
  split
  · rename_i more hmore
    exact hentries (unique_broughtIn? hv hmore)
  · exact (upholds_reject depth).bind fun _ _ => hentries (List.forall_mem_nil _)

/-- An item of a list of pairs, before the other items. -/
theorem upholds_pairItem {rest : ReadingM (List Json)} (hrest : Upholds (fun items => ∀ v ∈ items, v.Unique) rest)
    (depth : Nat) {v : Json} (hv : v.Unique) :
    Upholds (fun items => ∀ v ∈ items, v.Unique) (do
      let v ←
        match v with
        | .obj [(name, v)] => pure (Json.pair (Json.keyOf (name, v)) v.bare)
        | _ => reject depth
      return v :: (← rest)) := by
  have hitems {v : Json} (hv : v.Unique) : Upholds (fun items => ∀ v ∈ items, v.Unique) (do return v :: (← rest)) :=
    hrest.bind fun items hitems => .pure (List.forall_mem_cons.2 ⟨hv, hitems⟩)
  dsimp only
  split
  · cases hv with
    | obj hkeys hvalues => exact hitems (.pair (Json.unique_bare (hvalues _ List.mem_cons_self)))
  · exact (upholds_reject depth).bind fun v hv => hitems hv

theorem upholds_reading :
    (∀ depth node, Upholds Json.Unique (ofNode depth node)) ∧
      (∀ depth parts, Upholds Entries.Unique (ofParts depth parts)) ∧
      (∀ depth nodes, Upholds (fun items => ∀ v ∈ items, v.Unique) (ofPairItems depth nodes)) ∧
      ∀ depth nodes, Upholds (fun items => ∀ v ∈ items, v.Unique) (ofItems depth nodes) := by
  -- Nodes, the keys and values of a mapping, pairs and items are read by one recursion.
  apply ofNode.mutual_induct
  case case1 =>
    intro depth name
    rw [ofNode]
    exact upholds_follow name
  case case2 =>
    intro depth anchor tag text parts
    rw [ofNode]
    refine (upholds_define .null anchor).bind fun _ _ => ?_
    exact (upholds_note (fun _ => unique_scalarOutcome) depth).bind fun v hv => upholds_resolve hv anchor
  case case3 =>
    intro depth anchor tag text parts
    rw [ofNode]
    refine (upholds_define .null anchor).bind fun _ _ => ?_
    exact (upholds_note (fun _ => unique_scalarOutcome) depth).bind fun v hv => upholds_resolve hv anchor
  case case4 =>
    intro depth anchor tag parts hitems hpairs hpassed
    rw [ofNode]
    refine (upholds_define Json.unique_emptyArr anchor).bind fun _ _ => ?_
    split
    · exact hitems.bind fun items hunique => upholds_resolve (.arr hunique) anchor
    · exact hpairs.bind fun items hunique => upholds_resolve (.arr hunique) anchor
    · exact (upholds_pass hpassed).bind fun _ _ => upholds_reject (depth + 1)
    · exact (upholds_pass hpassed).bind fun _ _ => upholds_reject (depth + 1)
    · exact (upholds_pass hpassed).bind fun _ _ => upholds_reject depth
  case case5 =>
    intro depth anchor tag parts hentries hpassed
    rw [ofNode]
    refine (upholds_define Json.unique_emptyObj anchor).bind fun _ _ => ?_
    split
    · exact hentries.bind fun e he => upholds_resolve he.fields anchor
    · exact hentries.bind fun e he => upholds_resolve (.set _) anchor
    · exact (upholds_pass hpassed).bind fun _ _ => upholds_reject (depth + 1)
    · exact (upholds_pass hpassed).bind fun _ _ => upholds_reject (depth + 1)
    · refine (upholds_pass hpassed).bind fun _ _ => ?_
      exact (upholds_note (fun _ => unique_mappingOutcome) depth).bind fun v hv => upholds_resolve hv anchor
  case case6 =>
    intro depth k v rest hmerge hvalue hrest
    rw [ofParts, if_pos hmerge]
    exact hvalue.bind fun v hv => upholds_otherEntries hrest depth hv
  case case7 =>
    intro depth k v rest hmerge hkind hvalue hrest
    rw [ofParts, if_neg hmerge, if_pos hkind]
    exact upholds_ownEntry hvalue hrest depth (.str "=")
  case case8 =>
    intro depth k v rest hmerge hkind hvalue hrest hkey
    rw [ofParts, if_neg hmerge, if_neg hkind]
    exact hkey.bind fun k _ => upholds_ownEntry hvalue hrest depth k
  case case9 =>
    intro parts depth hparts
    rw [ofParts]
    · exact .pure ⟨List.forall_mem_nil _, List.forall_mem_nil _⟩
    · exact hparts
  case case10 =>
    intro depth
    rw [ofPairItems]
    exact .pure (List.forall_mem_nil _)
  case case11 =>
    intro depth anchor tag k v rest hkey hvalue hrest
    rw [ofPairItems]
    refine (upholds_define Json.unique_emptyObj anchor).bind fun _ _ => ?_
    refine hkey.bind fun k _ => hvalue.bind fun v hv => ?_
    refine (upholds_resolve (Json.unique_singleton hv) anchor).bind fun _ _ => ?_
    exact hrest.bind fun items hitems => .pure (List.forall_mem_cons.2 ⟨.pair hv, hitems⟩)
  case case12 =>
    intro depth node rest hnode hvalue hrest
    rw [ofPairItems]
    · exact hvalue.bind fun v hv => upholds_pairItem hrest depth hv
    · exact hnode
  case case13 =>
    intro depth
    rw [ofItems]
    exact .pure (List.forall_mem_nil _)
  case case14 =>
    intro depth node rest hvalue hrest
    rw [ofItems]
    exact hvalue.bind fun v hv => hrest.bind fun items hitems => .pure (List.forall_mem_cons.2 ⟨hv, hitems⟩)

/-- A document that is read has no key twice in any of its mappings. -/
theorem unique_parse {text : String} {v : Json} (h : parse text = .ok v) : v.Unique := by
  unfold parse at h
  split at h
  · cases h
  · cases h
    exact .null
  · rename_i node _
    split at h
    · cases h
    · rename_i v r hrun
      split at h
      · cases h
        exact (upholds_reading.1 0 node {} v r (List.forall_mem_nil _) hrun).1
      · cases h

/-- A key that is repeated has its later value. -/
example : (parse "a: 1\nb: 2\na: 3").toOption.any (Json.same (.obj [("a", .int 3), ("b", .int 2)])) = true := by
  decide +kernel

end Yaml

end ConsentBanner
