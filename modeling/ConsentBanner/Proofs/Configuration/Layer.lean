import ConsentBanner.Proofs.Configuration.Source
import ConsentBanner.Proofs.Json.Fields
import ConsentBanner.Proofs.Yaml.Reader
import Mathlib.Data.List.Induction

/-!
Settings by their paths, and what becomes of them where documents are laid over one another: a value at the end of a path
comes from the highest layer that has a say about it. A layer has a say about a path if it leads to a value there, or if a
beginning of the path ends at a value that is no object, since such a value takes the place of all that lies under it.
-/

namespace ConsentBanner

namespace Json

/-- The value that keys, one after another, lead to. -/
def setting? : List String → Json → Option Json
  | [], v => some v.bare
  | key :: path, v => (v.bare.get? key).bind (setting? path)

/-- A value that is no object. -/
def IsLeaf (v : Json) : Prop := ∀ fields, v ≠ obj fields

/-- A proper beginning of the path leads to a value that is no object. -/
def Covers (path : List String) (v : Json) : Prop :=
  ∃ front back leaf, path = front ++ back ∧ back ≠ [] ∧ v.setting? front = some leaf ∧ leaf.IsLeaf

/-- A document that has no say about what a path leads to. -/
def SilentAt (path : List String) (v : Json) : Prop := v.setting? path = none ∧ ¬ v.Covers path

@[simp] theorem setting?_nil (v : Json) : v.setting? [] = some v.bare := rfl

@[simp] theorem setting?_cons (key : String) (path : List String) (v : Json) :
    v.setting? (key :: path) = (v.bare.get? key).bind (setting? path) := rfl

theorem get?_of_isLeaf {v : Json} (h : v.IsLeaf) (key : String) : v.get? key = none := by
  cases v with
  | obj fields => exact absurd rfl (h fields)
  | _ => rfl

theorem not_isLeaf_of_obj {v : Json} {fields : List (String × Json)} (h : v = obj fields) : ¬ v.IsLeaf :=
  fun hleaf => hleaf fields h

theorem isLeaf_or_obj (v : Json) : v.IsLeaf ∨ ∃ fields, v = obj fields := by
  cases v with
  | obj fields => exact .inr ⟨fields, rfl⟩
  | _ => exact .inl nofun

theorem not_covers_nil (v : Json) : ¬ v.Covers [] := by
  rintro ⟨front, back, -, hpath, hback, -⟩
  exact hback (List.append_eq_nil_iff.1 hpath.symm).2

/-- A beginning of a path is empty, or it takes the first key and goes on to a beginning of the rest. -/
theorem covers_cons {key : String} {path : List String} {v : Json} :
    v.Covers (key :: path) ↔ v.bare.IsLeaf ∨ ∃ w, v.bare.get? key = some w ∧ w.Covers path := by
  constructor
  · rintro ⟨front, back, leaf, hpath, hback, hfront, hleaf⟩
    cases front with
    | nil =>
      cases hfront
      exact .inl hleaf
    | cons k front =>
      obtain ⟨rfl, rfl⟩ := List.cons.inj hpath
      obtain ⟨w, hw, hfront⟩ := Option.bind_eq_some_iff.1 hfront
      exact .inr ⟨w, hw, front, back, leaf, rfl, hback, hfront, hleaf⟩
  · rintro (h | ⟨w, hw, front, back, leaf, rfl, hback, hfront, hleaf⟩)
    · exact ⟨[], key :: path, v.bare, rfl, List.cons_ne_nil _ _, rfl, h⟩
    · refine ⟨key :: front, back, leaf, rfl, hback, ?_, hleaf⟩
      rw [setting?_cons, hw, Option.bind_some, hfront]

theorem get?_of_not_isSet {v : Json} (h : ¬ v.isSet = true) (key : String) : v.get? key = none := by
  cases v with
  | obj fields =>
    have hfields : fields = [] := by simpa [isSet] using h
    rw [hfields]
    rfl
  | _ => rfl

theorem get?_bare_of_not_isSet {v : Json} (h : ¬ v.isSet = true) (key : String) : v.bare.get? key = none := by
  cases v with
  | keyed k v => exact get?_of_not_isSet (v := v) h key
  | _ => exact get?_of_not_isSet h key

theorem keysOnce_bare {v : Json} (h : v.keysOnce = true) : v.bare.keysOnce = true := by
  cases v with
  | keyed key v => rwa [keysOnce] at h
  | _ => exact h

theorem keysOnce_setting? {path : List String} {v w : Json} (h : v.keysOnce = true) (hw : v.setting? path = some w) :
    w.keysOnce = true := by
  induction path generalizing v with
  | nil =>
    cases hw
    exact keysOnce_bare h
  | cons key path ih =>
    obtain ⟨u, hu, hw⟩ := Option.bind_eq_some_iff.1 hw
    obtain hleaf | ⟨fields, hv⟩ := isLeaf_or_obj v.bare
    · rw [get?_of_isLeaf hleaf] at hu
      cases hu
    · rw [hv] at hu
      exact ih (keysOnce_value (hv ▸ keysOnce_bare h) hu) hw

theorem fields?_eq_some {v : Json} {fields : List (String × Json)} : v.fields? = some fields ↔ v.bare = obj fields := by
  unfold fields?
  constructor
  · intro h
    split at h
    · rename_i hv
      cases h
      exact hv
    · cases h
  · intro h
    rw [h]

theorem get?_bare (key : String) (v : Json) : v.bare.get? key = v.fields?.bind (Fields.get? key) := by
  unfold fields?
  cases v.bare with
  | obj fields => rfl
  | _ => rfl

theorem overlay_none (v : Json) : overlay none v = v := by
  cases v with
  | keyed key v =>
    cases v with
    | obj fields => rfl
    | _ => rfl
  | _ => rfl

theorem bare_overlay_of_isLeaf {v : Json} (h : v.bare.IsLeaf) (under : Option Json) :
    (overlay under v).bare = v.bare := by
  cases v with
  | obj fields => exact absurd rfl (h fields)
  | keyed key v =>
    cases v with
    | obj fields => exact absurd rfl (h fields)
    | _ => rfl
  | _ => rfl

theorem bare_overlay_of_obj {v : Json} {above : List (String × Json)} (h : v.bare = obj above) (under : Option Json) :
    (overlay under v).bare = obj ((under.bind fields?).elim above (Fields.overlay · above)) := by
  cases v with
  | obj fields =>
    cases h
    rfl
  | keyed key v =>
    cases h
    rfl
  | _ => cases h

end Json

namespace Fields

open Json

/-- The fields of documents that are laid over one another, the lowest one first. -/
def layered (layers : List (List (String × Json))) : List (String × Json) := layers.foldl overlay []

theorem layered_append (lower higher : List (List (String × Json))) :
    layered (lower ++ higher) = higher.foldl overlay (layered lower) := List.foldl_append

theorem layered_append_singleton (layers : List (List (String × Json))) (top : List (String × Json)) :
    layered (layers ++ [top]) = overlay (layered layers) top := layered_append layers [top]

/-- The value of a key after an overlay is the value that is laid over, itself laid over the one under it, or the latter
when nothing is. -/
theorem get?_overlay {upper : List (String × Json)} (h : (upper.map (·.1)).Nodup) (base : List (String × Json))
    (key : String) :
    get? key (overlay base upper) = (get? key upper).elim (get? key base) (some <| Json.overlay (get? key base) ·) := by
  induction upper generalizing base with
  | nil => rfl
  | cons f rest ih =>
    obtain ⟨k, v⟩ := f
    rw [List.map_cons, List.nodup_cons] at h
    rw [overlay, ih h.2]
    by_cases hk : k = key
    · -- The key does not stand in the rest, so its value stays.
      subst hk
      rw [get?_of_not_mem h.1, get?_cons_self, get?_set_self]
      rfl
    · rw [get?_set_of_ne hk, get?_cons_of_ne hk]

end Fields

namespace Json

/-- What is found at a path after one document is laid over another: what the lower one has there, what the upper one has
there, whether the upper one covers the path, and what there is in the end. -/
structure Precedence (below above : Option Json) (covers : Prop) (result : Option Json) : Prop where
  leaf : ∀ v, above = some v → v.IsLeaf → result = some v
  covered : covers → result = none
  silent : above = none → ¬ covers → result = below
  joined : ∀ upper lower, above = some (obj upper) → below = some (obj lower) →
    ∃ both, merge (obj lower) (obj upper) = .ok both ∧ result = some both
  placed : ∀ upper, above = some (obj upper) → (∀ lower, below ≠ some (obj lower)) → result = some (obj upper)

theorem precedence_covered {below result : Option Json} {covers : Prop} (hcovers : covers) (hresult : result = none) :
    Precedence below none covers result where
  leaf := nofun
  covered _ := hresult
  silent _ h := absurd hcovers h
  joined := nofun
  placed := nofun

theorem precedence_silent {below result : Option Json} {covers : Prop} (hcovers : ¬ covers) (hresult : result = below) :
    Precedence below none covers result where
  leaf := nofun
  covered h := absurd h hcovers
  silent _ _ := hresult
  joined := nofun
  placed := nofun

theorem precedence_bare (v : Json) (under : Option Json) :
    Precedence (under.map bare) (some v.bare) False (some (overlay under v).bare) where
  leaf w hw hleaf := by
    cases hw
    rw [bare_overlay_of_isLeaf hleaf]
  covered := False.elim
  silent := nofun
  joined upper lower hupper hlower := by
    obtain ⟨u, rfl, hu⟩ := Option.map_eq_some_iff.1 hlower
    refine ⟨_, rfl, ?_⟩
    rw [bare_overlay_of_obj (Option.some.inj hupper), Option.bind_some, fields?_eq_some.2 hu]
    rfl
  placed upper hupper hbelow := by
    have hnone : under.bind fields? = none := by
      rw [Option.bind_eq_none_iff]
      intro u hu
      rw [Option.eq_none_iff_forall_ne_some]
      intro lower hlower
      apply hbelow lower
      rw [hu, Option.map_some, fields?_eq_some.1 hlower]
    rw [bare_overlay_of_obj (Option.some.inj hupper), hnone]
    rfl

/-- The value under a key meets the value, if any, under the same key. -/
theorem get?_bare_overlay {v : Json} {above : List (String × Json)} (h : v.keysOnce = true) (hv : v.bare = obj above)
    (under : Option Json) (key : String) :
    (overlay under v).bare.get? key =
      (v.bare.get? key).elim (under.bind fun u => u.bare.get? key)
        (some <| overlay (under.bind fun u => u.bare.get? key) ·) := by
  have hbelow : (under.bind fun u => u.bare.get? key) = (under.bind fields?).bind (Fields.get? key) := by
    simp only [get?_bare, Option.bind_assoc]
  rw [bare_overlay_of_obj hv, hbelow, hv]
  cases under.bind fields? with
  | some lower =>
    have hkeys : (obj above).keysOnce = true := hv ▸ keysOnce_bare h
    exact Fields.get?_overlay (nodup_of_keysOnce hkeys) lower key
  | none =>
    change Fields.get? key above = (Fields.get? key above).elim none (some <| overlay none ·)
    cases Fields.get? key above with
    | none => rfl
    | some w => rw [Option.elim_some, overlay_none]

theorem precedence_overlay (path : List String) {v : Json} (h : v.keysOnce = true) (under : Option Json) :
    Precedence (under.bind (setting? path)) (v.setting? path) (v.Covers path) ((overlay under v).setting? path) := by
  induction path generalizing v under with
  | nil =>
    rw [eq_false (not_covers_nil v)]
    have hbelow : under.bind (setting? []) = under.map bare := Option.map_eq_bind.symm
    rw [hbelow]
    exact precedence_bare v under
  | cons key path ih =>
    have hbelow : under.bind (setting? (key :: path)) =
        (under.bind fun u => u.bare.get? key).bind (setting? path) := (Option.bind_assoc _ _ _).symm
    rw [hbelow, setting?_cons, setting?_cons, covers_cons]
    obtain hleaf | ⟨above, hv⟩ := isLeaf_or_obj v.bare
    · rw [get?_of_isLeaf hleaf]
      refine precedence_covered (.inl hleaf) ?_
      rw [bare_overlay_of_isLeaf hleaf, get?_of_isLeaf hleaf]
      rfl
    · rw [get?_bare_overlay h hv, eq_false (not_isLeaf_of_obj hv), false_or]
      cases hw : v.bare.get? key with
      | none =>
        refine precedence_silent ?_ rfl
        rintro ⟨w, ⟨⟩, -⟩
      | some w =>
        have hcovers : (∃ u, some w = some u ∧ u.Covers path) ↔ w.Covers path := by
          simp only [Option.some.injEq, exists_eq_left']
        rw [hcovers]
        rw [hv] at hw
        exact ih (keysOnce_value (hv ▸ keysOnce_bare h) hw) _

/-- A leaf that is found comes from the upper document, or from the lower one where the upper one has no say. -/
theorem Precedence.eq_some_iff {below above result : Option Json} {covers : Prop} {v : Json}
    (h : Precedence below above covers result) (hv : v.IsLeaf) :
    result = some v ↔ above = some v ∨ (above = none ∧ ¬ covers) ∧ below = some v := by
  cases above with
  | none =>
    by_cases hcovers : covers
    · simp [h.covered hcovers, hcovers]
    · simp [h.silent rfl hcovers, hcovers]
  | some w =>
    obtain hw | ⟨upper, rfl⟩ := isLeaf_or_obj w
    · simp [h.leaf w rfl hw]
    · -- What is found is an object, whatever is below.
      have hresult : ∃ fields, result = some (obj fields) := by
        by_cases hbelow : ∃ lower, below = some (obj lower)
        · obtain ⟨lower, hlower⟩ := hbelow
          obtain ⟨both, ⟨⟩, hboth⟩ := h.joined upper lower rfl hlower
          exact ⟨_, hboth⟩
        · exact ⟨upper, h.placed upper rfl (not_exists.1 hbelow)⟩
      obtain ⟨fields, rfl⟩ := hresult
      simp [(hv _).symm]

/-- A layer decides what a path leads to: there it has the value, and none of the layers above it has a say about it. -/
def Decides (layers : List (List (String × Json))) (path : List String) (v : Json) : Prop :=
  ∃ lower layer higher, layers = lower ++ layer :: higher ∧ (obj layer).setting? path = some v ∧
    ∀ u ∈ higher, (obj u).SilentAt path

theorem decides_append_singleton {layers : List (List (String × Json))} {top : List (String × Json)} {path : List String}
    {v : Json} :
    Decides (layers ++ [top]) path v ↔
      (obj top).setting? path = some v ∨ (obj top).SilentAt path ∧ Decides layers path v := by
  constructor
  · rintro ⟨lower, layer, higher, hlayers, hlayer, hhigher⟩
    obtain rfl | ⟨between, u, rfl⟩ := List.eq_nil_or_concat higher
    · obtain ⟨-, ⟨⟩⟩ := List.append_inj' hlayers rfl
      exact .inl hlayer
    · rw [List.concat_eq_append, ← List.cons_append, ← List.append_assoc] at hlayers
      obtain ⟨rfl, ⟨⟩⟩ := List.append_inj' hlayers rfl
      rw [List.concat_eq_append, List.forall_mem_append, List.forall_mem_singleton] at hhigher
      exact .inr ⟨hhigher.2, lower, layer, between, rfl, hlayer, hhigher.1⟩
  · rintro (h | ⟨htop, lower, layer, higher, rfl, hlayer, hhigher⟩)
    · exact ⟨layers, top, [], rfl, h, List.forall_mem_nil _⟩
    · refine ⟨lower, layer, higher ++ [top], ?_, hlayer, ?_⟩
      · rw [List.append_assoc, List.cons_append]
      · rw [List.forall_mem_append, List.forall_mem_singleton]
        exact ⟨hhigher, htop⟩

theorem setting?_layered {layers : List (List (String × Json))} (h : ∀ l ∈ layers, (obj l).keysOnce = true)
    {path : List String} {v : Json} (hv : v.IsLeaf) :
    (obj (Fields.layered layers)).setting? path = some v ↔ Decides layers path v := by
  -- The highest layer is the last one, and has the first say.
  induction layers using List.reverseRecOn with
  | nil =>
    constructor
    · intro hpath
      cases path with
      | nil =>
        cases hpath
        exact absurd rfl (hv [])
      | cons key path => cases hpath
    · rintro ⟨lower, layer, higher, hlayers, -⟩
      exact absurd hlayers.symm (List.append_ne_nil_of_right_ne_nil _ (List.cons_ne_nil _ _))
  | append_singleton layers top ih =>
    rw [List.forall_mem_append, List.forall_mem_singleton] at h
    rw [Fields.layered_append_singleton, decides_append_singleton, ← ih h.1]
    exact (precedence_overlay path h.2 (some (obj (Fields.layered layers)))).eq_some_iff hv

/-- What a leaf has covered does not come back with an object above it. -/
example : (obj (Fields.layered [[("a", .obj [("b", .int 1)])], [("a", .int 2)], [("a", .obj [("c", .int 3)])]])).setting?
    ["a", "b"] = none := rfl

end Json

namespace Fields

variable {key k : String}

theorem erase_set_self (v : Json) (fields : List (String × Json)) : erase key (set key v fields) = erase key fields := by
  induction fields with
  | nil => simp [set, erase]
  | cons f rest ih =>
    obtain ⟨k, w⟩ := f
    unfold erase at ih ⊢
    rw [set]
    split
    · rename_i hk
      simp [eq_of_beq hk]
    · rename_i hk
      have hne : k ≠ key := by simpa using hk
      simp [hne, ih]

theorem erase_set_of_ne (h : k ≠ key) (v : Json) (fields : List (String × Json)) :
    erase key (set k v fields) = set k v (erase key fields) := by
  induction fields with
  | nil => simp [set, erase, h]
  | cons f rest ih =>
    obtain ⟨k', w⟩ := f
    unfold erase at ih ⊢
    rw [set]
    split
    · rename_i hk
      simp [eq_of_beq hk, h, set]
    · rename_i hk
      by_cases hkey : k' = key
      · simp [hkey, ih]
      · simp [hkey, ih, set, hk]

theorem get?_erase_of_ne (h : k ≠ key) (fields : List (String × Json)) : get? k (erase key fields) = get? k fields := by
  induction fields with
  | nil => rfl
  | cons f rest ih =>
    obtain ⟨k', w⟩ := f
    unfold erase at ih ⊢
    by_cases hkey : k' = key
    · simp [hkey, ih, get?_cons_of_ne (Ne.symm h)]
    · simp [hkey, get?, ih]

/-- What is left out may be left out before an overlay or after it. -/
theorem erase_overlay (key : String) (base upper : List (String × Json)) :
    erase key (overlay base upper) = overlay (erase key base) (erase key upper) := by
  induction upper generalizing base with
  | nil => rfl
  | cons f rest ih =>
    obtain ⟨k, v⟩ := f
    rw [overlay, ih]
    by_cases hk : k = key
    · rw [hk, erase_set_self]
      simp [erase]
    · rw [erase_set_of_ne hk]
      have hcons : erase key ((k, v) :: rest) = (k, v) :: erase key rest := List.filter_cons_of_pos (by simpa using hk)
      rw [hcons, overlay, get?_erase_of_ne hk]

theorem erase_layered (key : String) (layers : List (List (String × Json))) :
    erase key (layered layers) = layered (layers.map (erase key)) := by
  induction layers using List.reverseRecOn with
  | nil => rfl
  | append_singleton layers top ih =>
    rw [layered_append_singleton, erase_overlay, ih, List.map_append, List.map_singleton, layered_append_singleton]

theorem overlay_of_nodup {before fields : List (String × Json)} (h : ((before ++ fields).map (·.1)).Nodup) :
    overlay before fields = before ++ fields := by
  induction fields generalizing before with
  | nil => rw [overlay, List.append_nil]
  | cons f rest ih =>
    obtain ⟨k, v⟩ := f
    have hk : k ∉ before.map (·.1) := by
      rw [List.map_append, List.nodup_append] at h
      exact fun hm => h.2.2 k hm k List.mem_cons_self rfl
    rw [List.append_cons] at h
    rw [overlay, get?_of_not_mem hk, Json.overlay_none, set_of_not_mem hk, ih h, ← List.append_cons]

end Fields

namespace Json

theorem keysOnce_erase {fields : List (String × Json)} (h : (obj fields).keysOnce = true) (key : String) :
    (obj (Fields.erase key fields)).keysOnce = true := by
  rw [keysOnce_obj_iff] at h ⊢
  exact ⟨h.1.sublist (List.filter_sublist.map _), fun f hf => h.2 f (List.mem_filter.1 hf).1⟩

theorem keysOnce_set {fields : List (String × Json)} {v : Json} (h : (obj fields).keysOnce = true)
    (hv : v.keysOnce = true) (key : String) : (obj (Fields.set key v fields)).keysOnce = true := by
  rw [keysOnce_obj_iff] at h ⊢
  refine ⟨Fields.nodup_set h.1 key v, fun f hf => ?_⟩
  obtain rfl | hf := Fields.mem_of_mem_set hf
  · exact hv
  · exact h.2 f hf

theorem keysOnce_overlaid {under : Option Json} {fields : List (String × Json)}
    (hunder : ∀ u, under = some u → u.keysOnce = true) (hfields : (obj fields).keysOnce = true)
    (hoverlay : ∀ lower, (obj lower).keysOnce = true → (obj (Fields.overlay lower fields)).keysOnce = true) :
    (obj ((under.bind fields?).elim fields (Fields.overlay · fields))).keysOnce = true := by
  cases hlower : under.bind fields? with
  | none => exact hfields
  | some lower =>
    obtain ⟨u, hu, hbare⟩ := Option.bind_eq_some_iff.1 hlower
    exact hoverlay lower (fields?_eq_some.1 hbare ▸ keysOnce_bare (hunder u hu))

theorem keysOnce_overlays :
    (∀ base upper, (obj base).keysOnce = true → (obj upper).keysOnce = true →
      (obj (Fields.overlay base upper)).keysOnce = true) ∧
    ∀ under v, (∀ u, under = some u → u.keysOnce = true) → v.keysOnce = true → (overlay under v).keysOnce = true := by
  -- Fields and values are laid over others by one recursion.
  apply Fields.overlay.mutual_induct
  case case1 =>
    intro under fields ih hunder hfields
    exact keysOnce_overlaid hunder hfields fun lower hlower => ih lower hlower hfields
  case case2 =>
    intro under key fields ih hunder hfields
    rw [keysOnce] at hfields
    rw [overlay, keysOnce]
    exact keysOnce_overlaid hunder hfields fun lower hlower => ih lower hlower hfields
  case case3 =>
    intro under key v hobj _ hv
    rw [keysOnce] at hv
    rw [overlay, keysOnce]
    · exact hv
    · exact hobj
  case case4 =>
    intro under v hobj hkeyedObj hkeyed _ hv
    rw [overlay]
    · exact hv
    · exact hobj
    · exact hkeyedObj
    · exact hkeyed
  case case5 =>
    intro base hbase _
    exact hbase
  case case6 =>
    intro base k v rest hvalue hrest hbase hupper
    rw [keysOnce_obj_iff, List.map_cons, List.nodup_cons, List.forall_mem_cons] at hupper
    obtain ⟨⟨-, hkeys⟩, hv, hvalues⟩ := hupper
    rw [Fields.overlay]
    refine hrest (keysOnce_set hbase (hvalue (fun u hu => ?_) hv) k) (keysOnce_obj_iff.2 ⟨hkeys, hvalues⟩)
    exact keysOnce_value hbase hu

end Json

namespace Source

/-- The texts of the files that apply to an environment, the lower one first. -/
def texts (s : Source) (environment base : String) : List String :=
  base :: (Fields.get? ("generator." ++ environment ++ ".yaml") s.files).toList

/-- Each text has a document, an object with the fields in its place. -/
def AreFieldsOf (files : List (List (String × Json))) (texts : List String) : Prop :=
  List.Forall₂ (fun text fields => document text = .ok (.obj fields)) texts files

/-- The block of the environment in the files taken together, if there is one. -/
def block (environment : String) (all : List (String × Json)) : List (List (String × Json)) :=
  match (Json.obj all).setting? ["environments", environment] with
  | some (.obj own) => [own]
  | _ => []

/-- The layers of the configuration of an environment, the lowest one first: the files without their blocks of
environments, the block of this one, the settings from outside, and the name of the environment. -/
def layers (s : Source) (environment : String) (files : List (List (String × Json))) : List (List (String × Json)) :=
  files.map (Fields.erase "environments") ++ block environment (Fields.layered files) ++
    [s.overrides, [("environment", .str environment)]]

theorem keysOnce_document {text : String} {v : Json} (h : document text = .ok v) : v.keysOnce = true := by
  obtain ⟨w, hw, rfl⟩ := map_eq_ok.1 h
  unfold orEmpty
  split
  · exact Json.keysOnce_of_unique (Yaml.unique_parse hw)
  · rfl

theorem AreFieldsOf.keysOnce {files : List (List (String × Json))} {texts : List String} (h : AreFieldsOf files texts) :
    ∀ l ∈ files, (Json.obj l).keysOnce = true := by
  induction h with
  | nil => exact List.forall_mem_nil _
  | cons htext _ ih => exact List.forall_mem_cons.2 ⟨keysOnce_document htext, ih⟩

theorem keysOnce_overrides (s : Source) : (Json.obj s.overrides).keysOnce = true := by
  unfold overrides
  split
  all_goals
    split
    all_goals rfl

/-- The block that is found for an environment is what the way to it leads to. -/
theorem setting?_environments {environment : String} {all : List (String × Json)} {found : Option Json}
    (h : block? environment (orEmpty ((Fields.get? "environments" all).getD .null)) = .ok found) :
    (Json.obj all).setting? ["environments", environment] = found.map Json.bare := by
  change (Fields.get? "environments" all).bind (Json.setting? [environment]) = _
  cases hblocks : Fields.get? "environments" all with
  | none =>
    rw [hblocks] at h
    cases h
    rfl
  | some blocks =>
    rw [hblocks, Option.getD_some, orEmpty] at h
    rw [Option.bind_some, Json.setting?_cons]
    split at h
    · unfold block? at h
      split at h
      · cases h
        exact Option.map_eq_bind.symm
      · split at h
        · cases h
        · cases h
          rfl
      · split at h
        · cases h
        · cases h
          rfl
      · split at h
        · cases h
        · cases h
          rfl
      · cases h
    · rename_i hunset
      cases h
      rw [Json.get?_bare_of_not_isSet hunset]
      rfl

/-- The block of the environment is laid over the other fields, when there is one. -/
theorem selected_eq_ok {environment : String} {all own : List (String × Json)} (h : selected environment all = .ok own) :
    own = (block environment all).foldl Fields.overlay (Fields.erase "environments" all) := by
  obtain ⟨found, hfound, h⟩ := bind_eq_ok.1 h
  unfold block
  rw [setting?_environments hfound]
  cases found with
  | none =>
    cases h
    rfl
  | some v =>
    obtain ⟨merged, hmerged, h⟩ := bind_eq_ok.1 h
    cases fields_eq_ok.1 h
    obtain ⟨lower, above, hlower, rfl, rfl⟩ := merge_eq_ok_obj.1 hmerged
    cases hlower
    rfl

theorem exists_files {s : Source} {environment base : String} {all : List (String × Json)}
    (h : Joined s environment base all) :
    ∃ files, AreFieldsOf files (s.texts environment base) ∧ all = Fields.layered files := by
  have hfirst {text : String} {fields : List (String × Json)} (hdocument : document text = .ok (.obj fields)) :
      Fields.overlay [] fields = fields :=
    Fields.overlay_of_nodup (Json.nodup_of_keysOnce (keysOnce_document hdocument))
  unfold texts
  cases h with
  | @alone lower hbase hnone =>
    rw [hnone]
    exact ⟨[all], .cons hbase .nil, (hfirst hbase).symm⟩
  | @layered layer lower above hbase hlayer habove =>
    rw [hlayer]
    refine ⟨[lower, above], .cons hbase (.cons habove .nil), ?_⟩
    change _ = Fields.overlay (Fields.overlay [] lower) above
    rw [hfirst hbase]

theorem keysOnce_layered {layers : List (List (String × Json))} (h : ∀ l ∈ layers, (Json.obj l).keysOnce = true) :
    (Json.obj (Fields.layered layers)).keysOnce = true := by
  induction layers using List.reverseRecOn with
  | nil => rfl
  | append_singleton layers top ih =>
    rw [List.forall_mem_append, List.forall_mem_singleton] at h
    rw [Fields.layered_append_singleton]
    exact Json.keysOnce_overlays.1 _ _ (ih h.1) h.2

theorem keysOnce_layers (s : Source) (environment : String) {files : List (List (String × Json))}
    (h : ∀ l ∈ files, (Json.obj l).keysOnce = true) :
    ∀ l ∈ s.layers environment files, (Json.obj l).keysOnce = true := by
  have hblock : ∀ l ∈ block environment (Fields.layered files), (Json.obj l).keysOnce = true := by
    unfold block
    split
    · rename_i own hown
      rw [List.forall_mem_singleton]
      exact Json.keysOnce_setting? (keysOnce_layered h) hown
    · exact List.forall_mem_nil _
  unfold layers
  rw [List.forall_mem_append, List.forall_mem_append, List.forall_mem_map, List.forall_mem_cons,
    List.forall_mem_singleton]
  exact ⟨⟨fun l hl => Json.keysOnce_erase (h l hl) _, hblock⟩, keysOnce_overrides s, rfl⟩

theorem layered_layers {s : Source} {environment base : String} {own : List (String × Json)}
    (h : s.settings environment base = .ok own) :
    ∃ files, AreFieldsOf files (s.texts environment base) ∧
      Fields.set "environment" (.str environment) own = Fields.layered (s.layers environment files) := by
  rw [settings_eq] at h
  obtain ⟨all, hall, h⟩ := bind_eq_ok.1 h
  obtain ⟨files, hfiles, rfl⟩ := exists_files (joined_eq_ok.1 hall)
  obtain ⟨chosen, hchosen, h⟩ := bind_eq_ok.1 h
  cases h
  refine ⟨files, hfiles, ?_⟩
  rw [selected_eq_ok hchosen, Fields.erase_layered, layers, Fields.layered_append, Fields.layered_append]
  rfl

/-- The parts that a configuration that was loaded is made of. -/
theorem load_eq_ok {s : Source} {requested : Option String} {c : Configuration} (h : s.load requested = .ok c) :
    ∃ base own, Fields.get? "generator.yaml" s.files = some base ∧
      s.settings (Text.orDefault requested s.environment) base = .ok own ∧
      Configuration.read (.obj (Fields.set "environment" (.str (Text.orDefault requested s.environment)) own)) =
        .valid c := by
  unfold load at h
  dsimp only at h
  split at h
  · cases h
  · rename_i base hbase
    obtain ⟨own, hown, h⟩ := bind_eq_ok.1 h
    refine ⟨base, own, hbase, mapError_eq_ok.1 hown, ?_⟩
    split at h
    · cases h
    · split at h
      · rename_i c' hread
        cases h
        exact hread
      · cases h
      · cases h

/-- Documents are merged by a law of precedence at every path, and a configuration is read from its layers laid over one
another, so that each leaf among its settings comes from the highest layer that has a say about its path. -/
theorem precedence_of_layers :
    (∀ base upper : List (String × Json), (Json.obj upper).keysOnce = true →
      ∃ merged, Json.merge (.obj base) (.obj upper) = .ok merged ∧
        ∀ path, Json.Precedence ((Json.obj base).setting? path) ((Json.obj upper).setting? path)
          ((Json.obj upper).Covers path) (merged.setting? path)) ∧
    ∀ (s : Source) (requested : Option String) (c : Configuration), s.load requested = .ok c →
      ∃ base files, Fields.get? "generator.yaml" s.files = some base ∧
        AreFieldsOf files (s.texts (Text.orDefault requested s.environment) base) ∧
        Configuration.read (.obj (Fields.layered (s.layers (Text.orDefault requested s.environment) files))) = .valid c ∧
        ∀ path v, v.IsLeaf →
          ((Json.obj (Fields.layered (s.layers (Text.orDefault requested s.environment) files))).setting? path = some v ↔
            Json.Decides (s.layers (Text.orDefault requested s.environment) files) path v) := by
  constructor
  · intro base upper hupper
    exact ⟨_, rfl, fun path => Json.precedence_overlay path hupper (some (.obj base))⟩
  · intro s requested c h
    obtain ⟨base, own, hbase, hown, hread⟩ := load_eq_ok h
    obtain ⟨files, hfiles, hlayered⟩ := layered_layers hown
    refine ⟨base, files, hbase, hfiles, hlayered ▸ hread, fun path v hv => ?_⟩
    exact Json.setting?_layered (keysOnce_layers s _ hfiles.keysOnce) hv

/-- A base file with a block for production. -/
def withBlock : Source where
  files := [("generator.yaml",
    "limits:\n  max_nesting: 5\nenvironments:\n  production:\n    limits:\n      max_nesting: 3")]

/-- A limit of production over one of the base file, in documents and in a configuration. -/
theorem precedence_of_layers_withBlock :
    (∃ merged,
      Json.merge (.obj [("limits", .obj [("max_nesting", .int 5), ("max_width", .int 800)])])
        (.obj [("limits", .obj [("max_nesting", .int 3)])]) = .ok merged ∧
      merged.setting? ["limits", "max_nesting"] = some (.int 3) ∧
      merged.setting? ["limits", "max_width"] = some (.int 800)) ∧
    ∃ c base files, withBlock.load (some "production") = .ok c ∧
      AreFieldsOf files (withBlock.texts (Text.orDefault (some "production") withBlock.environment) base) ∧
      ((Json.obj (Fields.layered (withBlock.layers (Text.orDefault (some "production") withBlock.environment)
          files))).setting? ["limits", "max_nesting"] = some (.int 3) ↔
        Json.Decides (withBlock.layers (Text.orDefault (some "production") withBlock.environment) files)
          ["limits", "max_nesting"] (.int 3)) := by
  constructor
  · obtain ⟨merged, hmerged, hprecedence⟩ := precedence_of_layers.1
      [("limits", .obj [("max_nesting", .int 5), ("max_width", .int 800)])]
      [("limits", .obj [("max_nesting", .int 3)])] (by decide)
    refine ⟨merged, hmerged, ?_, ?_⟩
    · exact (hprecedence ["limits", "max_nesting"]).leaf (.int 3) rfl nofun
    · refine (hprecedence ["limits", "max_width"]).silent rfl ?_
      simp [Json.covers_cons, Json.not_covers_nil, Json.IsLeaf, Json.bare, Json.get?, Fields.get?]
  · obtain ⟨c, hc⟩ := exists_eq_ok (x := withBlock.load (some "production")) (by decide +kernel)
    obtain ⟨base, files, -, hfiles, -, hleaf⟩ := precedence_of_layers.2 withBlock (some "production") c hc
    exact ⟨c, base, files, hc, hfiles, hleaf ["limits", "max_nesting"] (.int 3) nofun⟩

end Source

end ConsentBanner
