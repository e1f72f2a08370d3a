import ConsentBanner.Consent.Basic
import ConsentBanner.Proofs.Json.RoundTrip
import ConsentBanner.Proofs.Schema
import ConsentBanner.Proofs.Time.Reader

/-!
Consents are read as they were written.
-/

namespace ConsentBanner

namespace Answers

variable {id : Int} {allowed : Bool} {a : Answers}

/-- The numbers that were asked about. -/
def ids (a : Answers) : List Int := a.map (·.1)

theorem set_of_not_mem (h : id ∉ a.ids) (allowed : Bool) : a.set id allowed = a ++ [(id, allowed)] := by
  induction a with
  | nil => rfl
  | cons f rest ih =>
    obtain ⟨k, b⟩ := f
    have h : ¬ (id = k ∨ id ∈ ids rest) := fun hm => h (List.mem_cons.2 hm)
    rw [not_or] at h
    rw [set, if_neg (by simpa using Ne.symm h.1), ih h.2, List.cons_append]

theorem ids_set_of_mem (h : id ∈ a.ids) (allowed : Bool) : (a.set id allowed).ids = a.ids := by
  induction a with
  | nil => cases h
  | cons f rest ih =>
    obtain ⟨k, b⟩ := f
    rw [set]
    split
    · rfl
    · rename_i hk
      obtain rfl | h := List.mem_cons.1 h
      · exact absurd (beq_self_eq_true _) hk
      · exact congrArg (k :: ·) (ih h)

theorem get?_set_self (id : Int) (allowed : Bool) (a : Answers) : (a.set id allowed).get? id = some allowed := by
  induction a with
  | nil => rw [set, get?, if_pos (beq_self_eq_true id)]
  | cons f rest ih =>
    obtain ⟨k, b⟩ := f
    rw [set]
    split
    · rename_i hk
      rw [get?, if_pos hk]
    · rename_i hk
      rw [get?, if_neg hk, ih]

theorem set_of_get? (h : a.get? id = some allowed) : a.set id allowed = a := by
  induction a with
  | nil => cases h
  | cons f rest ih =>
    obtain ⟨k, b⟩ := f
    rw [get?] at h
    rw [set]
    split at h
    · rename_i hk
      cases h
      rw [if_pos hk]
    · rename_i hk
      rw [if_neg hk, ih h]

theorem foldl_set_of_nodup {pairs before : List (Int × Bool)} (h : (ids (before ++ pairs)).Nodup) :
    pairs.foldl (fun a f => Answers.set f.1 f.2 a) before = before ++ pairs := by
  induction pairs generalizing before with
  | nil => rw [List.foldl_nil, List.append_nil]
  | cons f rest ih =>
    have hf : f.1 ∉ ids before := by
      rw [ids, List.map_append, List.nodup_append] at h
      exact fun hm => h.2.2 f.1 hm f.1 List.mem_cons_self rfl
    rw [List.append_cons] at h
    rw [List.foldl_cons, List.append_cons, set_of_not_mem hf, ih h]

theorem ofPairs_of_nodup {pairs : List (Int × Bool)} (h : (ids pairs).Nodup) : ofPairs pairs = pairs := by
  rw [← List.nil_append pairs] at h
  exact foldl_set_of_nodup h

/-- Answers that can be read again: to different questions, whose numbers are not too long for a text. -/
structure IsLegible (a : Answers) : Prop where
  nodup : a.ids.Nodup
  short : ∀ id ∈ a.ids, (Nat.toDigits 10 id.natAbs).length ≤ Text.maxDigits

instance (a : Answers) : Decidable a.IsLegible :=
  decidable_of_iff (a.ids.Nodup ∧ ∀ id ∈ a.ids, (Nat.toDigits 10 id.natAbs).length ≤ Text.maxDigits)
    ⟨fun h => ⟨h.1, h.2⟩, fun h => ⟨h.1, h.2⟩⟩

theorem IsLegible.of_ids {b : Answers} (h : a.IsLegible) (hids : b.ids = a.ids) : b.IsLegible where
  nodup := hids ▸ h.nodup
  short := hids ▸ h.short

theorem IsLegible.integer?_toString (h : a.IsLegible) (hid : id ∈ a.ids) : Text.integer? (toString id) = some id :=
  Text.integer?_toString (h.short id hid)

def fields (a : Answers) : List (String × Json) := a.map fun (id, allowed) => (toString id, .bool allowed)

theorem nodup_fields (h : a.ids.Nodup) : (a.fields.map (·.1)).Nodup := by
  have hkeys : a.fields.map (·.1) = a.ids.map toString := by
    rw [fields, ids, List.map_map, List.map_map]
    rfl
  rw [hkeys, List.Nodup, List.pairwise_map]
  exact h.imp fun hne heq => hne (Text.toString_injective heq)

theorem fieldsArePlain (a : Answers) : Json.FieldsArePlain a.fields := by
  induction a with
  | nil => exact trivial
  | cons f rest ih => exact ⟨trivial, ih⟩

theorem IsLegible.isPlain_json (h : a.IsLegible) : Json.IsPlain a.json := ⟨nodup_fields h.nodup, fieldsArePlain a⟩

theorem filterMap_fields (h : ∀ id ∈ a.ids, Text.integer? (toString id) = some id) :
    a.fields.filterMap (fun f => (Text.integer? f.1).map (·, f.2.isSet)) = a := by
  induction a with
  | nil => rfl
  | cons f rest ih =>
    obtain ⟨k, allowed⟩ := f
    have hrest := ih fun id hid => h id (List.mem_cons_of_mem _ hid)
    have hk : Text.integer? (toString k) = some k := h k List.mem_cons_self
    rw [fields, List.map_cons, List.filterMap_cons, hk, Option.map_some]
    exact congrArg ((k, allowed) :: ·) hrest

theorem IsLegible.read_json (h : a.IsLegible) : read a.json = .valid a := by
  cases a with
  | nil => rfl
  | cons f rest =>
    have hjson : json (f :: rest) = .obj (fields (f :: rest)) := rfl
    have hset : (Json.obj (fields (f :: rest))).isSet = true := rfl
    have hread := filterMap_fields fun id hid => h.integer?_toString hid
    unfold read
    rw [hjson, if_neg (by simp [hset])]
    change Checked.valid (ofPairs ((fields (f :: rest)).filterMap fun f => _)) = _
    rw [hread, ofPairs_of_nodup h.nodup]

theorem IsLegible.set (h : a.IsLegible) (hid : (Nat.toDigits 10 id.natAbs).length ≤ Text.maxDigits) (allowed : Bool) :
    (Answers.set id allowed a).IsLegible := by
  by_cases hmem : id ∈ a.ids
  · exact h.of_ids (ids_set_of_mem hmem allowed)
  · have hids : (Answers.set id allowed a).ids = a.ids ++ [id] := by
      rw [set_of_not_mem hmem, ids, List.map_append]
      rfl
    refine ⟨?_, fun id' hid' => ?_⟩
    · rw [hids, List.nodup_append]
      refine ⟨h.nodup, by simp, fun x hx y hy hxy => hmem ?_⟩
      rwa [hxy, List.mem_singleton.1 hy] at hx
    · rw [hids, List.mem_append, List.mem_singleton] at hid'
      obtain hid' | rfl := hid'
      · exact h.short id' hid'
      · exact hid

theorem IsLegible.foldl_set {pairs : List (Int × Bool)}
    (hpairs : ∀ f ∈ pairs, (Nat.toDigits 10 f.1.natAbs).length ≤ Text.maxDigits) (h : a.IsLegible) :
    (pairs.foldl (fun a f => Answers.set f.1 f.2 a) a).IsLegible := by
  induction pairs generalizing a with
  | nil => exact h
  | cons f rest ih =>
    exact ih (fun f' hf' => hpairs f' (List.mem_cons_of_mem _ hf')) (h.set (hpairs f List.mem_cons_self) f.2)

/-- Answers that were read can be read again. -/
theorem isLegible_of_read {v : Json} (h : read v = .valid a) : a.IsLegible := by
  have hnone : IsLegible [] := ⟨.nil, nofun⟩
  unfold read at h
  split at h
  · cases h
    exact hnone
  · split at h
    · cases h
      refine hnone.foldl_set fun f hf => ?_
      obtain ⟨⟨key, value⟩, -, hkey⟩ := List.mem_filterMap.1 hf
      obtain ⟨id, hid, rfl⟩ := Option.map_eq_some_iff.1 hkey
      exact Text.integer?_short hid
    · cases h

end Answers

namespace Consent

/-- A consent of the parts that the model gives it: legible answers, moments that a clock can show, and a text. -/
structure IsWellFormed (c : Consent) : Prop where
  purposes : c.purposes.IsLegible
  vendors : c.vendors.IsLegible
  specialFeatures : c.specialFeatures.IsLegible
  created : ∀ m ∈ c.created, m.IsZoned
  lastUpdated : ∀ m ∈ c.lastUpdated, m.IsZoned
  tcString : ∃ text, c.tcString = .str text

/-- A consent that is stored without loss. -/
structure IsStorable (c : Consent) : Prop where
  purposes : c.purposes.IsLegible
  vendors : c.vendors.IsLegible
  specialFeatures : c.specialFeatures.IsLegible
  created : ∀ m ∈ c.created, m.IsZoned
  lastUpdated : ∀ m ∈ c.lastUpdated, m.IsZoned
  tcString : ∃ text, c.tcString = .str text
  necessary : c.purposes.get? Purpose.necessary = some true

theorem IsStorable.isWellFormed {c : Consent} (h : c.IsStorable) : c.IsWellFormed :=
  ⟨h.purposes, h.vendors, h.specialFeatures, h.created, h.lastUpdated, h.tcString⟩

theorem isPlain_momentJson (m : Option Moment) : Json.IsPlain (momentJson m) := by
  cases m with
  | none => trivial
  | some m => trivial

theorem IsWellFormed.isPlain_json {c : Consent} (h : c.IsWellFormed) : Json.IsPlain c.json := by
  obtain ⟨text, htext⟩ := h.tcString
  have hkeys : ["purposes", "vendors", "specialFeatures", "created", "lastUpdated", "tcString"].Nodup := by decide
  refine ⟨hkeys, h.purposes.isPlain_json, h.vendors.isPlain_json, h.specialFeatures.isPlain_json, ?_⟩
  refine ⟨isPlain_momentJson _, isPlain_momentJson _, ?_, trivial⟩
  rw [htext]
  trivial

theorem read_momentJson {m : Option Moment} (h : ∀ m' ∈ m, m'.IsZoned) :
    Reader.nullable Moment.read (momentJson m) = .valid m := by
  cases m with
  | none => rfl
  | some m =>
    change (Moment.read (.str m.text)).map some = _
    rw [Moment.read_text (h m rfl)]
    rfl

theorem IsWellFormed.read_json {c : Consent} (h : c.IsWellFormed) : read c.json = .valid c := by
  obtain ⟨purposes, vendors, specialFeatures, created, lastUpdated, tcString⟩ := c
  obtain ⟨hpurposes, hvendors, hfeatures, hcreated, hupdated, ⟨text, rfl⟩⟩ := h
  change Consent.mk
      <$> (Answers.read purposes.json).under "purposes"
      <*> (Answers.read vendors.json).under "vendors"
      <*> (Answers.read specialFeatures.json).under "specialFeatures"
      <*> (Reader.nullable Moment.read (momentJson created)).under "created"
      <*> (Reader.nullable Moment.read (momentJson lastUpdated)).under "lastUpdated"
      <*> (Json.str <$> Reader.string (.str text)).under "tcString" = _
  rw [hpurposes.read_json, hvendors.read_json, hfeatures.read_json, read_momentJson hcreated,
    read_momentJson hupdated]
  rfl

/-- A consent that was read has each of its parts from the field of its own. -/
theorem read_eq_valid {v : Json} {c : Consent} (h : read v = .valid c) :
    ∃ fields, v = .obj fields ∧
      Reader.field fields ["purposes"] [] Answers.read = .valid c.purposes ∧
      Reader.field fields ["vendors"] [] Answers.read = .valid c.vendors ∧
      Reader.field fields ["specialFeatures", "special_features"] [] Answers.read = .valid c.specialFeatures ∧
      Reader.field fields ["created"] none (Reader.nullable Moment.read) = .valid c.created ∧
      Reader.field fields ["lastUpdated", "last_updated"] none (Reader.nullable Moment.read) = .valid c.lastUpdated ∧
      Reader.field fields ["tcString", "tc_string"] (.str "") (fun v => Json.str <$> Reader.string v) =
        .valid c.tcString := by
  unfold read Reader.model at h
  split at h
  · rename_i fields
    obtain ⟨_, tcString, h₁, htext, rfl⟩ := Checked.seq_eq_valid.1 h
    obtain ⟨_, updated, h₂, hupdated, rfl⟩ := Checked.seq_eq_valid.1 h₁
    obtain ⟨_, created, h₃, hcreated, rfl⟩ := Checked.seq_eq_valid.1 h₂
    obtain ⟨_, features, h₄, hfeatures, rfl⟩ := Checked.seq_eq_valid.1 h₃
    obtain ⟨_, vendors, h₅, hvendors, rfl⟩ := Checked.seq_eq_valid.1 h₄
    obtain ⟨purposes, hpurposes, rfl⟩ := Checked.map_eq_valid.1 h₅
    exact ⟨fields, rfl, hpurposes, hvendors, hfeatures, hcreated, hupdated, htext⟩
  · cases h

theorem isZoned_of_field {fields : List (String × Json)} {names : List String} {m : Option Moment}
    (h : Reader.field fields names none (Reader.nullable Moment.read) = .valid m) : ∀ m' ∈ m, m'.IsZoned := by
  rintro m' rfl
  unfold Reader.field at h
  split at h
  · have hread := Checked.under_eq_valid.1 h
    unfold Reader.nullable at hread
    split at hread
    · cases hread
    · obtain ⟨m'', hm, heq⟩ := Checked.map_eq_valid.1 hread
      cases heq
      exact Moment.isZoned_of_read hm
  · cases h

theorem isZoned_of_read {v : Json} {c : Consent} (h : read v = .valid c) : ∀ m ∈ c.created, m.IsZoned := by
  obtain ⟨fields, -, -, -, -, hcreated, -, -⟩ := read_eq_valid h
  exact isZoned_of_field hcreated

theorem isZoned_lastUpdated_of_read {v : Json} {c : Consent} (h : read v = .valid c) :
    ∀ m ∈ c.lastUpdated, m.IsZoned := by
  obtain ⟨fields, -, -, -, -, -, hupdated, -⟩ := read_eq_valid h
  exact isZoned_of_field hupdated

/-- Whether what the server made of the decision is a text. -/
def hasText (c : Consent) : Bool := c.tcString.asString?.isSome

theorem hasText_of_read {v : Json} {c : Consent} (h : read v = .valid c) : c.hasText = true := by
  obtain ⟨fields, -, -, -, -, -, -, htext⟩ := read_eq_valid h
  rw [hasText]
  unfold Reader.field at htext
  split at htext
  · obtain ⟨text, -, heq⟩ := Checked.map_eq_valid.1 (Checked.under_eq_valid.1 htext)
    rw [← heq]
    rfl
  · injection htext with htext
    rw [← htext]
    rfl

theorem eq_str_of_hasText {c : Consent} (h : c.hasText = true) : ∃ text, c.tcString = .str text := by
  unfold hasText at h
  cases hc : c.tcString with
  | str text => exact ⟨text, rfl⟩
  | _ =>
    rw [hc] at h
    cases h

theorem isLegible_of_field {fields : List (String × Json)} {names : List String} {a : Answers}
    (h : Reader.field fields names [] Answers.read = .valid a) : a.IsLegible := by
  unfold Reader.field at h
  split at h
  · exact Answers.isLegible_of_read (Checked.under_eq_valid.1 h)
  · cases h
    exact ⟨.nil, nofun⟩

/-- The consents of these parts are those that are read from a document. -/
theorem isWellFormed_iff {c : Consent} : c.IsWellFormed ↔ ∃ v, read v = .valid c := by
  constructor
  · intro h
    exact ⟨c.json, h.read_json⟩
  · rintro ⟨v, h⟩
    obtain ⟨fields, -, hpurposes, hvendors, hfeatures, hcreated, hupdated, -⟩ := read_eq_valid h
    exact ⟨isLegible_of_field hpurposes, isLegible_of_field hvendors, isLegible_of_field hfeatures,
      isZoned_of_field hcreated, isZoned_of_field hupdated, eq_str_of_hasText (hasText_of_read h)⟩

theorem mem_known_of_category {category : Category} {id : Int} (h : id ∈ category.purposes) :
    id ∈ Purpose.known.map (·.1) := by
  have small : ∀ category ∈ [Category.necessary, .analytics, .marketing, .personalization],
      ∀ id ∈ category.purposes, id ∈ Purpose.known.map (·.1) := by decide
  cases category with
  | _ => exact small _ (by decide) id h

theorem ids_foldl_set {ids : List Int} {before : Answers} (h : ∀ id ∈ ids, id ∈ before.ids) (allowed : Bool) :
    (ids.foldl (fun a id => a.set id allowed) before).ids = before.ids := by
  induction ids generalizing before with
  | nil => rfl
  | cons id rest ih =>
    have hids := Answers.ids_set_of_mem (h id List.mem_cons_self) allowed
    rw [List.foldl_cons, ih, hids]
    intro id' hid'
    rw [hids]
    exact h id' (List.mem_cons_of_mem _ hid')

/-- The preferences are about the known purposes, whatever categories they name. -/
theorem ids_decideCategories {before : Answers} (h : before.ids = Purpose.known.map (·.1))
    (categories : List (String × Json)) : (decideCategories before categories).ids = before.ids := by
  induction categories generalizing before with
  | nil => rfl
  | cons f rest ih =>
    obtain ⟨name, allowed⟩ := f
    have hmem : ∀ id ∈ ((Named.ofName? name).map Category.purposes).getD [], id ∈ before.ids := by
      rw [h]
      cases (Named.ofName? name : Option Category) with
      | none => exact nofun
      | some category => exact fun id hid => mem_known_of_category hid
    have hids := ids_foldl_set hmem allowed.isSet
    rw [decideCategories, ih (hids.trans h), hids]

theorem isLegible_all (allowed : Bool) :
    (Answers.all allowed (Purpose.known.map (·.1))).IsLegible ∧
      (Answers.all allowed (Vendor.known.map (·.1))).IsLegible ∧
      (Answers.all allowed (SpecialFeature.known.map (·.1))).IsLegible := by
  revert allowed
  decide

/-- A decision that was just made, with one answer for all vendors and all special features. -/
structure IsUniform (c : Consent) (allowed : Bool) (now : Moment) : Prop where
  vendors : c.vendors = Answers.all allowed (Vendor.known.map (·.1))
  specialFeatures : c.specialFeatures = Answers.all allowed (SpecialFeature.known.map (·.1))
  created : c.created = some now
  lastUpdated : c.lastUpdated = some now
  tcString : c.tcString = .str ""

theorem IsUniform.isStorable {c : Consent} {allowed : Bool} {now : Moment} (h : c.IsUniform allowed now)
    (hnow : now.IsZoned) (hpurposes : c.purposes.IsLegible)
    (hnecessary : c.purposes.get? Purpose.necessary = some true) : c.IsStorable where
  purposes := hpurposes
  vendors := by
    rw [h.vendors]
    exact (isLegible_all allowed).2.1
  specialFeatures := by
    rw [h.specialFeatures]
    exact (isLegible_all allowed).2.2
  created := by
    rw [h.created]
    rintro m ⟨⟩
    exact hnow
  lastUpdated := by
    rw [h.lastUpdated]
    rintro m ⟨⟩
    exact hnow
  tcString := ⟨"", h.tcString⟩
  necessary := hnecessary

theorem isStorable_acceptAll {now : Moment} (h : now.IsZoned) :
    (acceptAll (Vendor.known.map (·.1)) now).IsStorable := by
  have huniform : (acceptAll (Vendor.known.map (·.1)) now).IsUniform true now := ⟨rfl, rfl, rfl, rfl, rfl⟩
  exact huniform.isStorable h (isLegible_all true).1 rfl

theorem isStorable_rejectAll {now : Moment} (h : now.IsZoned) :
    (rejectAll (Vendor.known.map (·.1)) now).IsStorable := by
  have huniform : (rejectAll (Vendor.known.map (·.1)) now).IsUniform false now := ⟨rfl, rfl, rfl, rfl, rfl⟩
  exact huniform.isStorable h ((isLegible_all false).1.of_ids rfl) rfl

theorem isStorable_ofCategories {categories : List (String × Json)} {now : Moment} {c : Consent} (h : now.IsZoned)
    (hc : ofCategories categories [] now = .ok c) : c.IsStorable := by
  have hrefused := (isLegible_all false).1
  have hids : (decideCategories (Answers.all false (Purpose.known.map (·.1))) categories).ids =
      (Answers.all false (Purpose.known.map (·.1))).ids := ids_decideCategories rfl categories
  have hmem : Purpose.necessary ∈
      (decideCategories (Answers.all false (Purpose.known.map (·.1))) categories).ids := by
    rw [hids]
    decide
  have huniform : c.IsUniform false now := by
    cases hc
    exact ⟨rfl, rfl, rfl, rfl, rfl⟩
  cases hc
  refine huniform.isStorable h ?_ (Answers.get?_set_self ..)
  exact hrefused.of_ids ((Answers.ids_set_of_mem hmem true).trans hids)

end Consent

end ConsentBanner
