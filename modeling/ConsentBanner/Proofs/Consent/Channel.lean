import ConsentBanner.Consent.Basic
import ConsentBanner.Consent.Report
import ConsentBanner.Proofs.Consent.Basic
import ConsentBanner.Proofs.Json.Fields
import ConsentBanner.Signal.Api

/-!
What each form of a consent tells: the report to the server, the answers of the consent interface, and the
kinds of storage that are granted.
-/

namespace ConsentBanner

namespace Answers

variable {a : Answers} {id : Int} {allowed : Bool}

theorem get?_of_not_mem (h : id ∉ a.ids) : a.get? id = none := by
  induction a with
  | nil => rfl
  | cons f rest ih =>
    obtain ⟨k, b⟩ := f
    have h : ¬ (id = k ∨ id ∈ ids rest) := fun hm => h (List.mem_cons.2 hm)
    rw [not_or] at h
    rw [get?, if_neg (by simpa using Ne.symm h.1), ih h.2]

/-- Where no question is answered twice, the answers are those that are listed. -/
theorem mem_iff_get? (h : a.ids.Nodup) : (id, allowed) ∈ a ↔ a.get? id = some allowed := by
  induction a with
  | nil => simp [get?]
  | cons f rest ih =>
    obtain ⟨k, b⟩ := f
    obtain ⟨hk, hrest⟩ := List.nodup_cons.1 h
    rw [get?, List.mem_cons, ih hrest]
    by_cases hid : k = id
    · subst hid
      rw [if_pos (beq_self_eq_true k), get?_of_not_mem hk]
      simp [eq_comm]
    · rw [if_neg (by simpa using hid)]
      simp [Ne.symm hid]

theorem get?_set_of_ne {k : Int} (h : k ≠ id) (allowed : Bool) (a : Answers) :
    (a.set k allowed).get? id = a.get? id := by
  induction a with
  | nil => simp [set, get?, h]
  | cons f rest ih =>
    obtain ⟨k', b⟩ := f
    rw [set]
    split
    · rename_i hk
      obtain rfl := eq_of_beq hk
      rw [get?, get?, if_neg (by simpa using h), if_neg (by simpa using h)]
    · rw [get?, get?, ih]

theorem nodup_set (h : a.ids.Nodup) (id : Int) (allowed : Bool) : (a.set id allowed).ids.Nodup := by
  by_cases hid : id ∈ a.ids
  · rw [ids_set_of_mem hid]
    exact h
  · rw [set_of_not_mem hid, ids, List.map_append, List.nodup_append]
    refine ⟨h, by simp, ?_⟩
    rintro i hi j hj rfl
    obtain rfl : i = id := List.mem_singleton.1 hj
    exact hid hi

theorem nodup_ofPairs (pairs : List (Int × Bool)) : (ofPairs pairs).ids.Nodup := by
  have kept {pairs before : List (Int × Bool)} (h : (ids before).Nodup) :
      (ids (pairs.foldl (fun a f => Answers.set f.1 f.2 a) before)).Nodup := by
    induction pairs generalizing before with
    | nil => exact h
    | cons f rest ih => exact ih (nodup_set h f.1 f.2)
  exact kept List.nodup_nil

theorem get?_foldl_set (rule : Int → Bool) (asked : List Int) (before : Answers) (id : Int) :
    ((asked.map fun id => (id, rule id)).foldl (fun a f => Answers.set f.1 f.2 a) before).get? id =
      if id ∈ asked then some (rule id) else before.get? id := by
  induction asked generalizing before with
  | nil => rfl
  | cons k rest ih =>
    rw [List.map_cons, List.foldl_cons, ih]
    by_cases hrest : id ∈ rest
    · rw [if_pos hrest, if_pos (List.mem_cons_of_mem _ hrest)]
    · by_cases hk : k = id
      · rw [if_neg hrest, hk, if_pos List.mem_cons_self, get?_set_self]
      · rw [if_neg hrest, if_neg (by simp [hrest, Ne.symm hk]), get?_set_of_ne hk]

theorem get?_ofPairs (rule : Int → Bool) (asked : List Int) (id : Int) :
    (ofPairs (asked.map fun id => (id, rule id))).get? id = if id ∈ asked then some (rule id) else none :=
  get?_foldl_set rule asked [] id

theorem get?_filter (p : Int → Bool) (a : Answers) (id : Int) :
    Answers.get? id (a.filter fun f => p f.1) = if p id then a.get? id else none := by
  induction a with
  | nil => simp [get?]
  | cons f rest ih =>
    obtain ⟨k, b⟩ := f
    rw [List.filter_cons]
    by_cases hk : k = id
    · subst hk
      have hfound : get? k ((k, b) :: rest) = some b := by rw [get?, if_pos (beq_self_eq_true k)]
      rw [hfound]
      dsimp only
      split
      · rw [get?, if_pos (beq_self_eq_true k)]
      · rename_i hp
        rw [ih, if_neg hp]
    · have hskip : get? id ((k, b) :: rest) = get? id rest := by rw [get?, if_neg (by simpa using hk)]
      split
      · rw [get?, if_neg (by simpa using hk), ih, hskip]
      · rw [ih, hskip]

theorem perm_sorted (a : Answers) : a.sorted.Perm a := List.mergeSort_perm a _

theorem nodup_sorted (h : a.ids.Nodup) : a.sorted.ids.Nodup := ((perm_sorted a).map _).nodup_iff.2 h

theorem mem_sorted_iff (h : a.ids.Nodup) : (id, allowed) ∈ a.sorted ↔ a.get? id = some allowed := by
  rw [(perm_sorted a).mem_iff, mem_iff_get? h]

end Answers

namespace Json

/-- An object that gives, under the numbers of the questions, just these answers. -/
def Tells (v : Json) (answers : Int → Option Bool) : Prop :=
  ∃ fields, v = .obj fields ∧ (fields.map (·.1)).Nodup ∧
    ∀ key value, (key, value) ∈ fields ↔
      ∃ id allowed, key = toString id ∧ value = .bool allowed ∧ answers id = some allowed

/-- An object that gives these answers at the end of a path of keys. -/
def TellsAt (v : Json) (answers : Int → Option Bool) : List String → Prop
  | [] => v.Tells answers
  | key :: rest => ∃ w, v.get? key = some w ∧ w.TellsAt answers rest

theorem tells_sorted {a : Answers} (h : a.ids.Nodup) : a.sorted.json.Tells (a.get? ·) := by
  refine ⟨a.sorted.fields, rfl, Answers.nodup_fields (Answers.nodup_sorted h), fun key value => ?_⟩
  constructor
  · intro hmem
    obtain ⟨⟨id, allowed⟩, hf, heq⟩ := List.mem_map.1 hmem
    cases heq
    exact ⟨id, allowed, rfl, rfl, (Answers.mem_sorted_iff h).1 hf⟩
  · rintro ⟨id, allowed, rfl, rfl, hget⟩
    exact List.mem_map.2 ⟨(id, allowed), (Answers.mem_sorted_iff h).2 hget, rfl⟩

end Json

/-- A list of decided questions, none of them twice, that gives just these answers. -/
def Decided.Tell (ds : List Decided) (answers : Int → Option Bool) : Prop :=
  (ds.map (·.id)).Nodup ∧ ∀ id allowed, (∃ d ∈ ds, d.id = id ∧ d.allowed = allowed) ↔ answers id = some allowed

theorem Decisions.tell_named {a : Answers} (h : a.ids.Nodup) (name : Json → String) :
    Decided.Tell (named name a) (a.get? ·) := by
  refine ⟨?_, fun id allowed => ?_⟩
  · rw [named, List.map_map]
    exact Answers.nodup_sorted h
  · rw [← Answers.mem_sorted_iff h]
    constructor
    · rintro ⟨d, hd, rfl, rfl⟩
      obtain ⟨⟨id, allowed⟩, hf, rfl⟩ := List.mem_map.1 hd
      exact hf
    · intro hf
      exact ⟨_, List.mem_map_of_mem hf, rfl, rfl⟩

namespace Consent

/-- A consent that answers no question twice. -/
structure IsDistinct (c : Consent) : Prop where
  purposes : c.purposes.ids.Nodup
  vendors : c.vendors.ids.Nodup
  specialFeatures : c.specialFeatures.ids.Nodup

theorem IsStorable.isDistinct {c : Consent} (h : c.IsStorable) : c.IsDistinct :=
  ⟨h.purposes.nodup, h.vendors.nodup, h.specialFeatures.nodup⟩

/-- What a consent answers when it is asked about some vendors, or about none in particular. -/
def vendorAnswers (c : Consent) : Option (List Int) → Int → Option Bool
  | none, id => c.vendors.get? id
  | some asked, id => if id ∈ asked then some ((c.vendors.get? id).getD false) else none

/-- A category is allowed when all of its purposes are. -/
theorem allows_iff {c : Consent} {category : Category} :
    c.allows category = true ↔ ∀ id ∈ category.purposes, c.purposes.get? id = some true := by
  rw [allows, List.all_eq_true]
  refine forall₂_congr fun id _ => ?_
  rcases c.purposes.get? id with _ | b
  · simp
  · simp

end Consent

/-- The kinds of storage that a category stands for. -/
def Category.storage : Category → List String
  | .necessary => ["functionality_storage", "security_storage"]
  | .analytics => ["analytics_storage"]
  | .marketing => ["ad_storage"]
  | .personalization => ["personalization_storage"]

namespace Consent

/-- A consent that allows nothing but what is necessary. -/
structure AllowsOnlyNecessary (c : Consent) : Prop where
  purposes : ∀ id, c.purposes.get? id = some true ↔ id = Purpose.necessary
  vendors : ∀ asked id, c.vendorAnswers asked id ≠ some true
  specialFeatures : ∀ id, c.specialFeatures.get? id ≠ some true

/-- A refusal of everything allows only what is necessary, whenever it was first given. -/
theorem allowsOnlyNecessary_rejectAll (created : Option Moment) (now : Moment) :
    AllowsOnlyNecessary { rejectAll (Vendor.known.map (·.1)) now with created := created } := by
  have hrefused (ids : List Int) (id : Int) : (Answers.all false ids).get? id ≠ some true := by
    rw [Answers.all, Answers.get?_ofPairs fun _ => false]
    split
    · nofun
    · nofun
  refine ⟨fun id => ?_, fun asked id => ?_, hrefused _⟩
  · have hnodup : (Answers.ids (Purpose.known.map fun p => (p.1, p.1 == Purpose.necessary))).Nodup := by decide
    refine (Answers.mem_iff_get? hnodup).symm.trans ⟨fun hmem => ?_, ?_⟩
    · obtain ⟨p, -, heq⟩ := List.mem_map.1 hmem
      obtain ⟨rfl, hallowed⟩ := Prod.mk.inj heq
      exact eq_of_beq hallowed
    · rintro rfl
      decide
  · have hvendor := hrefused (Vendor.known.map (·.1)) id
    cases asked with
    | none => exact hvendor
    | some asked =>
      have hanswer : ((Answers.all false (Vendor.known.map (·.1))).get? id).getD false = false := by
        cases hget : (Answers.all false (Vendor.known.map (·.1))).get? id with
        | none => rfl
        | some allowed =>
          rw [hget] at hvendor
          simpa using hvendor
      change (if id ∈ asked then some _ else none) ≠ some true
      split
      · intro h
        exact absurd (hanswer.symm.trans (Option.some.inj h)) (by decide)
      · nofun

theorem grant_eq_granted_iff {allowed : Bool} : grant allowed = .str "granted" ↔ allowed = true := by
  cases allowed with
  | false => simp [grant]
  | true => simp [grant]

/-- A kind of storage is granted just when all purposes of its category are allowed. -/
theorem mode_grants_iff {c : Consent} (h : c.purposes.get? Purpose.necessary = some true) {category : Category}
    {storage : String} (hs : storage ∈ category.storage) :
    c.mode.get? storage = some (.str "granted") ↔
      ∀ id ∈ category.purposes, c.purposes.get? id = some true := by
  have hnecessary : c.allows .necessary = true := by
    rw [allows_iff]
    intro id hid
    rwa [List.mem_singleton.1 hid]
  have hmode : c.mode.get? storage = some (grant (c.allows category)) := by
    cases category with
    | necessary =>
      rw [hnecessary]
      obtain rfl | hs := List.mem_cons.1 hs
      · rfl
      · obtain rfl := List.mem_singleton.1 hs
        rfl
    | _ =>
      obtain rfl := List.mem_singleton.1 hs
      rfl
  rw [hmode, Option.some_inj, grant_eq_granted_iff, allows_iff]

end Consent

namespace Signal

/-- An answer of the consent interface that tells of a consent, and of the vendors asked about. -/
structure Tells (data : Json) (c : Consent) (vendors : Int → Option Bool) : Prop where
  purposes : data.TellsAt (c.purposes.get? ·) ["purpose", "consents"]
  interests : data.TellsAt (fun id => if id ∈ Purpose.legitimateInterest then c.purposes.get? id else none)
    ["purpose", "legitimateInterests"]
  asked : data.TellsAt vendors ["vendor", "consents"]
  askedInterests : data.TellsAt vendors ["vendor", "legitimateInterests"]
  specialFeatures : data.TellsAt (c.specialFeatures.get? ·) ["specialFeatureOptins"]

theorem tells_selectVendors {c : Consent} (h : c.IsDistinct) (asked : Option (List Int)) :
    (selectVendors c.vendors asked).sorted.json.Tells (c.vendorAnswers asked) := by
  cases asked with
  | none => exact Json.tells_sorted h.vendors
  | some asked =>
    have htells := Json.tells_sorted
      (Answers.nodup_ofPairs (asked.map fun id => (id, (c.vendors.get? id).getD false)))
    simp only [Answers.get?_ofPairs fun id => (c.vendors.get? id).getD false] at htells
    exact htells

/-- The interface tells of the consent, whatever it tells it for. -/
theorem Api.tells_data (a : Api) {c : Consent} (h : c.IsDistinct) (eventStatus : String)
    (asked : Option (List Int)) (listenerId : Option Int) :
    Tells (a.data (some c) eventStatus asked listenerId) c (c.vendorAnswers asked) := by
  have hvendors := tells_selectVendors h asked
  refine ⟨⟨_, rfl, _, rfl, Json.tells_sorted h.purposes⟩, ⟨_, rfl, _, rfl, ?_⟩, ⟨_, rfl, _, rfl, hvendors⟩,
    ⟨_, rfl, _, rfl, hvendors⟩, ⟨_, rfl, Json.tells_sorted h.specialFeatures⟩⟩
  have hinterests : (Answers.ids (c.purposes.filter fun f => Purpose.legitimateInterest.contains f.1)).Nodup :=
    h.purposes.sublist (List.filter_sublist.map _)
  have htells := Json.tells_sorted hinterests
  simp only [Answers.get?_filter (Purpose.legitimateInterest.contains ·)] at htells
  simp only [List.contains_iff_mem] at htells
  exact htells

/-- A question about given vendors. -/
theorem requestedVendors_ints {ids : List Int} (h : ids ≠ []) :
    requestedVendors (.arr (ids.map .int)) = .ok (some ids) := by
  have hset : (Json.arr (ids.map .int)).isSet = true := by
    cases ids with
    | nil => exact absurd rfl h
    | cons id rest => rfl
  have hmembers : (Json.arr (ids.map .int)).members = .ok (ids.map .int) := by
    rw [Json.members, if_pos hset]
    rfl
  have hints : (ids.map Json.int).mapM Json.integer = .ok ids := by
    have heach : Json.integer ∘ Json.int = fun id => (pure id : Except Fault Int) := rfl
    rw [List.mapM_map, heach, List.mapM_pure, List.map_id']
    rfl
  rw [requestedVendors, if_pos hset, hmembers]
  change (do return some (← (ids.map Json.int).mapM Json.integer)) = _
  rw [hints]
  rfl

/-- Who asks for the data of some vendors is told of the consent and of those vendors. -/
theorem Api.call_getTCData (a : Api) (consent : Option Consent) {version : Json} (hv : isSupported version)
    (l : Listener) {ids : List Int} (h : ids ≠ []) :
    (a.call consent (.str "getTCData") version (some l) (.arr (ids.map .int))).events =
      [l.event (a.data consent "tcloaded" (some ids) none) true] := by
  have hcall : a.call consent (.str "getTCData") version (some l) (.arr (ids.map .int)) =
      a.answerData consent l (.arr (ids.map .int)) := by
    rw [call, if_neg (by simp [hv])]
  rw [hcall, answerData, requestedVendors_ints h]
  rfl

end Signal

end ConsentBanner
