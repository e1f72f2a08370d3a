import ConsentBanner.Configuration.Source
import ConsentBanner.Proofs.Outcome
import ConsentBanner.Proofs.Schema.Total

/-!
What becomes of configurations that cannot be loaded. Wrong values and wrong names of settings never do harm, since the
default configuration stands in for such settings. It does not for files that are no YAML, nor for documents whose parts do
not fit together.
-/

namespace ConsentBanner

open Reader Checked

theorem Limits.total_read : Total Limits.read := by
  apply total_model
  intro fields
  have least {keys : List String} {default : Int} : (field fields keys default (intAtLeast 1)).Faultless :=
    (total_intAtLeast 1).field fields keys default
  simp only [faultless_seq, faultless_map, least, and_self]

theorem OptionDefaults.total_read : Total OptionDefaults.read := by
  apply total_model
  intro fields
  have flag {keys : List String} {default : Bool} : (field fields keys default bool).Faultless :=
    total_bool.field fields keys default
  have text {keys : List String} {default : String} : (field fields keys default string).Faultless :=
    total_string.field fields keys default
  have days {keys : List String} {default : Int} : (field fields keys default (intAtLeast 1)).Faultless :=
    (total_intAtLeast 1).field fields keys default
  simp only [faultless_seq, faultless_map, flag, text, days, and_self]

theorem Identity.total_read : Total Identity.read := by
  apply total_model
  intro fields
  have number {keys : List String} {default : Int} : (field fields keys default int).Faultless :=
    total_int.field fields keys default
  have text {keys : List String} {default : String} : (field fields keys default string).Faultless :=
    total_string.field fields keys default
  simp only [faultless_seq, faultless_map, number, text, and_self]

theorem Configuration.total_read : Total Configuration.read := by
  apply total_model
  intro fields
  have environment := total_string.field fields ["environment"] "development"
  have limits := Limits.total_read.field fields ["limits"] {}
  have defaults := OptionDefaults.total_read.field fields ["defaults"] {}
  have identity := Identity.total_read.field fields ["cmp"] {}
  simp only [faultless_seq, faultless_map, environment, limits, defaults, identity, and_self]

namespace Source

variable {s : Source} {environment base : String}

theorem merge_eq_ok_obj {under upper : Json} {fields : List (String × Json)} :
    Json.merge under upper = .ok (.obj fields) ↔
      ∃ lower above, under = .obj lower ∧ upper = .obj above ∧ fields = Fields.overlay lower above := by
  constructor
  · intro h
    unfold Json.merge at h
    split at h
    · cases h
      exact ⟨_, _, rfl, rfl, rfl⟩
    · cases h
    · cases h
    · cases h
    · cases h
    · cases h
  · rintro ⟨lower, above, rfl, rfl, rfl⟩
    rfl

/-- Parts that do not fit together are no matter of their values. -/
theorem merge_ne_badValue {under upper : Json} : Json.merge under upper ≠ .error .badValue := by
  intro h
  unfold Json.merge at h
  split at h
  all_goals cases h

theorem fields_eq_ok {v : Json} {all : List (String × Json)} : fields v = .ok all ↔ v = .obj all := by
  constructor
  · intro h
    unfold fields at h
    split at h
    · cases h
      rfl
    · cases h
    · cases h
    · cases h
  · rintro rfl
    rfl

theorem fields_ne_badValue {v : Json} : fields v ≠ .error .badValue := by
  intro h
  unfold fields at h
  split at h
  all_goals cases h

theorem block?_ne_badValue {v : Json} : block? environment v ≠ .error .badValue := by
  intro h
  unfold block? at h
  split at h
  · cases h
  · split at h
    all_goals cases h
  · split at h
    all_goals cases h
  · split at h
    all_goals cases h
  · cases h

/-- The fields of the base file, with those of the file of the environment over them when there is one. A document in
which nothing is set counts as an object without fields. -/
inductive Joined (s : Source) (environment base : String) : List (String × Json) → Prop
  | alone {lower : List (String × Json)} (hbase : document base = .ok (.obj lower))
      (hnone : Fields.get? ("generator." ++ environment ++ ".yaml") s.files = none) : Joined s environment base lower
  | layered {layer : String} {lower above : List (String × Json)} (hbase : document base = .ok (.obj lower))
      (hlayer : Fields.get? ("generator." ++ environment ++ ".yaml") s.files = some layer)
      (habove : document layer = .ok (.obj above)) : Joined s environment base (Fields.overlay lower above)

/-- One of the files holds a scalar that has no value. -/
inductive HasBadScalar (s : Source) (environment base : String) : Prop
  | base (h : Yaml.parse base = .error .badValue)
  | layer {v : Json} {layer : String} (hbase : Yaml.parse base = .ok v)
      (hlayer : Fields.get? ("generator." ++ environment ++ ".yaml") s.files = some layer)
      (h : Yaml.parse layer = .error .badValue)

/-- What stands for the blocks of environments leads to the settings of one of them: an object in which the environment has
an object or nothing, or a list, a set or a text that the environment is no part of. -/
inductive Selects (environment : String) : Json → Prop
  | blocks {blocks : List (String × Json)}
      (h : ∀ v, Fields.get? environment blocks = some v → ∃ own, v = .obj own) : Selects environment (.obj blocks)
  | items {items : List Json} (h : ∀ v ∈ items, Json.same (.str environment) v = false) : Selects environment (.arr items)
  | members {members : List Json} (h : ∀ v ∈ members, Json.same (.str environment) v = false) :
      Selects environment (.set members)
  | text {t : String} (h : Text.contains environment t = false) : Selects environment (.str t)

/-- The fields of the files together. -/
def joined (s : Source) (environment base : String) : Except Fault (List (String × Json)) := do
  let lower ← document base
  match Fields.get? ("generator." ++ environment ++ ".yaml") s.files with
  | none => fields lower
  | some layer => do fields (← lower.merge (← document layer))

/-- The settings of an environment among all fields. -/
def selected (environment : String) (all : List (String × Json)) : Except Fault (List (String × Json)) := do
  match ← block? environment (orEmpty ((Fields.get? "environments" all).getD .null)) with
  | none => return Fields.erase "environments" all
  | some block => fields (← Json.merge (.obj (Fields.erase "environments" all)) block)

theorem settings_eq : s.settings environment base =
    s.joined environment base >>= fun all =>
      selected environment all >>= fun own => pure (Fields.overlay own s.overrides) := by
  have hselected (all : List (String × Json)) : (do
      match ← block? environment (orEmpty ((Fields.get? "environments" all).getD .null)) with
      | none => pure (Fields.overlay (Fields.erase "environments" all) s.overrides)
      | some block => do
        let own ← (Json.merge (.obj (Fields.erase "environments" all)) block).bind fields
        pure (Fields.overlay own s.overrides)) =
      selected environment all >>= fun own => pure (Fields.overlay own s.overrides) := by
    unfold selected
    rw [bind_assoc]
    congr 1
    funext block
    cases block with
    | none => rfl
    | some block => rfl
  unfold settings joined
  rw [bind_assoc]
  congr 1
  funext lower
  cases Fields.get? ("generator." ++ environment ++ ".yaml") s.files with
  | none =>
    simp only [pure_bind]
    congr 1
    funext all
    exact hselected all
  | some layer =>
    simp only [bind_assoc]
    congr 1
    funext above
    congr 1
    funext merged
    congr 1
    funext all
    exact hselected all

theorem joined_eq_ok {all : List (String × Json)} : s.joined environment base = .ok all ↔ Joined s environment base all := by
  constructor
  · intro h
    obtain ⟨lower, hbase, h⟩ := bind_eq_ok.1 h
    split at h
    · rename_i hnone
      cases fields_eq_ok.1 h
      exact .alone hbase hnone
    · rename_i layer hlayer
      obtain ⟨above, habove, h⟩ := bind_eq_ok.1 h
      obtain ⟨merged, hmerged, h⟩ := bind_eq_ok.1 h
      cases fields_eq_ok.1 h
      obtain ⟨lower, above, rfl, rfl, rfl⟩ := merge_eq_ok_obj.1 hmerged
      exact .layered hbase hlayer habove
  · intro h
    unfold joined
    cases h with
    | alone hbase hnone =>
      rw [hbase, hnone]
      rfl
    | layered hbase hlayer habove =>
      rw [hbase, hlayer]
      change document _ >>= _ = _
      rw [habove]
      rfl

theorem document_eq_ok {text : String} : (∃ v, document text = .ok v) ↔ ∃ v, Yaml.parse text = .ok v := by
  unfold document
  cases Yaml.parse text with
  | ok v => simp [Except.map]
  | error f => simp [Except.map]

theorem document_eq_error {text : String} {f : Fault} : document text = .error f ↔ Yaml.parse text = .error f := by
  unfold document
  cases Yaml.parse text with
  | ok v => simp [Except.map]
  | error f => simp [Except.map]

theorem joined_eq_badValue : s.joined environment base = .error .badValue ↔ HasBadScalar s environment base := by
  constructor
  · intro h
    obtain h | ⟨lower, hbase, h⟩ := bind_eq_error.1 h
    · exact .base (document_eq_error.1 h)
    · obtain ⟨v, hv⟩ := document_eq_ok.1 ⟨lower, hbase⟩
      split at h
      · exact absurd h fields_ne_badValue
      · rename_i layer hlayer
        obtain h | ⟨above, -, h⟩ := bind_eq_error.1 h
        · exact .layer hv hlayer (document_eq_error.1 h)
        · obtain h | ⟨merged, -, h⟩ := bind_eq_error.1 h
          · exact absurd h merge_ne_badValue
          · exact absurd h fields_ne_badValue
  · intro h
    unfold joined
    cases h with
    | base h =>
      rw [document_eq_error.2 h]
      rfl
    | layer hbase hlayer h =>
      obtain ⟨lower, hlower⟩ := document_eq_ok.2 ⟨_, hbase⟩
      rw [hlower, hlayer]
      change document _ >>= _ = _
      rw [document_eq_error.2 h]
      rfl

theorem any_same_eq_false {items : List Json} :
    items.any (Json.same (.str environment)) = false ↔ ∀ v ∈ items, Json.same (.str environment) v = false := by
  simp only [List.any_eq_false, Bool.not_eq_true]

/-- The block of the environment can be found, and laid over the other fields. -/
theorem selects_iff {v : Json} :
    Selects environment v ↔ ∃ block, block? environment v = .ok block ∧ ∀ b, block = some b → ∃ own, b = .obj own := by
  constructor
  · intro h
    cases h with
    | blocks h => exact ⟨_, rfl, h⟩
    | items h =>
      refine ⟨none, ?_, nofun⟩
      rw [block?, any_same_eq_false.2 h]
      rfl
    | members h =>
      refine ⟨none, ?_, nofun⟩
      rw [block?, any_same_eq_false.2 h]
      rfl
    | text h =>
      refine ⟨none, ?_, nofun⟩
      rw [block?, h]
      rfl
  · rintro ⟨block, h, hblock⟩
    unfold block? at h
    split at h
    · cases Except.ok.inj h
      exact .blocks hblock
    · split at h
      · cases h
      · rename_i hitems
        exact .items (any_same_eq_false.1 (Bool.not_eq_true _ ▸ hitems))
    · split at h
      · cases h
      · rename_i hmembers
        exact .members (any_same_eq_false.1 (Bool.not_eq_true _ ▸ hmembers))
    · split at h
      · cases h
      · rename_i htext
        exact .text (Bool.not_eq_true _ ▸ htext)
    · cases h

theorem selected_isOk {all : List (String × Json)} : (∃ own, selected environment all = .ok own) ↔
    Selects environment (orEmpty ((Fields.get? "environments" all).getD .null)) := by
  rw [selects_iff]
  constructor
  · rintro ⟨own, h⟩
    obtain ⟨block, hblock, h⟩ := bind_eq_ok.1 h
    refine ⟨block, hblock, ?_⟩
    rintro b rfl
    obtain ⟨merged, hmerged, h⟩ := bind_eq_ok.1 h
    cases fields_eq_ok.1 h
    obtain ⟨-, own, -, rfl, -⟩ := merge_eq_ok_obj.1 hmerged
    exact ⟨own, rfl⟩
  · rintro ⟨block, hblock, hown⟩
    unfold selected
    rw [hblock]
    cases block with
    | none => exact ⟨_, rfl⟩
    | some b =>
      obtain ⟨own, rfl⟩ := hown b rfl
      exact ⟨_, rfl⟩

theorem selected_ne_badValue {all : List (String × Json)} : selected environment all ≠ .error .badValue := by
  intro h
  obtain h | ⟨block, -, h⟩ := bind_eq_error.1 h
  · exact block?_ne_badValue h
  · cases block with
    | none => cases h
    | some block =>
      obtain h | ⟨merged, -, h⟩ := bind_eq_error.1 h
      · exact merge_ne_badValue h
      · exact fields_ne_badValue h

theorem settings_isOk : (∃ own, s.settings environment base = .ok own) ↔
    ∃ all, Joined s environment base all ∧
      Selects environment (orEmpty ((Fields.get? "environments" all).getD .null)) := by
  rw [settings_eq]
  constructor
  · rintro ⟨_, h⟩
    obtain ⟨all, hall, h⟩ := bind_eq_ok.1 h
    obtain ⟨own, hown, -⟩ := bind_eq_ok.1 h
    exact ⟨all, joined_eq_ok.1 hall, selected_isOk.1 ⟨own, hown⟩⟩
  · rintro ⟨all, hall, hselects⟩
    obtain ⟨own, hown⟩ := selected_isOk.2 hselects
    rw [joined_eq_ok.2 hall]
    change ∃ own, selected environment all >>= _ = _
    rw [hown]
    exact ⟨_, rfl⟩

theorem settings_eq_badValue : s.settings environment base = .error .badValue ↔ HasBadScalar s environment base := by
  rw [settings_eq, ← joined_eq_badValue]
  constructor
  · intro h
    obtain h | ⟨all, -, h⟩ := bind_eq_error.1 h
    · exact h
    · obtain h | ⟨own, -, h⟩ := bind_eq_error.1 h
      · exact absurd h selected_ne_badValue
      · cases h
  · intro h
    rw [h]
    rfl

/-- Loading the configuration of an environment ends with one, or in a way that the default configuration is the answer
to. -/
inductive Settles (s : Source) (environment : String) : Prop
  | missing (hbase : Fields.get? "generator.yaml" s.files = none)
  | badScalar {base : String} (hbase : Fields.get? "generator.yaml" s.files = some base)
      (hbad : HasBadScalar s environment base)
  | settings {base : String} {all : List (String × Json)} (hbase : Fields.get? "generator.yaml" s.files = some base)
      (hall : Joined s environment base all)
      (hselects : Selects environment (orEmpty ((Fields.get? "environments" all).getD .null)))

/-- The held configuration is asked for again. -/
def Held (held : Option Configuration) (requested : Option String) (force : Bool) (c : Configuration) : Prop :=
  held = some c ∧ force = false ∧ ∀ environment, requested = some environment → environment = c.environment

theorem load_of_missing {requested : Option String} (hbase : Fields.get? "generator.yaml" s.files = none) :
    s.load requested = .error .missing := by
  unfold load
  rw [hbase]
  rfl

theorem load_of_settings_error {requested : Option String} {f : Fault}
    (hbase : Fields.get? "generator.yaml" s.files = some base)
    (h : s.settings (Text.orDefault requested s.environment) base = .error f) : s.load requested = .error (.fault f) := by
  unfold load
  rw [hbase]
  dsimp only
  rw [h, mapError_error]
  rfl

/-- Settings lead to a configuration, or to an error that the default configuration stands in for. -/
theorem hasDefault_of_settings {requested : Option String} {own : List (String × Json)} {e : LoadError}
    (hbase : Fields.get? "generator.yaml" s.files = some base)
    (h : s.settings (Text.orDefault requested s.environment) base = .ok own) (he : s.load requested = .error e) :
    e.hasDefault = true := by
  unfold load at he
  rw [hbase] at he
  dsimp only at he
  rw [h, mapError_ok] at he
  obtain he | ⟨fields, -, he⟩ := bind_eq_error.1 he
  · cases he
  · split at he
    · cases he
      rfl
    · split at he
      · cases he
      · cases he
        rfl
      · rename_i hread
        exact absurd hread (Configuration.total_read _ _)

theorem settles_iff {requested : Option String} : Settles s (Text.orDefault requested s.environment) ↔
    ∀ e, s.load requested = .error e → e.hasDefault = true := by
  constructor
  · intro h e he
    cases h with
    | missing hbase =>
      rw [load_of_missing hbase] at he
      cases he
      rfl
    | badScalar hbase hbad =>
      rw [load_of_settings_error hbase (settings_eq_badValue.2 hbad)] at he
      cases he
      rfl
    | settings hbase hall hselects =>
      obtain ⟨own, hown⟩ := settings_isOk.2 ⟨_, hall, hselects⟩
      exact hasDefault_of_settings hbase hown he
  · intro h
    cases hbase : Fields.get? "generator.yaml" s.files with
    | none => exact .missing hbase
    | some base =>
      cases hown : s.settings (Text.orDefault requested s.environment) base with
      | ok own =>
        obtain ⟨all, hall, hselects⟩ := settings_isOk.1 ⟨own, hown⟩
        exact .settings hbase hall hselects
      | error f =>
        have hdefault := h _ (load_of_settings_error hbase hown)
        have hf : f = .badValue := beq_iff_eq.1 hdefault
        rw [hf] at hown
        exact .badScalar hbase (settings_eq_badValue.1 hown)

theorem eq_fault_of_hasDefault {e : LoadError} (h : e.hasDefault = false) : ∃ f, e = .fault f ∧ f ≠ .badValue := by
  cases e with
  | missing => cases h
  | fault f => exact ⟨f, rfl, beq_eq_false_iff_ne.1 h⟩
  | invalid issues => cases h
  | foreignKey => cases h

theorem filter_held_eq_some {held : Option Configuration} {requested : Option String} {force : Bool} {c : Configuration} :
    (held.filter fun c => !force && requested.all (· == c.environment)) = some c ↔ Held held requested force c := by
  cases requested with
  | none => simp [Held, Option.filter_eq_some_iff]
  | some environment => simp [Held, Option.filter_eq_some_iff]

/-- A list that does not end. -/
example : ({ files := [("generator.yaml", "a: [")] } : Source).load none = .error (.fault .unreadable) := by cbv

end Source

end ConsentBanner
