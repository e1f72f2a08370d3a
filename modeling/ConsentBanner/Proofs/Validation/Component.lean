import ConsentBanner.Proofs.Outcome
import ConsentBanner.Proofs.Schema
import ConsentBanner.Validation.Component

/-!
Components that fit, apart from those inside them, by the fields of raw objects and the names that stand in them.
-/

namespace ConsentBanner.Validation

/-- The value of a field, null when it is missing. -/
abbrev valueOf (key : String) (fields : List (String × Json)) : Json := (Fields.get? key fields).getD .null

theorem get?_of_valueOf {key : String} {fields : List (String × Json)} {v : Json} (h : valueOf key fields = v)
    (hv : v ≠ .null) : Fields.get? key fields = some v := by
  cases hget : Fields.get? key fields with
  | none =>
    rw [valueOf, hget] at h
    exact (hv h.symm).elim
  | some w =>
    rw [valueOf, hget] at h
    exact congrArg some h

theorem unless_eq_nil_iff {b : Bool} {c : Complaint} : (if b = true then [] else [c]) = [] ↔ b = true := by
  cases b <;> simp

theorem when_eq_nil_iff {b : Bool} {c : Complaint} : (if b = true then [c] else []) = [] ↔ b = false := by
  cases b <;> simp

/-- A value that is the name of a value of a type. -/
def IsNameOf (α : Type) [Named α] (v : Json) : Prop := ∃ a : α, v = .str (Named.name a)

theorem isNameOf_iff {α : Type} [Named α] [LawfulNamed α] {v : Json} {known : Bool}
    (h : isNameOf α v = .ok known) : known = true ↔ IsNameOf α v := by
  unfold isNameOf at h
  split at h
  · cases h
    rw [Named.isName_iff]
    constructor
    · rintro ⟨a, rfl⟩
      exact ⟨a, rfl⟩
    · rintro ⟨a, ha⟩
      exact ⟨a, (Json.str.inj ha).symm⟩
  · cases h
    simp [IsNameOf]
  · rename_i hs _
    split at h
    · cases h
      constructor
      · intro hf
        cases hf
      · rintro ⟨a, rfl⟩
        exact (hs _ rfl).elim
    · cases h

/-- A text that is not blank and not too long. Bytes count as texts of single-byte characters. -/
inductive TextFits (limits : Limits) : Json → Prop where
  | str {s : String} (hb : Text.isBlankText s = false) (hl : s.length ≤ limits.maxTextLength) :
      TextFits limits (.str s)
  | bytes {bs : List Nat} (hb : ∃ b ∈ bs, ¬ (b = 32 ∨ 9 ≤ b ∧ b ≤ 13)) (hl : bs.length ≤ limits.maxTextLength) :
      TextFits limits (.bytes bs)

/-- An action whose control has a label of its own. -/
def Bypasses (action : Json) : Prop :=
  ∃ a : ActionKind, action = .str (Named.name a) ∧ a.defaultLabel?.isSome = true

/-- An offset is not given, a number, empty, a percentage, or a number of pixels. -/
inductive OffsetFits : Json → Prop where
  | null : OffsetFits .null
  | int (n : Int) : OffsetFits (.int n)
  | float (x : Double) : OffsetFits (.float x)
  | empty : OffsetFits (.str "")
  | percentage (s : String) : OffsetFits (.str (s ++ "%"))
  | pixels (s : String) : OffsetFits (.str (s ++ "px"))

/-- A position is not given, or has offsets for devices that fit. -/
def PositionFits (v : Json) : Prop :=
  v = .null ∨ ∃ position, v = .obj position ∧ ∀ (d : Device) (side : Side) offsets offset,
    Fields.get? (Named.name d) position = some (.obj offsets) →
      Fields.get? (Named.name side) offsets = some offset → OffsetFits offset

/-- What is asked of the fields of a component, whatever is inside it. -/
structure FieldsFit (limits : Limits) (fields : List (String × Json)) : Prop where
  id : (valueOf "id" fields).isSet = true
  kind : IsNameOf ComponentKind (valueOf "type" fields)
  action : valueOf "action" fields = .null ∨ IsNameOf ActionKind (actionOf fields)
  text : ∀ kind : ComponentKind, valueOf "type" fields = .str (Named.name kind) → kind.bearsText = true →
    ¬ Bypasses (actionOf fields) → ∃ t, rawText (valueOf "content" fields) = .ok t ∧ TextFits limits t
  position : PositionFits (valueOf "position" fields)

theorem endsWith_percent_iff {s : String} : s.toList.getLast? = some '%' ↔ ∃ t, s = t ++ "%" := by
  rw [List.getLast?_eq_some_iff]
  constructor
  · rintro ⟨l, hl⟩
    exact ⟨String.ofList l, String.toList_inj.1 (by simp [hl])⟩
  · rintro ⟨t, rfl⟩
    exact ⟨t.toList, by simp⟩

theorem endsWith_pixels_iff {s : String} :
    "xp".toList.isPrefixOf s.toList.reverse = true ↔ ∃ t, s = t ++ "px" := by
  rw [ List.isPrefixOf_iff_prefix]
  change "px".toList.reverse <+: s.toList.reverse ↔ _
  rw [ List.reverse_prefix]
  constructor
  · rintro ⟨l, hl⟩
    exact ⟨String.ofList l, String.toList_inj.1 (by simp [← hl])⟩
  · rintro ⟨t, rfl⟩
    exact ⟨t.toList, by simp⟩

theorem isOffset_iff {v : Json} : isOffset v = true ↔ OffsetFits v := by
  cases v with
  | null => exact ⟨fun _ => .null, fun _ => rfl⟩
  | int n => exact ⟨fun _ => .int n, fun _ => rfl⟩
  | float x => exact ⟨fun _ => .float x, fun _ => rfl⟩
  | str s =>
    simp only [isOffset, Bool.or_eq_true, String.isEmpty_iff, beq_iff_eq, endsWith_percent_iff,
      endsWith_pixels_iff]
    constructor
    · rintro ((rfl | ⟨t, rfl⟩) | ⟨t, rfl⟩)
      · exact .empty
      · exact .percentage t
      · exact .pixels t
    · intro h
      cases h with
      | empty => exact .inl (.inl rfl)
      | percentage t => exact .inl (.inr ⟨t, rfl⟩)
      | pixels t => exact .inr ⟨t, rfl⟩
  | _ =>
    constructor
    · intro h
      cases h
    · intro h
      cases h

theorem checkOffsets_eq_nil_iff {path : Path} {position : List (String × Json)} :
    checkOffsets path position = [] ↔ ∀ (d : Device) (side : Side) offsets offset,
      Fields.get? (Named.name d) position = some (.obj offsets) →
        Fields.get? (Named.name side) offsets = some offset → OffsetFits offset := by
  simp only [checkOffsets, List.flatMap_eq_nil_iff]
  constructor
  · intro h d side offsets offset ho hs
    have hd := h d (by cases d <;> decide)
    rw [ho] at hd
    have hv := List.filterMap_eq_nil_iff.1 hd side (by cases side <;> decide)
    rw [hs] at hv
    rw [← isOffset_iff]
    simpa using hv
  · intro h d _
    split
    · rename_i offsets ho
      rw [List.filterMap_eq_nil_iff]
      intro side _
      split
      · rename_i v hv
        simp [isOffset_iff.2 (h d side offsets v ho hv)]
      · rfl
    · rfl

theorem checkPosition_eq_nil_iff {path : Path} {fields : List (String × Json)} :
    checkPosition path fields = [] ↔ PositionFits (valueOf "position" fields) := by
  simp only [checkPosition, PositionFits]
  split
  · rename_i position hp
    simp [hp, checkOffsets_eq_nil_iff]
  · rename_i hp
    simp [hp]
  · rename_i ho hn
    simp only [reduceCtorEq, false_iff, not_or, not_exists, not_and]
    exact ⟨hn, fun position hp => (ho position hp).elim⟩

theorem checkKind_eq_nil_iff {path : Path} {fields : List (String × Json)} {cs : List Complaint}
    (h : checkKind path fields = .ok cs) : cs = [] ↔ IsNameOf ComponentKind (valueOf "type" fields) := by
  simp only [checkKind, bind_eq_ok] at h
  obtain ⟨known, hk, h⟩ := h
  cases h
  rw [unless_eq_nil_iff, isNameOf_iff hk]

theorem checkAction_eq_nil_iff {path : Path} {fields : List (String × Json)} {cs : List Complaint}
    (h : checkAction path fields = .ok cs) :
    cs = [] ↔ valueOf "action" fields = .null ∨ IsNameOf ActionKind (actionOf fields) := by
  simp only [checkAction] at h
  split at h
  · rename_i hn
    cases h
    cases hv : (Fields.get? "action" fields).getD .null with
    | null => simp [hv]
    | _ => simp [hv, Json.isNull] at hn
  · rename_i hn
    obtain ⟨known, hk, h⟩ := bind_eq_ok.1 h
    cases h
    have hv : valueOf "action" fields ≠ .null := by
      intro hv
      simp [hv, Json.isNull] at hn
    rw [unless_eq_nil_iff, isNameOf_iff hk]
    simp [hv]

theorem bypassesText_iff {action : Json} : bypassesText action = true ↔ Bypasses action := by
  cases action with
  | str s =>
    simp only [bypassesText, Bypasses]
    constructor
    · intro h
      obtain ⟨label, hl⟩ := Option.isSome_iff_exists.1 h
      obtain ⟨a, ha, hl⟩ := Option.bind_eq_some_iff.1 hl
      exact ⟨a, by rw [Named.name_of_ofName? ha], by simp [hl]⟩
    · rintro ⟨a, ha, hl⟩
      cases ha
      simpa [LawfulNamed.ofName?_name] using hl
  | _ => simp [bypassesText, Bypasses]

/-- The kind by whose rules the text of a component is checked. -/
theorem kindOf_eq_some_iff {fields : List (String × Json)} {kind : ComponentKind} :
    ((Fields.get? "type" fields).bind Json.asString?).bind (Named.ofName? : String → Option ComponentKind) =
      some kind ↔ valueOf "type" fields = .str (Named.name kind) := by
  unfold valueOf
  cases h : Fields.get? "type" fields with
  | none => simp
  | some v =>
    cases v with
    | str s =>
      simp only [Option.bind_some, Json.asString?, Option.getD_some, Json.str.injEq]
      constructor
      · intro hk
        exact (Named.name_of_ofName? hk).symm
      · rintro rfl
        exact LawfulNamed.ofName?_name kind
    | _ => simp [Json.asString?]

theorem TextFits.isSet {limits : Limits} {t : Json} (h : TextFits limits t) : t.isSet = true := by
  cases h with
  | str hb hl =>
    rename_i s
    cases hs : s.isEmpty with
    | true =>
      rw [String.isEmpty_iff.1 hs] at hb
      cases hb
    | false => simp [Json.isSet, hs]
  | bytes hb hl =>
    obtain ⟨b, hm, -⟩ := hb
    simp only [Json.isSet, Bool.not_eq_true', List.isEmpty_eq_false_iff]
    exact List.ne_nil_of_mem hm

theorem checkLength_eq_nil_iff {limits : Limits} {kind : ComponentKind} {path : Path} {t : Json}
    {cs : List Complaint} (h : checkLength limits kind path t = .ok cs) : cs = [] ↔ TextFits limits t := by
  unfold checkLength at h
  split at h
  · rename_i hs
    cases h
    simp only [reduceCtorEq, false_iff]
    intro hf
    simp [hf.isSet] at hs
  · split at h
    · rename_i s _
      split at h
      · rename_i hb
        cases h
        simp only [reduceCtorEq, false_iff]
        rintro ⟨hb', -⟩
        simp [hb'] at hb
      · rename_i hb
        simp only [Bool.not_eq_true] at hb
        split at h
        · rename_i hl
          cases h
          simp only [reduceCtorEq, false_iff]
          rintro ⟨-, hl'⟩
          omega
        · rename_i hl
          cases h
          exact ⟨fun _ => .str hb (by omega), fun _ => rfl⟩
    · rename_i bs _
      split at h
      · rename_i hb
        cases h
        simp only [reduceCtorEq, false_iff]
        rintro (_ | ⟨⟨b, hm, hn⟩, -⟩)
        simpa [hn] using List.all_eq_true.1 hb b hm
      · rename_i hb
        split at h
        · rename_i hl
          cases h
          simp only [reduceCtorEq, false_iff]
          rintro (_ | ⟨-, hl'⟩)
          omega
        · rename_i hl
          cases h
          refine ⟨fun _ => .bytes ?_ (by omega), fun _ => rfl⟩
          simpa using hb
    · cases h

theorem checkText_eq_nil_iff {limits : Limits} {path : Path} {fields : List (String × Json)}
    {cs : List Complaint} (h : checkText limits path fields = .ok cs) :
    cs = [] ↔ ∀ kind : ComponentKind, valueOf "type" fields = .str (Named.name kind) → kind.bearsText = true →
      ¬ Bypasses (actionOf fields) → ∃ t, rawText (valueOf "content" fields) = .ok t ∧ TextFits limits t := by
  simp only [checkText] at h
  split at h
  · rename_i kind hk
    have hn := kindOf_eq_some_iff.1 hk
    have hu : ∀ k : ComponentKind, valueOf "type" fields = .str (Named.name k) → k = kind := fun k hk' =>
      Option.some.inj ((kindOf_eq_some_iff.2 hk').symm.trans hk)
    split at h
    · rename_i hb
      cases h
      simp only [Bool.or_eq_true, Bool.not_eq_true', bypassesText_iff] at hb
      simp only [true_iff]
      intro k hk' ht hp
      cases hu k hk'
      rcases hb with hb | hb
      · simp [hb] at ht
      · exact (hp hb).elim
    · rename_i hb
      simp only [Bool.or_eq_true, Bool.not_eq_true', bypassesText_iff, not_or, Bool.not_eq_false] at hb
      obtain ⟨ht, hp⟩ := hb
      obtain ⟨t, hr, h⟩ := bind_eq_ok.1 h
      rw [checkLength_eq_nil_iff h]
      constructor
      · intro hfit k _ _ _
        exact ⟨t, hr, hfit⟩
      · intro hall
        obtain ⟨t', hr', hfit⟩ := hall kind hn ht hp
        cases hr.symm.trans hr'
        exact hfit
  · rename_i hk
    cases h
    simp only [true_iff]
    intro kind hn
    exact (hk kind (kindOf_eq_some_iff.2 hn)).elim

/-- An identifier that is set and differs from those before it is taken after it. -/
theorem checkId_spec {path : Path} {seen seen' : List Json} {fields : List (String × Json)}
    {cs : List Complaint} (h : checkId path seen fields = .ok (cs, seen')) :
    (cs = [] ↔ (valueOf "id" fields).isSet = true ∧ ∀ a ∈ seen, ¬ (valueOf "id" fields).same a = true) ∧
      (cs = [] → seen' = seen ++ [valueOf "id" fields]) := by
  simp only [checkId] at h
  split at h
  · rename_i hs
    cases h
    simp only [Bool.not_eq_true'] at hs
    simp [hs]
  · rename_i hs
    simp only [Bool.not_eq_true', Bool.not_eq_false] at hs
    split at h
    · cases h
    · split at h
      · rename_i ha
        cases h
        obtain ⟨a, hm, he⟩ := List.any_eq_true.1 ha
        refine ⟨⟨fun hn => ?_, fun hd => ?_⟩, fun hn => ?_⟩
        · cases hn
        · exact (hd.2 a hm he).elim
        · cases hn
      · rename_i ha
        cases h
        refine ⟨⟨fun _ => ⟨hs, ?_⟩, fun _ => rfl⟩, fun _ => rfl⟩
        intro a hm he
        exact ha (List.any_eq_true.2 ⟨a, hm, he⟩)

theorem checkComponent_spec {limits : Limits} {path : Path} {seen seen' : List Json}
    {fields : List (String × Json)} {cs : List Complaint}
    (h : checkComponent limits path seen fields = .ok (cs, seen')) :
    (cs = [] ↔ FieldsFit limits fields ∧ ∀ a ∈ seen, ¬ (valueOf "id" fields).same a = true) ∧
      (cs = [] → seen' = seen ++ [valueOf "id" fields]) := by
  simp only [checkComponent, bind_eq_ok, Prod.exists] at h
  obtain ⟨ids, seen'', hi, kinds, hk, actions, ha, texts, ht, h⟩ := h
  cases h
  obtain ⟨hid, hseen⟩ := checkId_spec hi
  simp only [List.append_eq_nil_iff, hid, checkKind_eq_nil_iff hk, checkAction_eq_nil_iff ha,
    checkText_eq_nil_iff ht, checkPosition_eq_nil_iff]
  constructor
  · constructor
    · rintro ⟨⟨⟨⟨⟨hs, hd⟩, hk⟩, ha⟩, ht⟩, hp⟩
      exact ⟨⟨hs, hk, ha, ht, hp⟩, hd⟩
    · rintro ⟨⟨hs, hk, ha, ht, hp⟩, hd⟩
      exact ⟨⟨⟨⟨⟨hs, hd⟩, hk⟩, ha⟩, ht⟩, hp⟩
  · rintro ⟨⟨⟨⟨he, -⟩, -⟩, -⟩, -⟩
    exact hseen (hid.2 he)

end ConsentBanner.Validation
