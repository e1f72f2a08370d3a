import ConsentBanner.Proofs.Validation.Component
import ConsentBanner.Validation.Theme

/-!
Themes and settings that fit.
-/

namespace ConsentBanner.Validation

/-- A colour that is given is the text of one. -/
def ColorFits (v : Json) : Prop := v.isSet = true → ∃ s, v = .str s ∧ isColor s = true

/-- Fonts of which one is given have a primary one. -/
def FontsFit (v : Json) : Prop :=
  v = .null ∨ ∃ fonts, v = .obj fonts ∧ ((∃ f ∈ fonts, f.2.isSet = true) → (valueOf "primary" fonts).isSet = true)

structure ThemeFits (theme : List (String × Json)) : Prop where
  colors : ∀ colors, Fields.get? "colors" theme = some (.obj colors) → ∀ f ∈ colors, ColorFits f.2.bare
  fonts : FontsFit (valueOf "fonts" theme)

/-- A number that is not negative. -/
def IsDuration (v : Json) : Prop := ∃ x, Number.ofJson? v = some x ∧ x.isNegative = false

structure AnimationFits (animation : List (String × Json)) : Prop where
  kind : IsNameOf AnimationKind (valueOf "type" animation)
  duration : IsDuration (valueOf "duration" animation)

/-- A policy has a switch and, under a key of its own, a time. -/
def PolicyFits (key : String) (v : Json) : Prop :=
  v = .null ∨ ∃ policy, v = .obj policy ∧ (∃ b, valueOf "enabled" policy = .bool b) ∧ IsDuration (valueOf key policy)

structure SettingsFit (settings : List (String × Json)) : Prop where
  animation : valueOf "animation" settings = .null ∨
    ∃ animation, valueOf "animation" settings = .obj animation ∧ AnimationFits animation
  policies : ∀ policies, Fields.get? "behaviour" settings = some (.obj policies) →
    PolicyFits "delay" (valueOf "autoHide" policies) ∧ PolicyFits "interval" (valueOf "reshow" policies)

theorem isDuration_iff {v : Json} : isDuration v = true ↔ IsDuration v := by
  unfold isDuration IsDuration
  split
  · rename_i x hx
    simp [hx]
  · rename_i hx
    simp [hx]

theorem checkColor_eq_nil_iff {f : String × Json} : checkColor f = [] ↔ ColorFits f.2.bare := by
  simp only [checkColor, ColorFits]
  split
  · rename_i s hs
    simp only [hs, Json.isSet, Json.str.injEq, exists_eq_left', ite_eq_left_iff, reduceCtorEq, imp_false,
      Decidable.not_not, Bool.or_eq_true, Bool.not_eq_true']
    cases s.isEmpty <;> simp
  · rename_i hn
    constructor
    · intro he hs
      simp [hs] at he
    · intro hs
      rw [ite_eq_right_iff]
      intro hv
      obtain ⟨s, hs, -⟩ := hs hv
      exact (hn s hs).elim

theorem lacksPrimaryFont_eq_false_iff {v : Json} : lacksPrimaryFont v = false ↔ FontsFit v := by
  cases v with
  | null => simp [lacksPrimaryFont, FontsFit]
  | obj fonts =>
    simp only [lacksPrimaryFont, FontsFit, reduceCtorEq, Json.obj.injEq, exists_eq_left', false_or]
    cases h : fonts.any (·.2.isSet) with
    | false =>
      have hn : ¬ ∃ f ∈ fonts, f.2.isSet = true := by
        rintro ⟨f, hf, hs⟩
        rw [List.any_eq_false] at h
        exact h f hf hs
      simp [hn]
    | true =>
      have he := List.any_eq_true.1 h
      simp [he]
  | _ => simp [lacksPrimaryFont, FontsFit]

theorem checkTheme_eq_nil_iff {v : Json} :
    checkTheme v = [] ↔ v = .null ∨ ∃ theme, v = .obj theme ∧ ThemeFits theme := by
  cases v with
  | null => simp [checkTheme]
  | obj theme =>
    simp only [checkTheme, List.append_eq_nil_iff, reduceCtorEq, Json.obj.injEq, exists_eq_left', false_or]
    rw [when_eq_nil_iff, lacksPrimaryFont_eq_false_iff]
    constructor
    · rintro ⟨hc, hf⟩
      refine ⟨fun colors he f hm => ?_, hf⟩
      rw [he] at hc
      exact checkColor_eq_nil_iff.1 (List.flatMap_eq_nil_iff.1 hc f hm)
    · rintro ⟨hc, hf⟩
      refine ⟨?_, hf⟩
      split
      · rename_i colors he
        exact List.flatMap_eq_nil_iff.2 fun f hm => checkColor_eq_nil_iff.2 (hc colors he f hm)
      · rfl
  | _ => simp [checkTheme]

theorem checkAnimation_eq_nil_iff {v : Json} {cs : List Complaint} (h : checkAnimation v = .ok cs) :
    cs = [] ↔ v = .null ∨ ∃ animation, v = .obj animation ∧ AnimationFits animation := by
  cases v with
  | null =>
    cases h
    simp
  | obj animation =>
    simp only [checkAnimation, bind_eq_ok] at h
    obtain ⟨known, hk, h⟩ := h
    cases h
    simp only [List.append_eq_nil_iff, unless_eq_nil_iff, isNameOf_iff hk, isDuration_iff, reduceCtorEq,
      Json.obj.injEq, exists_eq_left', false_or]
    exact ⟨fun he => ⟨he.1, he.2⟩, fun hf => ⟨hf.kind, hf.duration⟩⟩
  | _ =>
    cases h
    simp

theorem checkPolicy_eq_nil_iff {policy key : String} {v : Json} :
    checkPolicy policy key v = [] ↔ PolicyFits key v := by
  cases v with
  | null => simp [checkPolicy, PolicyFits]
  | obj fields =>
    simp only [checkPolicy, List.append_eq_nil_iff, unless_eq_nil_iff, isDuration_iff, PolicyFits, reduceCtorEq,
      Json.obj.injEq, exists_eq_left', false_or]
    apply and_congr_left'
    change _ ↔ ∃ b, (Json.obj fields).getD "enabled" = .bool b
    split
    · rename_i b hb
      simp [hb]
    · rename_i hn
      simp only [reduceCtorEq, false_iff, not_exists]
      exact hn
  | _ => simp [checkPolicy, PolicyFits, Json.getD, Json.get?]

theorem checkSettings_eq_nil_iff {v : Json} {cs : List Complaint} (h : checkSettings v = .ok cs) :
    cs = [] ↔ v = .null ∨ ∃ settings, v = .obj settings ∧ SettingsFit settings := by
  cases v with
  | null =>
    cases h
    simp
  | obj settings =>
    simp only [checkSettings, bind_eq_ok] at h
    obtain ⟨animation, ha, h⟩ := h
    cases h
    simp only [List.append_eq_nil_iff, checkAnimation_eq_nil_iff ha, reduceCtorEq, Json.obj.injEq,
      exists_eq_left', false_or]
    constructor
    · rintro ⟨ha, hb⟩
      refine ⟨ha, fun policies he => ?_⟩
      rw [he] at hb
      simpa [checkPolicy_eq_nil_iff] using hb
    · rintro ⟨ha, hb⟩
      refine ⟨ha, ?_⟩
      split
      · rename_i policies he
        simpa [checkPolicy_eq_nil_iff] using hb policies he
      · rfl
  | _ =>
    cases h
    simp

end ConsentBanner.Validation
