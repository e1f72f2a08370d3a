import ConsentBanner.Proofs.Validation.Forest
import ConsentBanner.Proofs.Validation.Layout
import ConsentBanner.Proofs.Validation.Theme
import ConsentBanner.Validation.Basic

/-!
Validation finds nothing to complain about exactly in well-formed templates.
-/

namespace ConsentBanner.Validation

/-- What a template has to be, said without an order of checks. -/
structure WellFormed (limits : Limits) (template : List (String × Json)) : Prop where
  layout : ∃ layout, valueOf "layout" template = .obj layout ∧ LayoutFits limits layout
  components : ∃ roots, valueOf "components" template = .arr roots ∧ ForestFits limits roots
  theme : valueOf "theme" template = .null ∨ ∃ theme, valueOf "theme" template = .obj theme ∧ ThemeFits theme
  settings : valueOf "settings" template = .null ∨
    ∃ settings, valueOf "settings" template = .obj settings ∧ SettingsFit settings

theorem same_name_iff {s : String} {v : Json} : Json.same (.str s) v = true ↔ v = .str s := by
  cases v with
  | str t =>
    simp only [Json.same, beq_iff_eq, Json.str.injEq]
    exact ⟨Eq.symm, Eq.symm⟩
  | _ => simp [Json.same, Json.number?]

theorem checkActions_eq_nil_iff {cs : List RawComponent} :
    checkActions (cs.map RawComponent.action) = [] ↔ Offers .acceptAll cs ∧ Offers .rejectAll cs := by
  have ho : ∀ a : ActionKind,
      (cs.map RawComponent.action).any (Json.same (.str (Named.name a))) = true ↔ Offers a cs := by
    intro a
    simp [Offers, same_name_iff]
  simp only [checkActions, List.filterMap_eq_nil_iff, List.forall_mem_cons, ho, ite_eq_left_iff,
    reduceCtorEq, imp_false, Classical.not_not, List.not_mem_nil, false_implies, implies_true, and_true]

theorem complaints_eq_nil_iff {limits : Limits} {template : List (String × Json)} {cs : List Complaint}
    (h : complaints limits (.obj template) = .ok cs) : cs = [] ↔ WellFormed limits template := by
  simp only [complaints, bind_eq_ok, Prod.exists] at h
  obtain ⟨layout, hl, components, actions, hf, settings, hs, h⟩ := h
  split at h
  · cases h
  cases h
  obtain ⟨hclean, hactions⟩ := checkForest_spec hf
  simp only [List.append_eq_nil_iff, checkLayout_eq_nil_iff hl, checkTheme_eq_nil_iff,
    checkSettings_eq_nil_iff hs]
  constructor
  · rintro ⟨⟨⟨⟨hlay, hn⟩, hth⟩, hset⟩, hact⟩
    obtain ⟨roots, hv, hne, hfit, hd, hfew⟩ := hclean.1 hn
    rw [hactions hn roots hv, checkActions_eq_nil_iff] at hact
    exact ⟨hlay, ⟨roots, hv, hne, hfit, hd, hfew, hact.1, hact.2⟩, hth, hset⟩
  · rintro ⟨hlay, ⟨roots, hv, hr⟩, hth, hset⟩
    have hn := hclean.2 ⟨roots, hv, hr.nonempty, hr.each, hr.distinct, hr.few⟩
    rw [hactions hn roots hv, checkActions_eq_nil_iff]
    exact ⟨⟨⟨⟨hlay, hn⟩, hth⟩, hset⟩, hr.accepts, hr.rejects⟩

/-- A small banner: a container with a button for either answer. -/
def plainTemplate : List (String × Json) :=
  [("layout", .obj [("desktop", .obj [
      ("type", .str "modal"), ("position", .str "center"), ("width", .str "600px")])]),
    ("components", .arr [.obj [("id", .str "box"), ("type", .str "container"), ("children", .arr [
      .obj [("id", .str "yes"), ("type", .str "button"), ("action", .str "accept_all")],
      .obj [("id", .str "no"), ("type", .str "button"), ("action", .obj [("type", .str "reject_all")])]])]])]

end ConsentBanner.Validation
