import ConsentBanner.Proofs.Validation.Outline
import ConsentBanner.Validation.Basic

/-!
The walk through a forest complains exactly when a component does not fit or an identifier is taken twice.
-/

namespace ConsentBanner.Validation

@[simp] theorem Path.depth_child (p : Path) (i : Nat) : (p.child i).depth = p.depth + 1 := by
  simp [depth, child]

namespace Walk

/-- No component has an identifier that is taken, and no two have one in common. -/
def Fresh (seen : List Json) (cs : List RawComponent) : Prop :=
  (∀ c ∈ cs, ∀ id ∈ seen, ¬ c.id.same id = true) ∧ cs.Pairwise Distinct

/-- A walk that went too deep has complained. -/
def Honest (w : Walk) : Prop := w.tooDeep = true → w.complaints ≠ []

/-- A walk passes components: it stays clean when what is asked of them holds and their identifiers are
fresh, and then it has noted them all. -/
structure Passes (w : Walk) (asked : Prop) (cs : List RawComponent) (w' : Walk) : Prop where
  honest : w'.Honest
  clean : w'.complaints = [] ↔ w.complaints = [] ∧ asked ∧ Fresh w.seen cs
  seen : w'.complaints = [] → w'.seen = w.seen ++ cs.map RawComponent.id
  actions : w'.complaints = [] → w'.actions = w.actions ++ cs.map RawComponent.action

theorem fresh_nil (seen : List Json) : Fresh seen [] := by simp [Fresh]

theorem fresh_append {seen : List Json} {cs ds : List RawComponent} :
    Fresh seen (cs ++ ds) ↔ Fresh seen cs ∧ Fresh (seen ++ cs.map RawComponent.id) ds := by
  simp only [Fresh, List.pairwise_append, List.mem_append, List.mem_map, Distinct]
  constructor
  · rintro ⟨hs, hc, hd, hcd⟩
    refine ⟨⟨fun c hm => hs c (.inl hm), hc⟩, ?_, hd⟩
    rintro d hm id (hi | ⟨c, hc', rfl⟩)
    · exact hs d (.inr hm) id hi
    · exact hcd c hc' d hm
  · rintro ⟨⟨hs, hc⟩, hs', hd⟩
    refine ⟨?_, hc, hd, fun c hc' d hm => hs' d hm c.id (.inr ⟨c, hc', rfl⟩)⟩
    rintro c (hm | hm)
    · exact hs c hm
    · exact fun id hi => hs' c hm id (.inl hi)

theorem Passes.congr {w w' : Walk} {p q : Prop} {cs : List RawComponent} (h : Passes w p cs w')
    (hpq : p ↔ q) : Passes w q cs w' :=
  ⟨h.honest, by rw [h.clean, hpq], h.seen, h.actions⟩

theorem Passes.refl {w : Walk} (h : w.Honest) : Passes w True [] w :=
  ⟨h, by simp [fresh_nil], by simp, by simp⟩

theorem Passes.trans {w w' w'' : Walk} {p q : Prop} {cs ds : List RawComponent} (h : Passes w p cs w')
    (h' : Passes w' q ds w'') : Passes w (p ∧ q) (cs ++ ds) w'' := by
  refine ⟨h'.honest, ?_, fun hn => ?_, fun hn => ?_⟩
  · rw [h'.clean, fresh_append]
    constructor
    · rintro ⟨hn, hq, hd⟩
      rw [h.seen hn] at hd
      obtain ⟨hw, hp, hc⟩ := h.clean.1 hn
      exact ⟨hw, ⟨hp, hq⟩, hc, hd⟩
    · rintro ⟨hw, ⟨hp, hq⟩, hc, hd⟩
      have hn := h.clean.2 ⟨hw, hp, hc⟩
      rw [← h.seen hn] at hd
      exact ⟨hn, hq, hd⟩
  · have hn' := (h'.clean.1 hn).1
    rw [h'.seen hn, h.seen hn', List.map_append, List.append_assoc]
  · have hn' := (h'.clean.1 hn).1
    rw [h'.actions hn, h.actions hn', List.map_append, List.append_assoc]

/-- A walk with a complaint in it passes only what cannot hold. -/
theorem Passes.of_complaint {w w' : Walk} {p : Prop} {cs : List RawComponent} (h : w'.complaints ≠ [])
    (hp : ¬ p) : Passes w p cs w' :=
  ⟨fun _ => h, by simp [h, hp], fun hn => (h hn).elim, fun hn => (h hn).elim⟩

theorem complain_ne_nil (w : Walk) (c : Complaint) : (w.complain c).complaints ≠ [] := by simp [complain]

theorem passDeep_ne_nil {w : Walk} (limit : Int) (h : w.Honest) : (w.passDeep limit).complaints ≠ [] := by
  unfold passDeep
  split
  · rename_i hd
    exact h hd
  · exact complain_ne_nil w _

theorem enter_passes {limits : Limits} {path : Path} {fields : List (String × Json)} {w w' : Walk} (depth : Nat)
    (hw : w.Honest) (h : w.enter limits path fields = .ok w') :
    Passes w (FieldsFit limits fields) [⟨depth, .obj fields⟩] w' := by
  simp only [enter, bind_eq_ok, Prod.exists] at h
  obtain ⟨cs, seen, hc, h⟩ := h
  cases h
  obtain ⟨hfit, hseen⟩ := checkComponent_spec hc
  refine ⟨fun hd hn => hw hd (List.append_eq_nil_iff.1 hn).1, ?_, fun hn => ?_, fun hn => ?_⟩
  · simp [hfit, Fresh, RawComponent.id, RawComponent.fields]
  · simp [hseen (List.append_eq_nil_iff.1 hn).2, RawComponent.id, RawComponent.fields]
  · simp [RawComponent.action, RawComponent.fields]

end Walk

theorem walk_deep {limits : Limits} {path : Path} {w : Walk} (v : Json) (hd : limits.maxNesting < path.depth) :
    walk limits path v w = .ok (w.passDeep limits.maxNesting) := by
  cases v with
  | obj fields => rw [walk, if_pos hd]
  | _ =>
    rw [walk, if_pos hd]
    rintro _ ⟨⟩

theorem walkChildren_other {limits : Limits} {path : Path} {w : Walk} {v : Json} (hv : ¬ ChildrenFit v) :
    walkChildren limits path v w = .ok (w.complain (.childrenNotList path)) := by
  cases v with
  | null => exact (hv (.inl rfl)).elim
  | arr items => exact (hv (.inr ⟨items, rfl⟩)).elim
  | _ =>
    rw [walkChildren]
    · rintro ⟨⟩
    · rintro _ ⟨⟩

theorem walk_other {limits : Limits} {path : Path} {w : Walk} {v : Json} (hd : ¬ limits.maxNesting < path.depth)
    (hv : ∀ fields, v ≠ .obj fields) : walk limits path v w = .ok (w.complain (.notComponent path)) := by
  cases v with
  | obj fields => exact (hv fields rfl).elim
  | _ =>
    rw [walk, if_neg hd]
    rintro _ ⟨⟩

theorem Walk.Passes.of_head {limits : Limits} {depth : Nat} {v : Json} {w w' : Walk} (h : w'.complaints ≠ [])
    (hf : ¬ ComponentFits limits ⟨depth, v⟩) :
    w.Passes (∀ c ∈ componentsOf depth v, ComponentFits limits c) (componentsOf depth v) w' := by
  apply Walk.Passes.of_complaint h
  intro hall
  obtain ⟨rest, he⟩ := componentsOf_head depth v
  exact hf (hall _ (by simp [he]))

theorem Walk.Passes.of_children {limits : Limits} {path : Path} {v : Json} {w w' : Walk} {p : Prop}
    {cs : List RawComponent} (hv : ¬ ChildrenFit v) (h : walkChildren limits path v w = .ok w') :
    w.Passes (ChildrenFit v ∧ p) cs w' := by
  rw [walkChildren_other hv] at h
  cases h
  exact .of_complaint (Walk.complain_ne_nil w _) fun hp => hv hp.1

mutual

theorem walk_passes {limits : Limits} {path : Path} {w w' : Walk} (v : Json) (hw : w.Honest)
    (h : walk limits path v w = .ok w') :
    w.Passes (∀ c ∈ componentsOf path.depth v, ComponentFits limits c) (componentsOf path.depth v) w' := by
  by_cases hd : limits.maxNesting < path.depth
  · rw [walk_deep v hd] at h
    cases h
    exact .of_head (Walk.passDeep_ne_nil _ hw) (not_componentFits_of_deep hd)
  · cases v with
    | obj fields =>
      rw [walk, if_neg hd] at h
      obtain ⟨w₁, he, hc⟩ := bind_eq_ok.1 h
      have hp := Walk.enter_passes path.depth hw he
      have hq := walkChildrenOf_passes fields hp.honest hc
      rw [componentsOf]
      refine (hp.trans hq).congr ?_
      rw [List.forall_mem_cons, componentFits_mk (by omega), and_assoc]
    | _ =>
      rw [walk_other hd (by rintro _ ⟨⟩)] at h
      cases h
      refine .of_head (Walk.complain_ne_nil w _) fun hf => ?_
      obtain ⟨_, ⟨⟩⟩ := hf.object

theorem walkChildrenOf_passes {limits : Limits} {path : Path} {w w' : Walk} (fields : List (String × Json))
    (hw : w.Honest) (h : walkChildrenOf limits path fields w = .ok w') :
    w.Passes (ChildrenFit (valueOf "children" fields) ∧
      ∀ c ∈ componentsAmong path.depth fields, ComponentFits limits c) (componentsAmong path.depth fields) w' := by
  cases fields with
  | nil =>
    rw [walkChildrenOf] at h
    cases h
    rw [componentsAmong]
    exact (Walk.Passes.refl hw).congr (by simp [ChildrenFit, valueOf, Fields.get?])
  | cons f rest =>
    obtain ⟨k, v⟩ := f
    rw [walkChildrenOf] at h
    rw [componentsAmong, valueOf, Fields.get?]
    split at h
    · rename_i hk
      rw [if_pos hk, if_pos hk]
      exact walkChildren_passes v hw h
    · rename_i hk
      rw [if_neg hk, if_neg hk]
      exact walkChildrenOf_passes rest hw h

theorem walkChildren_passes {limits : Limits} {path : Path} {w w' : Walk} (v : Json) (hw : w.Honest)
    (h : walkChildren limits path v w = .ok w') :
    w.Passes (ChildrenFit v ∧ ∀ c ∈ componentsUnder path.depth v, ComponentFits limits c)
      (componentsUnder path.depth v) w' := by
  cases v with
  | null =>
    rw [walkChildren] at h
    cases h
    rw [componentsUnder]
    · exact (Walk.Passes.refl hw).congr (by simp [ChildrenFit])
    · rintro _ ⟨⟩
  | arr items =>
    rw [walkChildren] at h
    rw [componentsUnder]
    exact (walkItems_passes items hw h).congr (by simp [ChildrenFit])
  | _ =>
    refine .of_children ?_ h
    rintro (hv | ⟨_, hv⟩) <;> cases hv

theorem walkItems_passes {limits : Limits} {path : Path} {place : Nat} {w w' : Walk} (items : List Json)
    (hw : w.Honest) (h : walkItems limits path place items w = .ok w') :
    w.Passes (∀ c ∈ componentsIn (path.depth + 1) items, ComponentFits limits c)
      (componentsIn (path.depth + 1) items) w' := by
  cases items with
  | nil =>
    rw [walkItems] at h
    cases h
    rw [componentsIn]
    exact (Walk.Passes.refl hw).congr (by simp)
  | cons v rest =>
    rw [walkItems] at h
    obtain ⟨w₁, hv, hr⟩ := bind_eq_ok.1 h
    have hp := walk_passes v hw hv
    have hq := walkItems_passes rest hp.honest hr
    rw [Path.depth_child] at hp
    rw [componentsIn]
    refine (hp.trans hq).congr ?_
    rw [List.forall_mem_append]

end

theorem walkRoots_passes {limits : Limits} {place : Nat} {w w' : Walk} (roots : List Json) (hw : w.Honest)
    (h : walkRoots limits place roots w = .ok w') :
    w.Passes (∀ c ∈ componentsIn 0 roots, ComponentFits limits c) (componentsIn 0 roots) w' := by
  induction roots generalizing place w with
  | nil =>
    cases h
    rw [componentsIn]
    exact (Walk.Passes.refl hw).congr (by simp)
  | cons v rest ih =>
    rw [walkRoots] at h
    obtain ⟨w₁, hv, hr⟩ := bind_eq_ok.1 h
    have hp := walk_passes v hw hv
    rw [componentsIn]
    refine (hp.trans (ih hp.honest hr)).congr ?_
    rw [List.forall_mem_append]
    rfl

/-- A forest without complaints has a root, its components fit and are few, and their actions are known. -/
theorem checkForest_spec {limits : Limits} {v : Json} {cs : List Complaint} {actions : List Json}
    (h : checkForest limits v = .ok (cs, actions)) :
    (cs = [] ↔ ∃ roots, v = .arr roots ∧ roots ≠ [] ∧ (∀ c ∈ componentsIn 0 roots, ComponentFits limits c) ∧
      (componentsIn 0 roots).Pairwise Distinct ∧ (componentsIn 0 roots).length ≤ limits.maxComponents) ∧
    (cs = [] → ∀ roots, v = .arr roots → actions = (componentsIn 0 roots).map RawComponent.action) := by
  cases v with
  | arr roots =>
    cases roots with
    | nil =>
      cases h
      simp
    | cons root roots =>
      rw [checkForest] at h
      · obtain ⟨w, hw, h⟩ := bind_eq_ok.1 h
        cases h
        have hp := walkRoots_passes (root :: roots) (by simp [Walk.Honest]) hw
        have hc := hp.clean
        have ha := hp.actions
        simp only [true_and, Walk.Fresh, List.not_mem_nil, false_implies, implies_true, List.nil_append] at hc ha
        rw [List.append_eq_nil_iff]
        constructor
        · constructor
          · rintro ⟨hn, hm⟩
            obtain ⟨hf, hd⟩ := hc.1 hn
            refine ⟨_, rfl, by simp, hf, hd, ?_⟩
            rw [ha hn, List.length_map] at hm
            simpa using hm
          · rintro ⟨_, ⟨⟩, -, hf, hd, hl⟩
            have hn := hc.2 ⟨hf, hd⟩
            refine ⟨hn, ?_⟩
            rw [ha hn, List.length_map, if_neg (by omega)]
        · rintro ⟨hn, -⟩ _ ⟨⟩
          exact ha hn
      · simp
  | _ =>
    rw [checkForest] at h
    · cases h
      simp
    · simp
    · simp

end ConsentBanner.Validation
