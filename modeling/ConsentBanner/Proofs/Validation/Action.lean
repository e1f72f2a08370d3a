import ConsentBanner.Proofs.Validation.Basic

/-!
The actions that a template has to offer. Whatever else is wrong with a template, validation tells that an action is
missing exactly if no component down to the nesting limit asks for it: what is nested deeper is not looked at.
-/

namespace ConsentBanner.Validation

/-- The text has a first character, and that is the given one. -/
def BeginsWith (c : Char) (s : String) : Prop := s.toList.head? = some c

namespace BeginsWith

variable {c d : Char} {s : String}

theorem literal (c : Char) (cs : List Char) : BeginsWith c (String.ofList (c :: cs)) := by
  rw [BeginsWith, String.toList_ofList, List.head?_cons]

theorem append (h : BeginsWith c s) (t : String) : BeginsWith c (s ++ t) := by
  rw [BeginsWith] at h ⊢
  rw [String.toList_append, List.head?_append, h, Option.some_or]

theorem not_begins (h : BeginsWith c s) (hne : c ≠ d) : ¬ BeginsWith d s := by
  intro h'
  exact hne (Option.some.inj (h.symm.trans h'))

end BeginsWith

/-- No other complaint has the wording of a missing action. -/
theorem Complaint.eq_noAction_of_message {c : Complaint} {a : ActionKind} (h : c.message = (noAction a).message) :
    c = noAction a := by
  have hname (b : ActionKind) : (noAction b).message = "No component with " ++ Named.name b ++ " action found" := rfl
  have hfirst : BeginsWith 'N' c.message := by
    rw [h, hname]
    exact ((BeginsWith.literal _ _).append _).append _
  have hlast : c.message.toList.getLast? = some 'd' := by
    rw [h, hname, String.toList_append, List.getLast?_append]
    rfl
  cases c with
  | noAction b =>
    rw [hname, hname, String.append_left_inj, String.append_right_inj] at h
    rw [Named.name_injective h]
  -- The other wordings begin with another letter, or else they end with another one.
  | tooDeep | policySwitch | policyTime =>
    rw [message.eq_def] at hlast
    dsimp only at hlast
    rw [String.toList_append, List.getLast?_append] at hlast
    cases hlast
  | tooWide d | tooHigh d =>
    apply absurd hfirst
    cases d with
    | _ => exact ((((BeginsWith.literal _ _).append _).append _).append _).not_begins (by decide)
  | _ =>
    apply absurd hfirst
    rw [message.eq_def]
    dsimp only
    apply BeginsWith.not_begins
    · repeat with_reducible apply BeginsWith.append
      exact .literal _ _
    · decide

/-- Complaints that are not about a missing action. -/
def Silent (cs : List Complaint) : Prop := ∀ a, .noAction a ∉ cs

@[simp] theorem silent_nil : Silent [] := by simp [Silent]

@[simp] theorem silent_cons {c : Complaint} {cs : List Complaint} :
    Silent (c :: cs) ↔ (∀ a, .noAction a ≠ c) ∧ Silent cs := by
  simp [Silent, not_or, forall_and]

@[simp] theorem silent_append {cs ds : List Complaint} : Silent (cs ++ ds) ↔ Silent cs ∧ Silent ds := by
  simp [Silent, not_or, forall_and]

@[simp] theorem silent_ite {p : Prop} [Decidable p] {cs ds : List Complaint} :
    Silent (if p then cs else ds) ↔ (p → Silent cs) ∧ (¬ p → Silent ds) := by
  split <;> simp [*]

theorem silent_flatMap {α : Type} {l : List α} {f : α → List Complaint} (h : ∀ x ∈ l, Silent (f x)) :
    Silent (l.flatMap f) := by
  intro a ha
  obtain ⟨x, hx, hmem⟩ := List.mem_flatMap.1 ha
  exact h x hx a hmem

section

variable {limits : Limits} {path : Path} {cs : List Complaint}

theorem silent_checkId {seen seen' : List Json} {fields : List (String × Json)}
    (h : checkId path seen fields = .ok (cs, seen')) : Silent cs := by
  unfold checkId at h
  dsimp only at h
  split at h
  · cases h
    simp
  · split at h
    · cases h
    · split at h
      · cases h
        simp
      · cases h
        simp

theorem silent_checkKind {fields : List (String × Json)} (h : checkKind path fields = .ok cs) : Silent cs := by
  obtain ⟨known, -, h⟩ := bind_eq_ok.1 h
  cases h
  simp

theorem silent_checkAction {fields : List (String × Json)} (h : checkAction path fields = .ok cs) : Silent cs := by
  unfold checkAction at h
  split at h
  · cases h
    exact silent_nil
  · obtain ⟨known, -, h⟩ := bind_eq_ok.1 h
    cases h
    simp

theorem silent_checkLength {kind : ComponentKind} {text : Json} (h : checkLength limits kind path text = .ok cs) :
    Silent cs := by
  unfold checkLength at h
  split at h
  · cases h
    simp
  · split at h
    · split at h
      · cases h
        simp
      · split at h
        · cases h
          simp
        · cases h
          simp
    · split at h
      · cases h
        simp
      · split at h
        · cases h
          simp
        · cases h
          simp
    · cases h

theorem silent_checkText {fields : List (String × Json)} (h : checkText limits path fields = .ok cs) : Silent cs := by
  unfold checkText at h
  split at h
  · split at h
    · cases h
      exact silent_nil
    · obtain ⟨text, -, h⟩ := bind_eq_ok.1 h
      exact silent_checkLength h
  · cases h
    exact silent_nil

theorem silent_checkPosition (path : Path) (fields : List (String × Json)) : Silent (checkPosition path fields) := by
  unfold checkPosition
  split
  · rw [checkOffsets]
    apply silent_flatMap
    intro d _
    split
    · intro a ha
      obtain ⟨side, -, hside⟩ := List.mem_filterMap.1 ha
      split at hside
      · split at hside
        · cases hside
        · cases hside
      · cases hside
    · exact silent_nil
  · exact silent_nil
  · simp

theorem silent_checkComponent {seen seen' : List Json} {fields : List (String × Json)}
    (h : checkComponent limits path seen fields = .ok (cs, seen')) : Silent cs := by
  simp only [checkComponent, bind_eq_ok, Prod.exists] at h
  obtain ⟨ids, seen₁, hids, kinds, hkinds, actions, hactions, texts, htexts, h⟩ := h
  cases h
  simp only [silent_append]
  exact ⟨⟨⟨⟨silent_checkId hids, silent_checkKind hkinds⟩, silent_checkAction hactions⟩, silent_checkText htexts⟩,
    silent_checkPosition path fields⟩

theorem silent_checkDevice {d : Device} {block : List (String × Json)} (h : checkDevice limits d block = .ok cs) :
    Silent cs := by
  simp only [checkDevice, bind_eq_ok] at h
  obtain ⟨kind, -, anchor, -, width, -, height, -, h⟩ := h
  cases h
  simp only [silent_append]
  simp

theorem silent_checkDevices {layout : List (String × Json)} {devices : List Device}
    (h : checkDevices limits layout devices = .ok cs) : Silent cs := by
  induction devices generalizing cs with
  | nil =>
    cases h
    exact silent_nil
  | cons d rest ih =>
    have hjoined {x : Except Fault (List Complaint)} (hx : ∀ here, x = .ok here → Silent here)
        (h : (do
          let here ← x
          let more ← checkDevices limits layout rest
          pure (here ++ more)) = .ok cs) : Silent cs := by
      obtain ⟨here, hhere, h⟩ := bind_eq_ok.1 h
      obtain ⟨more, hmore, h⟩ := bind_eq_ok.1 h
      cases h
      exact silent_append.2 ⟨hx here hhere, ih hmore⟩
    rw [checkDevices] at h
    split at h
    · apply hjoined _ h
      rintro _ ⟨⟩
      exact silent_nil
    · exact hjoined (fun _ => silent_checkDevice) h
    · apply hjoined _ h
      rintro _ ⟨⟩
      simp

theorem silent_checkLayout {v : Json} (h : checkLayout limits v = .ok cs) : Silent cs := by
  unfold checkLayout at h
  split at h
  · split at h
    · exact silent_checkDevices h
    · cases h
      simp
  · cases h
    simp

theorem silent_checkTheme (v : Json) : Silent (checkTheme v) := by
  unfold checkTheme
  split
  · exact silent_nil
  · rw [silent_append]
    refine ⟨?_, by simp⟩
    split
    · apply silent_flatMap
      intro f _
      unfold checkColor
      dsimp only
      split
      · simp
      · simp
    · exact silent_nil
  · simp

theorem silent_checkPolicy (policy key : String) (v : Json) : Silent (checkPolicy policy key v) := by
  unfold checkPolicy
  split
  · exact silent_nil
  · rw [silent_append]
    refine ⟨?_, by simp⟩
    split
    · exact silent_nil
    · simp

theorem silent_checkSettings {v : Json} (h : checkSettings v = .ok cs) : Silent cs := by
  unfold checkSettings at h
  split at h
  · cases h
    exact silent_nil
  · obtain ⟨animation, hanimation, h⟩ := bind_eq_ok.1 h
    cases h
    rw [silent_append]
    constructor
    · unfold checkAnimation at hanimation
      split at hanimation
      · cases hanimation
        exact silent_nil
      · obtain ⟨known, -, hanimation⟩ := bind_eq_ok.1 hanimation
        cases hanimation
        rw [silent_append]
        simp
      · cases hanimation
        simp
    · split
      · rw [silent_append]
        exact ⟨silent_checkPolicy _ _ _, silent_checkPolicy _ _ _⟩
      · exact silent_nil
  · cases h
    simp

end

/-- A missing action is complained about exactly if it is not among the actions that were noted. -/
theorem noAction_mem_checkActions {actions : List Json} {a : ActionKind} (ha : a = .acceptAll ∨ a = .rejectAll) :
    .noAction a ∈ checkActions actions ↔ .str (Named.name a) ∉ actions := by
  have hmem : a ∈ [ActionKind.acceptAll, ActionKind.rejectAll] := by simpa using ha
  have hany : actions.any (Json.same (.str (Named.name a))) = true ↔ .str (Named.name a) ∈ actions := by
    simp [same_name_iff]
  rw [checkActions, List.mem_filterMap, ← hany]
  constructor
  · rintro ⟨b, -, hb⟩ hnoted
    split at hb
    · cases hb
    · rename_i hmissing
      cases hb
      exact hmissing hnoted
  · intro hmissing
    exact ⟨a, hmem, if_neg hmissing⟩

namespace Walk

/-- A walk past components notes the names that those down to the nesting limit have for their actions, and no other
names; it does not complain about missing actions. -/
structure Notes (limits : Limits) (w : Walk) (cs : List RawComponent) (w' : Walk) : Prop where
  names : ∀ name : String, .str name ∈ w'.actions ↔
    .str name ∈ w.actions ∨ ∃ c ∈ cs, c.depth ≤ limits.maxNesting ∧ c.action = .str name
  silent : Silent w.complaints → Silent w'.complaints

section

variable {limits : Limits} {w w' w'' : Walk} {cs ds : List RawComponent}

/-- Components that are not looked at, or name no action, leave what is noted as it is. -/
theorem Notes.of_skipped (hactions : w'.actions = w.actions) (hsilent : Silent w.complaints → Silent w'.complaints)
    (h : ∀ c ∈ cs, c.depth ≤ limits.maxNesting → ∀ name, c.action ≠ .str name) : Notes limits w cs w' := by
  refine ⟨fun name => ?_, hsilent⟩
  rw [hactions]
  constructor
  · exact .inl
  · rintro (hname | ⟨c, hc, hdepth, hname⟩)
    · exact hname
    · exact (h c hc hdepth name hname).elim

theorem Notes.refl : Notes limits w [] w := .of_skipped rfl id (by simp)

theorem Notes.trans (h : Notes limits w cs w') (h' : Notes limits w' ds w'') : Notes limits w (cs ++ ds) w'' := by
  refine ⟨fun name => ?_, fun hs => h'.silent (h.silent hs)⟩
  rw [h'.names, h.names, or_assoc]
  simp only [List.mem_append, or_and_right, exists_or]

theorem silent_complain {c : Complaint} (h : ∀ a, .noAction a ≠ c) (hs : Silent w.complaints) :
    Silent (w.complain c).complaints := by
  simp [complain, hs, h]

theorem complain_notes {c : Complaint} (hc : ∀ a, .noAction a ≠ c) (h : ∀ d ∈ cs, ∀ name, d.action ≠ .str name) :
    Notes limits w cs (w.complain c) :=
  .of_skipped rfl (silent_complain hc) fun d hd _ => h d hd

theorem passDeep_actions (limit : Int) : (w.passDeep limit).actions = w.actions := by
  unfold passDeep
  split
  · rfl
  · rfl

theorem silent_passDeep (limit : Int) (hs : Silent w.complaints) : Silent (w.passDeep limit).complaints := by
  unfold passDeep
  split
  · exact hs
  · exact silent_complain (by simp) hs

theorem enter_notes {path : Path} {fields : List (String × Json)} (hdepth : path.depth ≤ limits.maxNesting)
    (h : w.enter limits path fields = .ok w') : Notes limits w [⟨path.depth, .obj fields⟩] w' := by
  simp only [enter, bind_eq_ok, Prod.exists] at h
  obtain ⟨complaints, seen, hchecked, h⟩ := h
  cases h
  refine ⟨fun name => ?_, fun hs => silent_append.2 ⟨hs, silent_checkComponent hchecked⟩⟩
  simp [hdepth, RawComponent.action, RawComponent.fields, eq_comm]

end

end Walk

mutual

theorem walk_notes {limits : Limits} {path : Path} {w w' : Walk} (v : Json) (h : walk limits path v w = .ok w') :
    w.Notes limits (componentsOf path.depth v) w' := by
  by_cases hd : limits.maxNesting < path.depth
  · rw [walk_deep v hd] at h
    cases h
    apply Walk.Notes.of_skipped (Walk.passDeep_actions _) (Walk.silent_passDeep _)
    intro c hc hdepth
    have hle := le_depth_of_mem hc
    omega
  · cases v with
    | obj fields =>
      rw [walk, if_neg hd] at h
      obtain ⟨w₁, he, hc⟩ := bind_eq_ok.1 h
      have hentered := Walk.enter_notes (Int.not_lt.1 hd) he
      rw [componentsOf]
      exact hentered.trans (walkChildrenOf_notes fields hc)
    | _ =>
      rw [walk_other hd (by rintro _ ⟨⟩)] at h
      cases h
      apply Walk.complain_notes (by simp)
      rw [componentsOf]
      · simp [RawComponent.action, RawComponent.fields, actionOf, Fields.get?]
      · rintro _ ⟨⟩

theorem walkChildrenOf_notes {limits : Limits} {path : Path} {w w' : Walk} (fields : List (String × Json))
    (h : walkChildrenOf limits path fields w = .ok w') :
    w.Notes limits (componentsAmong path.depth fields) w' := by
  cases fields with
  | nil =>
    cases h
    rw [componentsAmong]
    exact .refl
  | cons f rest =>
    obtain ⟨k, v⟩ := f
    rw [walkChildrenOf] at h
    rw [componentsAmong]
    split at h
    · rename_i hk
      rw [if_pos hk]
      exact walkChildren_notes v h
    · rename_i hk
      rw [if_neg hk]
      exact walkChildrenOf_notes rest h

theorem walkChildren_notes {limits : Limits} {path : Path} {w w' : Walk} (v : Json)
    (h : walkChildren limits path v w = .ok w') :
    w.Notes limits (componentsUnder path.depth v) w' := by
  cases v with
  | null =>
    cases h
    rw [componentsUnder]
    · exact .refl
    · rintro _ ⟨⟩
  | arr items =>
    rw [walkChildren] at h
    rw [componentsUnder]
    exact walkItems_notes items h
  | _ =>
    rw [walkChildren_other (by rintro (h | ⟨_, h⟩) <;> cases h)] at h
    cases h
    apply Walk.complain_notes (by simp)
    rw [componentsUnder]
    · simp
    · rintro _ ⟨⟩

theorem walkItems_notes {limits : Limits} {path : Path} {place : Nat} {w w' : Walk} (items : List Json)
    (h : walkItems limits path place items w = .ok w') :
    w.Notes limits (componentsIn (path.depth + 1) items) w' := by
  cases items with
  | nil =>
    cases h
    rw [componentsIn]
    exact .refl
  | cons v rest =>
    rw [walkItems] at h
    obtain ⟨w₁, hv, hr⟩ := bind_eq_ok.1 h
    have hhead := walk_notes v hv
    rw [Path.depth_child] at hhead
    rw [componentsIn]
    exact hhead.trans (walkItems_notes rest hr)

end

theorem walkRoots_notes {limits : Limits} {place : Nat} {w w' : Walk} (roots : List Json)
    (h : walkRoots limits place roots w = .ok w') :
    w.Notes limits (componentsIn 0 roots) w' := by
  induction roots generalizing place w with
  | nil =>
    cases h
    rw [componentsIn]
    exact .refl
  | cons v rest ih =>
    rw [walkRoots] at h
    obtain ⟨w₁, hv, hr⟩ := bind_eq_ok.1 h
    rw [componentsIn]
    exact (walk_notes v hv).trans (ih hr)

/-- The names of actions that come out of the check of a forest are those of its components down to the nesting limit. -/
theorem checkForest_notes {limits : Limits} {roots : List Json} {cs : List Complaint} {actions : List Json}
    (h : checkForest limits (.arr roots) = .ok (cs, actions)) :
    Silent cs ∧ ∀ name, .str name ∈ actions ↔
      ∃ c ∈ componentsIn 0 roots, c.depth ≤ limits.maxNesting ∧ c.action = .str name := by
  cases roots with
  | nil =>
    cases h
    simp [componentsIn]
  | cons root rest =>
    rw [checkForest] at h
    · obtain ⟨w, hw, h⟩ := bind_eq_ok.1 h
      cases h
      have hnotes := walkRoots_notes (root :: rest) hw
      constructor
      · rw [silent_append]
        exact ⟨hnotes.silent silent_nil, by simp⟩
      · intro name
        simpa using hnotes.names name
    · simp

/-- Of an action that is missing among the components down to the nesting limit, and of no other, it is told that no
component has it. -/
theorem noAction_mem_complaints {limits : Limits} {template : List (String × Json)} {roots : List Json}
    {cs : List Complaint} {a : ActionKind} (ha : a = .acceptAll ∨ a = .rejectAll)
    (hroots : valueOf "components" template = .arr roots) (h : complaints limits (.obj template) = .ok cs) :
    (Complaint.noAction a).message ∈ cs.map Complaint.message ↔
      ¬ ∃ c ∈ componentsIn 0 roots, c.depth ≤ limits.maxNesting ∧ c.action = .str (Named.name a) := by
  simp only [complaints, bind_eq_ok, Prod.exists] at h
  obtain ⟨layout, hlayout, components, actions, hforest, settings, hsettings, h⟩ := h
  split at h
  · cases h
  cases h
  rw [← valueOf, hroots] at hforest
  obtain ⟨hsilent, hnames⟩ := checkForest_notes hforest
  have hothers : Silent (layout ++ components ++ checkTheme (valueOf "theme" template) ++ settings) := by
    simp only [silent_append]
    exact ⟨⟨⟨silent_checkLayout hlayout, hsilent⟩, silent_checkTheme _⟩, silent_checkSettings hsettings⟩
  rw [← hnames, ← noAction_mem_checkActions ha, List.mem_map]
  constructor
  · rintro ⟨c, hc, hmessage⟩
    rw [Complaint.eq_noAction_of_message hmessage] at hc
    exact (List.mem_append.1 hc).resolve_left (hothers a)
  · intro hmissing
    exact ⟨_, List.mem_append_right _ hmissing, rfl⟩

/-- Whatever else is wrong with a template, validation tells that no component accepts, or that none rejects, exactly if
none down to the nesting limit does. -/
theorem complaints_noAction {limits : Limits} {template : List (String × Json)} {roots : List Json}
    {cs : List Complaint} (hroots : valueOf "components" template = .arr roots)
    (h : complaints limits (.obj template) = .ok cs) :
    ("No component with accept_all action found" ∈ cs.map Complaint.message ↔
      ¬ ∃ c ∈ componentsIn 0 roots, c.depth ≤ limits.maxNesting ∧ c.action = .str "accept_all") ∧
    ("No component with reject_all action found" ∈ cs.map Complaint.message ↔
      ¬ ∃ c ∈ componentsIn 0 roots, c.depth ≤ limits.maxNesting ∧ c.action = .str "reject_all") :=
  ⟨noAction_mem_complaints (.inl rfl) hroots h, noAction_mem_complaints (.inr rfl) hroots h⟩

/-- A box within a box that holds the button for one answer; the button for the other one stands beside them. -/
def nestedRoots : List Json := [
  .obj [("id", .str "outer"), ("type", .str "container"), ("children", .arr [
    .obj [("id", .str "inner"), ("type", .str "container"), ("children", .arr [
      .obj [("id", .str "yes"), ("type", .str "button"), ("action", .str "accept_all")]])]])],
  .obj [("id", .str "no"), ("type", .str "button"), ("action", .str "reject_all")]]

def nestedTemplate : List (String × Json) := [
  ("layout", .obj [("desktop", .obj [("type", .str "banner"), ("position", .str "bottom")])]),
  ("components", .arr nestedRoots)]

theorem complaints_nestedTemplate : ∃ cs, complaints { maxNesting := 1 } (.obj nestedTemplate) = .ok cs ∧
    cs.map Complaint.message = ["Nesting depth cannot exceed 1 levels", "No component with accept_all action found"] := by
  have hmessages : (complaints { maxNesting := 1 } (.obj nestedTemplate)).toOption.map (·.map Complaint.message) =
      some ["Nesting depth cannot exceed 1 levels", "No component with accept_all action found"] := by
    decide +kernel
  cases h : complaints { maxNesting := 1 } (.obj nestedTemplate) with
  | error f =>
    rw [h] at hmessages
    cases hmessages
  | ok cs =>
    rw [h] at hmessages
    exact ⟨cs, rfl, Option.some.inj hmessages⟩

theorem complaints_noAction_nested :
    ∃ cs, complaints { maxNesting := 1 } (.obj nestedTemplate) = .ok cs ∧
      valueOf "components" nestedTemplate = .arr nestedRoots ∧
      "No component with reject_all action found" ∉ cs.map Complaint.message ∧
      ∃ c ∈ componentsIn 0 nestedRoots, c.depth ≤ (1 : Int) ∧ c.action = .str "reject_all" := by
  obtain ⟨cs, h, hmessages⟩ := complaints_nestedTemplate
  obtain ⟨-, hreject⟩ := complaints_noAction rfl h
  have htold : "No component with reject_all action found" ∉ cs.map Complaint.message := by
    rw [hmessages]
    decide
  exact ⟨cs, h, rfl, htold, Classical.not_not.1 fun hnone => htold (hreject.2 hnone)⟩

/-- A component that is nested too deep accepts, in a forest of objects with lists of children, and yet it is told that no
component does. -/
theorem complaints_overlooks_nested : ∃ cs, complaints { maxNesting := 1 } (.obj nestedTemplate) = .ok cs ∧
    valueOf "components" nestedTemplate = .arr nestedRoots ∧
    (∀ c ∈ componentsIn 0 nestedRoots, (∃ fields, c.value = .obj fields) ∧ ChildrenFit (valueOf "children" c.fields)) ∧
    (∃ c ∈ componentsIn 0 nestedRoots, c.action = .str "accept_all") ∧
    "No component with accept_all action found" ∈ cs.map Complaint.message := by
  obtain ⟨cs, h, hmessages⟩ := complaints_nestedTemplate
  refine ⟨cs, h, rfl, ?_, ?_, ?_⟩
  · simp [nestedRoots, componentsIn, componentsOf, componentsAmong, componentsUnder, ChildrenFit, valueOf, Fields.get?,
      RawComponent.fields]
  · exact ⟨_, .tail _ (.tail _ (.head _)), rfl⟩
  · rw [hmessages]
    exact .tail _ (.head _)

end ConsentBanner.Validation
