import ConsentBanner.Proofs.Json.Fields
import ConsentBanner.Proofs.Session.Start
import ConsentBanner.Proofs.Template.Read

/-!
Where the components of a page are placed when its width changes: each by its own blocks, whatever came before.
-/

namespace ConsentBanner

/-- How wide the viewports of a class of devices are, beside the others. -/
def Device.rank : Device → Nat
  | .mobile => 0
  | .tablet => 1
  | .desktop => 2

/-- The viewports of a width are those of a class of devices. -/
def Breakpoints.Spans (b : Breakpoints) (width : Int) : Device → Prop
  | .mobile => width ≤ b.mobile
  | .tablet => b.mobile < width ∧ width ≤ b.tablet
  | .desktop => b.tablet < width

/-- The first block that is not empty among those of a device and the wider ones, if there is one. -/
inductive FirstGiven {α : Type} (narrowest : Device) (block : Device → List α) : Option (List α) → Prop
  | given (d : Device) (hwide : narrowest.rank ≤ d.rank) (hgiven : block d ≠ [])
      (hfirst : ∀ e, narrowest.rank ≤ e.rank → e.rank < d.rank → block e = []) :
      FirstGiven narrowest block (some (block d))
  | none (h : ∀ d, narrowest.rank ≤ d.rank → block d = []) : FirstGiven narrowest block none

/-- The position and the style of a component on a device, each from a block of its own. -/
structure Placement.IsOf (d : Device) (c : ComponentData) (p : Placement) : Prop where
  position : FirstGiven d c.positionFor p.position
  style : ∃ block, FirstGiven d c.styleFor block ∧ p.style = block.getD []

theorem Number.atMost_int {n m : Int} : (Number.int n).atMost m = true ↔ n ≤ m := by
  rw [← Std.isLE_compare, atMost, compareInt?]
  cases compare n m with
  | _ => simp

theorem Breakpoints.spans_deviceForWidth (b : Breakpoints) (width : Int) :
    b.Spans width (b.deviceForWidth (.int width)) := by
  unfold deviceForWidth
  split
  · rename_i hmobile
    exact Number.atMost_int.1 hmobile
  · rename_i hmobile
    rw [Number.atMost_int, Int.not_le] at hmobile
    split
    · rename_i htablet
      exact ⟨hmobile, Number.atMost_int.1 htablet⟩
    · rename_i htablet
      rw [Number.atMost_int, Int.not_le] at htablet
      exact htablet

/-- The chain of a device has the device and the wider ones, the narrowest first. -/
theorem firstGiven_find? {α : Type} (d : Device) (block : Device → List α) :
    FirstGiven d block ((d.chain.map block).find? (!·.isEmpty)) := by
  have hmem (e : Device) : e ∈ d.chain ↔ d.rank ≤ e.rank := by
    cases d <;> cases e <;> decide
  have hsorted : d.chain.Pairwise (·.rank < ·.rank) := by
    cases d <;> decide
  rw [List.find?_map]
  cases hfind : d.chain.find? ((!·.isEmpty) ∘ block) with
  | none =>
    refine .none fun e he => ?_
    simpa using List.find?_eq_none.1 hfind e ((hmem e).2 he)
  | some e =>
    obtain ⟨hgiven, before, after, hchain, hbefore⟩ := List.find?_eq_some_iff_append.1 hfind
    have he : e ∈ d.chain := by
      rw [hchain]
      exact List.mem_append_right _ List.mem_cons_self
    refine .given e ((hmem e).1 he) (by simpa using hgiven) fun narrower hwide hnarrow => ?_
    have hn := (hmem narrower).2 hwide
    rw [hchain, List.mem_append, List.mem_cons] at hn
    obtain hn | rfl | hn := hn
    · simpa using hbefore narrower hn
    · exact absurd hnarrow (Nat.lt_irrefl _)
    · rw [hchain, List.pairwise_append, List.pairwise_cons] at hsorted
      exact absurd hnarrow (Nat.lt_asymm (hsorted.2.1.1 narrower hn))

namespace Component

mutual

/-- What a component and those inside it hold, in the order in which they are placed: after a component the components
inside it, the last one first. -/
def placedData : Component → List ComponentData
  | node data children => data :: placedDataIn children

def placedDataIn : List Component → List ComponentData
  | [] => []
  | c :: rest => placedDataIn rest ++ c.placedData

end

mutual

theorem placedData_perm : (c : Component) → c.placedData.Perm c.everyData
  | node data children => by
    rw [placedData, everyData]
    exact (placedDataIn_perm children).cons data

theorem placedDataIn_perm : (cs : List Component) → (placedDataIn cs).Perm (everyDataIn cs)
  | [] => by
    rw [placedDataIn, everyDataIn]
  | c :: rest => by
    rw [placedDataIn, everyDataIn]
    exact List.perm_append_comm.trans ((placedData_perm c).append (placedDataIn_perm rest))

end

end Component

namespace Session

open Component

/-- The place of a component among the placements. -/
def placed (d : Device) (c : ComponentData) : String × Placement :=
  (c.id, ⟨c.effectivePosition d, c.effectiveStyle d⟩)

theorem isOf_placed (d : Device) (c : ComponentData) : (placed d c).2.IsOf d c where
  position := firstGiven_find? d c.positionFor
  style := ⟨_, firstGiven_find? d c.styleFor, rfl⟩

/-- Writes placements one after the other. -/
def placeAll (d : Device) (cs : List ComponentData) (before : List (String × Placement)) : List (String × Placement) :=
  (cs.map (placed d)).foldl (fun all p => Fields.set p.1 p.2 all) before

mutual

theorem placeTree_eq (d : Device) : (c : Component) → (before : List (String × Placement)) →
    placeTree d before c = placeAll d c.placedData before
  | .node data children, before => by
    rw [placeTree, placeForest_eq d children, placedData]
    rfl

theorem placeForest_eq (d : Device) : (cs : List Component) → (before : List (String × Placement)) →
    placeForest d before cs = placeAll d (placedDataIn cs) before
  | [], before => by
    rw [placeForest, placedDataIn]
    rfl
  | c :: rest, before => by
    rw [placeForest, placeTree_eq d c, placeForest_eq d rest, placedDataIn, placeAll, placeAll, placeAll, List.map_append,
      List.foldl_append]

end

/-- Components with an identifier each are placed as often, in whatever order. -/
theorem placeAll_of_nodup {d : Device} {cs : List ComponentData} (h : (cs.map (·.id)).Nodup) :
    placeAll d cs [] = cs.map (placed d) := by
  have hkeys : (cs.map (placed d)).map (·.1) = cs.map (·.id) := by
    rw [List.map_map]
    rfl
  exact Fields.ofPairs_of_nodup (by rwa [hkeys])

theorem lasting_components (cs : List Component) : Lasting (·.components = cs) where
  inPhase phase _ h := by
    cases phase with
    | _ => exact h
  resized _ _ h := h
  shown h := h
  opened _ h := h
  told _ _ h := h
  changed _ _ _ _ _ _ h := h
  advanced _ h := h

theorem components_run (events : List Event) (s : Session) : (run events s).components = s.components :=
  (lasting_components s.components).run events rfl

theorem result_resize_int (width : Int) (s : Session) :
    result (resize (.int width)) s =
      (.ok (placeForest (s.config.breakpoints.deviceForWidth (.int width)) [] s.components),
        { s with
          environment := { s.environment with viewportWidth := .int width }
          placements := placeForest (s.config.breakpoints.deviceForWidth (.int width)) [] s.components }) := rfl

/-- A page of any width places each of its components once, by the first block that is given on the device of that width or
on a wider one. It does so whatever has happened before and in whatever order the components are placed. -/
theorem resize_places {s : Session} (hids : ((everyDataIn s.components).map (·.id)).Nodup) (width : Int) :
    ∃ d placements, s.config.breakpoints.Spans width d ∧
      (placements.map (·.1)).Perm ((everyDataIn s.components).map (·.id)) ∧
      (∀ c ∈ everyDataIn s.components, ∃ p, Fields.get? c.id placements = some p ∧ p.IsOf d c) ∧
      (∀ order, order.Perm (everyDataIn s.components) → (placeAll d order []).Perm placements) ∧
      ∀ events, ∃ t, result (resize (.int width)) (run events s) = (.ok placements, t) ∧ t.placements = placements := by
  let d := s.config.breakpoints.deviceForWidth (.int width)
  have hperm := placedDataIn_perm s.components
  have hplaced : ((placedDataIn s.components).map (·.id)).Nodup := (hperm.map (·.id)).nodup_iff.2 hids
  have hall : placeForest d [] s.components = (placedDataIn s.components).map (placed d) := by
    rw [placeForest_eq, placeAll_of_nodup hplaced]
  have hkeys : (placeForest d [] s.components).map (·.1) = (placedDataIn s.components).map (·.id) := by
    rw [hall, List.map_map]
    rfl
  refine ⟨d, placeForest d [] s.components, Breakpoints.spans_deviceForWidth _ _, ?_, fun c hc => ?_, fun order horder => ?_,
    fun events => ?_⟩
  · rw [hkeys]
    exact hperm.map _
  · refine ⟨_, Fields.get?_of_mem ?_ ?_, isOf_placed d c⟩
    · rwa [hkeys]
    · rw [hall]
      exact List.mem_map_of_mem (hperm.mem_iff.2 hc)
  · rw [hall, placeAll_of_nodup ((horder.map (·.id)).nodup_iff.2 hids)]
    exact (horder.trans hperm.symm).map _
  · rw [result_resize_int, config_run, components_run]
    exact ⟨_, rfl, rfl⟩

/-- A page with a box whose place is known for tablets, and a button in it that looks different on phones. -/
def boxedSession : Session :=
  { plainSession with
    components := [
      .node { id := "box", kind := .container, position := [(.mobile, []), (.tablet, [(.top, "5%")])] } [
        .node { id := "yes", kind := .button, style := [(.desktop, [("color", .str "red")]), (.mobile, [("color", .str "blue")])] }
          []]] }

/-- After it was shown on a wide screen, the page is shown on a phone: the box takes its place from the tablet. -/
theorem resize_places_boxed :
    ((everyDataIn boxedSession.components).map (·.id)).Nodup ∧
      ∃ placements p t, result (resize (.int 320)) (run [.start, .resize (.int 1280)] boxedSession) = (.ok placements, t) ∧
        (placements.map (·.1)).Perm ["box", "yes"] ∧ Fields.get? "box" placements = some p ∧
        p.position = some [(.top, "5%")] := by
  have hids : ((everyDataIn boxedSession.components).map (·.id)).Nodup := by decide
  obtain ⟨d, placements, hd, hperm, heach, -, hrun⟩ := resize_places hids 320
  obtain ⟨t, ht, -⟩ := hrun [.start, .resize (.int 1280)]
  obtain ⟨p, hp, hof⟩ := heach _ List.mem_cons_self
  refine ⟨hids, placements, p, t, ht, hperm, hp, ?_⟩
  have hmobile : d = .mobile := by
    cases d with
    | mobile => rfl
    | tablet => exact absurd hd.1 (by decide)
    | desktop => exact absurd (show (1024 : Int) < 320 from hd) (by decide)
  subst hmobile
  have hposition := hof.position
  generalize p.position = position at hposition
  cases hposition with
  | given e hwide hgiven hfirst =>
    cases e with
    | mobile => exact absurd rfl hgiven
    | tablet => rfl
    | desktop => cases hfirst .tablet (by decide) (by decide)
  | none h => cases h .tablet (by decide)

end Session

end ConsentBanner
