import ConsentBanner.Client.Setup
import ConsentBanner.Client.Skeleton
import ConsentBanner.Proofs.Script.Segment

/-!
The source of the script that runs a banner is clean, line by line.
-/

namespace ConsentBanner.Client

open Script

/-- The characters of a line that is written in one piece or in several. -/
inductive Spells : String → List Char → Prop
  | literal (cs : List Char) : Spells (String.ofList cs) cs
  | append {s t : String} {a b : List Char} : Spells s a → Spells t b → Spells (s ++ t) (a ++ b)

theorem Spells.toList_eq {s : String} {cs : List Char} (h : Spells s cs) : s.toList = cs := by
  induction h with
  | literal cs => exact String.toList_ofList
  | append _ _ ha hb => rw [String.toList_append, ha, hb]

theorem Spells.clean {last : Option Char} {s : String} {cs : List Char} (h : Spells s cs)
    (hclean : cleanEnd? cs = some last) : Clean last s.toList := by
  rw [h.toList_eq]
  exact .of_cleanEnd? hclean

/-- The lines of a block, with their characters. -/
inductive Lines : List String → List (List Char) → Prop
  | nil : Lines [] []
  | line {s : String} {cs : List Char} {rest : List String} {texts : List (List Char)} :
    Spells s cs → Lines rest texts → Lines (s :: rest) (cs :: texts)

theorem Lines.toList_block {lines : List String} {texts : List (List Char)} (h : Lines lines texts) :
    (block lines).toList = texts.flatMap (· ++ ['\n']) := by
  rw [block, String.toList_join]
  induction h with
  | nil => rfl
  | line hs _ ih =>
    rw [List.map_cons, List.flatMap_cons, List.flatMap_cons, ih, String.toList_append, hs.toList_eq]
    rfl

theorem Lines.clean {last : Option Char} {lines : List String} {texts : List (List Char)} (h : Lines lines texts)
    (hclean : cleanLines? texts = some last) : Clean last (block lines).toList := by
  rw [h.toList_block]
  exact .of_cleanLines? hclean

theorem Lines.clean_some {lines : List String} {texts : List (List Char)} (h : Lines lines texts)
    (hclean : (cleanLines? texts).isSome) : ∃ last, Clean last (block lines).toList := by
  obtain ⟨last, hlast⟩ := Option.isSome_iff_exists.1 hclean
  exact ⟨last, h.clean hlast⟩

/-- The blocks of the body before the last. -/
def bodyBlocks : List String := [
  setup, stubSource, frameSource, storageSource, consentSource, regionSource, decisionSource,
  placementSource, controllerSource, dataSource, dispatchSource, modeSource, reportSource, bannerSource,
  preferencesSource, applySource, eventSource, insertSource, emergencySource, showSource, lifecycleSource]

theorem clean_bodyBlocks : ∀ s ∈ bodyBlocks, ∃ last, Clean last s.toList := by
  simp only [bodyBlocks, List.forall_mem_cons]
  refine ⟨?_, ?_, ?_, ?_, ?_, ?_, ?_, ?_, ?_, ?_, ?_, ?_, ?_, ?_, ?_, ?_, ?_, ?_, ?_, ?_, ?_, List.forall_mem_nil _⟩
  all_goals
    apply Lines.clean_some
    · repeat
        first
          | exact .nil
          | apply Lines.line (.literal _)
          | apply Lines.line (.append (.literal _) (.literal _))
          | apply Lines.line (.append (.append (.literal _) (.literal _)) (.literal _))
    · decide +kernel

theorem clean_fallbackSource : Clean (some '\x7d') fallbackSource.toList := by
  apply Lines.clean
  · repeat
      first
        | exact .nil
        | apply Lines.line (.literal _)
        | apply Lines.line (.append (.literal _) (.literal _))
        | apply Lines.line (.append (.append (.literal _) (.literal _)) (.literal _))
  · decide +kernel

theorem clean_bodySource : Clean (some '\x7d') bodySource.toList := by
  have hjoin : bodySource = String.join (bodyBlocks ++ [fallbackSource]) := rfl
  have hclean {blocks : List String} (h : ∀ s ∈ blocks, ∃ last, Clean last s.toList) :
      ∃ last, Clean last (blocks.flatMap String.toList) := by
    induction blocks with
    | nil => exact ⟨none, .nil⟩
    | cons s blocks ih =>
      obtain ⟨last, hs⟩ := h s (.head _)
      obtain ⟨last', hblocks⟩ := ih fun t ht => h t (.tail _ ht)
      exact ⟨_, hs.append hblocks⟩
  obtain ⟨last, hblocks⟩ := hclean clean_bodyBlocks
  have h := hblocks.append clean_fallbackSource
  rw [hjoin, String.toList_join, List.flatMap_append, List.flatMap_singleton]
  exact h

theorem clean_entrySource : Clean (some ';') entrySource.toList := by
  apply Lines.clean
  · repeat
      first
        | exact .nil
        | apply Lines.line (.literal _)
        | apply Lines.line (.append (.literal _) (.literal _))
  · decide +kernel

theorem clean_consentModeSource : Clean (some ';') consentModeSource.toList := by
  apply Lines.clean
  · repeat
      first
        | exact .nil
        | apply Lines.line (.literal _)
  · decide +kernel

/-- The source with a mark for each slot. -/
def source : List Char := writeSegments mark segments

theorem isWhole_text {c : Char} {cs : List Char} (hc : c ∈ ['=', ';', '\x7d']) (h : Clean (some c) cs) :
    (Segment.text cs).IsWhole := by
  have hmarks : ∀ c ∈ ['=', ';', '\x7d'], Text.isIdentifierChar c = false ∧ c ≠ '\x7b' :=
    Text.forall_mem_of_all (by decide)
  exact ⟨c, h, hmarks c hc⟩

theorem clean_parameters :
    ∀ p ∈ parameters, Clean (some '=') ("  var " ++ p.1 ++ " = ").toList ∧ IsSlotName p.2 := by
  repeat
    first
      | exact List.forall_mem_nil _
      | refine List.forall_mem_cons.2
          ⟨⟨(Spells.append (.append (.literal _) (.literal _)) (.literal _)).clean rfl, by decide⟩, ?_⟩

theorem isWhole_parameterSegments : ∀ s ∈ parameterSegments, s.IsWhole := by
  intro s hs
  obtain ⟨p, hp, hs⟩ := List.mem_flatMap.1 hs
  obtain ⟨hclean, hname⟩ := clean_parameters p hp
  rw [List.mem_cons, List.mem_cons, List.mem_singleton] at hs
  obtain rfl | rfl | rfl := hs
  · exact isWhole_text (by decide) hclean
  · exact hname
  · exact isWhole_text (c := ';') (by decide) (.of_cleanEnd? rfl)

theorem isWhole_segments : ∀ s ∈ segments, s.IsWhole := by
  have hhead : Clean (some ';') "\n(function () \x7b\n  'use strict';\n\n".toList := (Spells.literal _).clean rfl
  have hentry : Clean (some ';') ("\n" ++ entrySource).toList := by
    rw [String.toList_append]
    exact (Clean.of_cleanEnd? (a := ['\n']) rfl).append clean_entrySource
  intro s hs
  rw [segments, List.mem_cons, List.mem_append] at hs
  obtain rfl | hs | hs := hs
  · exact isWhole_text (by decide) hhead
  · exact isWhole_parameterSegments s hs
  · rw [List.mem_cons, List.mem_cons, List.mem_singleton] at hs
    obtain rfl | rfl | rfl := hs
    · exact isWhole_text (by decide) clean_bodySource
    · exact (by decide : IsSlotName "consent_mode")
    · exact isWhole_text (by decide) hentry

end ConsentBanner.Client
