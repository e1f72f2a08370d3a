import ConsentBanner.Proofs.Json.Fields
import ConsentBanner.Proofs.Outcome
import ConsentBanner.Proofs.Script.Scan
import ConsentBanner.Proofs.Text
import ConsentBanner.Script.Skeleton

/-!
Skeletons as sources with marks. What is written for the slots of a source can be written for those of the
compact source instead. A source is split into marks and other characters, left to right; a skeleton of it takes values
for its slots and for nothing else, and writes each where its marks were.
-/

namespace ConsentBanner.Script

/-- The text of a segment, given one for each slot. -/
def Segment.write (f : String → List Char) : Segment → List Char
  | .text cs => cs
  | .slot name => f name

/-- Segments as one text, given one for each slot. -/
def writeSegments (f : String → List Char) (segments : List Segment) : List Char :=
  segments.flatMap (Segment.write f)

theorem Skeleton.substitute_eq (s : Skeleton) (values : List (String × Json)) (segments : List Segment) :
    s.substitute values segments =
      writeSegments (fun name => s.rendered name ((Fields.get? name values).getD .null)) segments := by
  induction segments with
  | nil => rfl
  | cons segment rest ih =>
    cases segment with
    | text cs => rw [substitute, ih]; rfl
    | slot name => rw [substitute, ih]; rfl

theorem mem_slotNames {name : String} {segments : List Segment} :
    name ∈ slotNames segments ↔ .slot name ∈ segments := by
  induction segments with
  | nil => simp [slotNames]
  | cons segment rest ih =>
    cases segment with
    | text cs => simp [slotNames, ih]
    | slot other =>
      by_cases he : name = other
      · simp [slotNames, he]
      · simp [slotNames, ih, he]

/-- The mark of a slot in a source. -/
def mark (name : String) : List Char := '\x7b' :: '\x7b' :: (name.toList ++ ['\x7d', '\x7d'])

/-- A name that a slot can have. -/
def IsSlotName (name : String) : Prop :=
  name.toList.head?.any isSlotStart = true ∧ ∀ d ∈ name.toList.tail, isSlotChar d = true

instance (name : String) : Decidable (IsSlotName name) :=
  decidable_of_iff (name.toList.head?.any isSlotStart = true ∧ name.toList.tail.all isSlotChar = true)
    (and_congr_right fun _ => List.all_eq_true)

theorem IsSlotName.eq_cons {name : String} (h : IsSlotName name) :
    ∃ c cs, name.toList = c :: cs ∧ isSlotStart c = true ∧ ∀ d ∈ cs, isSlotChar d = true := by
  obtain ⟨hstart, hrest⟩ := h
  cases hname : name.toList with
  | nil =>
    rw [hname] at hstart
    cases hstart
  | cons c cs =>
    rw [hname] at hstart hrest
    exact ⟨c, cs, rfl, hstart, hrest⟩

/-- A segment that is found again in a source: a text in which no mark can begin, or a slot with a mark. -/
def Segment.IsMarked : Segment → Prop
  | .text cs => Onset.nothing.through cs = some .nothing
  | .slot name => IsSlotName name

theorem segmentsFrom_skip (skipped rest : List Char) :
    segmentsFrom skipped.length (skipped ++ rest) = segments rest := by
  induction skipped with
  | nil => rfl
  | cons c skipped ih => rw [List.length_cons, List.cons_append, segmentsFrom, ih]

theorem slotAt?_mark {name : String} (h : IsSlotName name) (rest : List Char) :
    slotAt? (mark name ++ rest) = some (name.toList, rest) := by
  obtain ⟨c, cs, hname, hstart, hcs⟩ := h.eq_cons
  have hend : ∀ d ∈ ('\x7d' :: '\x7d' :: rest).head?, isSlotChar d = false := by
    rintro d ⟨⟩
    rfl
  have htext : mark name ++ rest = '\x7b' :: '\x7b' :: c :: (cs ++ '\x7d' :: '\x7d' :: rest) := by
    rw [mark, hname]
    simp
  rw [htext, slotAt?, if_pos hstart, Text.dropWhile_append_of_end hcs hend, Text.takeWhile_append_of_end hcs hend,
    hname]
  rfl

theorem segments_mark {name : String} (h : IsSlotName name) (rest : List Char) :
    segments (mark name ++ rest) = .slot name :: segments rest := by
  have hslot := slotAt?_mark h rest
  have hskip := segmentsFrom_skip ('\x7b' :: (name.toList ++ ['\x7d', '\x7d'])) rest
  rw [List.length_cons, List.length_append] at hskip
  rw [segments]
  change segmentsFrom 0 ('\x7b' :: ('\x7b' :: (name.toList ++ ['\x7d', '\x7d']) ++ rest)) = _
  rw [segmentsFrom]
  split
  · rename_i found after hfound
    cases hslot.symm.trans hfound
    rw [String.ofList_toList]
    exact congrArg _ hskip
  · rename_i hnone
    cases hslot.symm.trans hnone

theorem slotAt?_eq_none {c : Char} {cs : List Char} (h : c ≠ '\x7b' ∨ cs.head? ≠ some '\x7b') :
    slotAt? (c :: cs) = none := by
  unfold slotAt?
  split
  · rename_i hcs
    cases hcs
    simp at h
  · rfl

theorem segments_text {onset : Onset} {cs : List Char} (h : onset.through cs = some .nothing) (rest : List Char) :
    segments (cs ++ rest) = cs.map (fun c => .text [c]) ++ segments rest := by
  induction cs generalizing onset with
  | nil => rfl
  | cons c cs ih =>
    rw [Onset.through, Option.bind_eq_some_iff] at h
    obtain ⟨next, hnext, h⟩ := h
    have hnone : slotAt? (c :: (cs ++ rest)) = none := by
      apply slotAt?_eq_none
      by_cases hc : c = '\x7b'
      · refine .inr ?_
        have hbrace : next = .brace := by
          rw [hc, Onset.note, if_pos (beq_self_eq_true _)] at hnext
          split at hnext
          · cases hnext
          · exact (Option.some.inj hnext).symm
        cases cs with
        | nil =>
          rw [hbrace] at h
          cases h
        | cons d cs =>
          rintro ⟨⟩
          rw [hbrace] at h
          cases h
      · exact .inl hc
    rw [List.cons_append, segments, segmentsFrom]
    split
    · rename_i found
      rw [hnone] at found
      cases found
    · exact congrArg _ (ih h)

theorem writeSegments_chars (f : String → List Char) (cs : List Char) :
    writeSegments f (cs.map fun c => .text [c]) = cs := by
  induction cs with
  | nil => rfl
  | cons c cs ih => exact congrArg (c :: ·) ih

theorem writeSegments_append (f : String → List Char) (a b : List Segment) :
    writeSegments f (a ++ b) = writeSegments f a ++ writeSegments f b := List.flatMap_append

theorem writeSegments_segments {parts : List Segment} (h : ∀ s ∈ parts, s.IsMarked) (f : String → List Char) :
    writeSegments f (segments (writeSegments mark parts)) = writeSegments f parts := by
  induction parts with
  | nil => rfl
  | cons s rest ih =>
    obtain ⟨hs, hrest⟩ := List.forall_mem_cons.1 h
    change writeSegments f (segments (s.write mark ++ writeSegments mark rest)) = s.write f ++ writeSegments f rest
    rw [← ih hrest]
    cases s with
    | text cs => rw [Segment.write, segments_text hs, writeSegments_append, writeSegments_chars]; rfl
    | slot name => rw [Segment.write, segments_mark hs]; rfl

theorem isSlotChar_range {c : Char} (h : isSlotChar c = true) :
    c.toNat = 95 ∨ 48 ≤ c.toNat ∧ c.toNat ≤ 57 ∨ 97 ≤ c.toNat ∧ c.toNat ≤ 122 := by
  rw [isSlotChar, isSlotStart, Bool.or_eq_true, Bool.or_eq_true, Bool.and_eq_true, beq_iff_eq, decide_eq_true_eq,
    decide_eq_true_eq] at h
  obtain (⟨hlow, hhigh⟩ | rfl) | hdigit := h
  · have hlow : 97 ≤ c.toNat := hlow
    have hhigh : c.toNat ≤ 122 := hhigh
    omega
  · exact .inl rfl
  · simp only [Char.isDigit, Bool.and_eq_true, decide_eq_true_eq, ge_iff_le, UInt32.le_iff_toNat_le] at hdigit
    exact .inr (.inl hdigit)

/-- The characters of a mark are none that a compact script is without. -/
theorem solid_mark {name : String} (h : IsSlotName name) (after : List Char) (hafter : Solid after) :
    Solid ('\x7b' :: '\x7b' :: (name.toList ++ after)) := by
  obtain ⟨c, cs, hname, hstart, hcs⟩ := h.eq_cons
  have hall : ∀ d ∈ name.toList, d ≠ '/' ∧ ¬ isQuote d ∧ ¬ Text.isBlank d := by
    intro d hd
    have hslot : isSlotChar d = true := by
      rw [hname] at hd
      obtain rfl | hd := List.mem_cons.1 hd
      · rw [isSlotChar, hstart, Bool.true_or]
      · exact hcs d hd
    have hrange := isSlotChar_range hslot
    have ne {e : Char} (he : e.toNat < 48) : d ≠ e := by
      rintro rfl
      omega
    have htick : d ≠ '\x60' := by
      rintro rfl
      have hnumber : '\x60'.toNat = 96 := rfl
      omega
    refine ⟨ne (by decide), ?_, ?_⟩
    · simp [isQuote, ne (e := '\x27') (by decide), ne (e := '\x22') (by decide), htick]
    · simp only [Text.isBlank, Bool.or_eq_true, Bool.and_eq_true, decide_eq_true_eq, beq_iff_eq]
      omega
  exact .char (by decide) (by decide) (by decide) (.char (by decide) (by decide) (by decide)
    ((Solid.of_forall hall).append hafter))

theorem sealed_mark {name : String} (h : IsSlotName name) : Sealed (mark name) := by
  have hword : Text.isIdentifierChar '\x7d' = false := by decide +kernel
  have hbrace : Solid ['\x7d'] := Solid.nil.char (by decide) (by decide) (by decide)
  have hsealed := (solid_mark h ['\x7d'] hbrace).sealed_char (c := '\x7d') (by decide) (by decide) (by decide) hword
  rw [mark]
  simpa using hsealed

theorem compactList_mark {name : String} (h : IsSlotName name) : compactList (mark name) = mark name := by
  have hbraces : Solid ['\x7d', '\x7d'] :=
    (Solid.nil.char (by decide) (by decide) (by decide)).char (by decide) (by decide) (by decide)
  exact (solid_mark h _ hbraces).compactList_eq

/-- A segment of a clean source: a text that ends in a mark of punctuation, or a slot. -/
def Segment.IsWhole : Segment → Prop
  | .text cs => ∃ c, Clean (some c) cs ∧ Text.isIdentifierChar c = false ∧ c ≠ '\x7b'
  | .slot name => IsSlotName name

theorem Segment.IsWhole.isMarked {s : Segment} (h : s.IsWhole) : s.IsMarked := by
  cases s with
  | text cs =>
    obtain ⟨c, hclean, -⟩ := h
    exact hclean.onset
  | slot name => exact h

/-- A segment whose text is compact. -/
def Segment.compact : Segment → Segment
  | .text cs => .text (compactList cs)
  | .slot name => .slot name

theorem slot_mem_map_compact {name : String} {parts : List Segment} :
    .slot name ∈ parts.map Segment.compact ↔ .slot name ∈ parts := by
  rw [List.mem_map]
  constructor
  · rintro ⟨s, hs, he⟩
    cases s with
    | text cs => cases he
    | slot other =>
      cases he
      exact hs
  · exact fun h => ⟨_, h, rfl⟩

theorem Segment.IsWhole.isMarked_compact {s : Segment} (h : s.IsWhole) : s.compact.IsMarked := by
  cases s with
  | text cs =>
    obtain ⟨c, hclean, -, hbrace⟩ := h
    exact hclean.onset_compact hbrace
  | slot name => exact h

theorem compactList_writeSegments {parts : List Segment} (hparts : ∀ s ∈ parts, s.IsWhole)
    {f g : String → List Char} (hf : ∀ name, .slot name ∈ parts → Sealed (f name) ∧ compactList (f name) = g name) :
    compactList (writeSegments f parts) = writeSegments g (parts.map Segment.compact) := by
  induction parts with
  | nil => exact compactList_nil
  | cons s rest ih =>
    have ih := ih (fun s h => hparts s (.tail _ h)) (fun name h => hf name (.tail _ h))
    change compactList (s.write f ++ writeSegments f rest) = _
    cases s with
    | text cs =>
      obtain ⟨c, hclean, hword, -⟩ := hparts _ (.head _)
      rw [Segment.write, hclean.scanned.sealed hword, ih]
      rfl
    | slot name =>
      obtain ⟨hsealed, hcompact⟩ := hf name (.head _)
      rw [Segment.write, hsealed, hcompact, ih]
      rfl

theorem isMarked_map_compact {parts : List Segment} (hparts : ∀ s ∈ parts, s.IsWhole) :
    ∀ s ∈ parts.map Segment.compact, s.IsMarked := by
  intro s hs
  obtain ⟨t, ht, rfl⟩ := List.mem_map.1 hs
  exact (hparts t ht).isMarked_compact

theorem compactList_mark_segments {parts : List Segment} (hparts : ∀ s ∈ parts, s.IsWhole) :
    compactList (writeSegments mark parts) = writeSegments mark (parts.map Segment.compact) :=
  compactList_writeSegments hparts fun _ hname => ⟨sealed_mark (hparts _ hname), compactList_mark (hparts _ hname)⟩

/-- A filled source, compact, is the compact source filled with what is left of the fillings. -/
theorem compactList_fill {parts : List Segment} (hparts : ∀ s ∈ parts, s.IsWhole) {f g : String → List Char}
    (hf : ∀ name, .slot name ∈ parts → Sealed (f name) ∧ compactList (f name) = g name) :
    compactList (writeSegments f parts) = writeSegments g (segments (compactList (writeSegments mark parts))) := by
  rw [compactList_writeSegments hparts hf, compactList_mark_segments hparts,
    writeSegments_segments (isMarked_map_compact hparts)]

section Filling

/-- A source split left to right into marks of slots and the characters at which no mark begins. -/
inductive SplitInto : List Char → List Segment → Prop
  | nil : SplitInto [] []
  | slot {name : String} {rest : List Char} {parts : List Segment} : IsSlotName name → SplitInto rest parts →
    SplitInto (mark name ++ rest) (.slot name :: parts)
  | text {c : Char} {rest : List Char} {parts : List Segment} :
    (∀ name, IsSlotName name → ¬ mark name <+: c :: rest) → SplitInto rest parts →
    SplitInto (c :: rest) (.text [c] :: parts)

theorem SplitInto.writeSegments_mark {source : List Char} {parts : List Segment} (h : SplitInto source parts) :
    writeSegments mark parts = source := by
  induction h with
  | nil => rfl
  | slot _ _ ih => exact congrArg (mark _ ++ ·) ih
  | text _ _ ih => exact congrArg (_ :: ·) ih

theorem eq_mark_of_slotAt? {cs name after : List Char} (h : slotAt? cs = some (name, after)) :
    IsSlotName (String.ofList name) ∧ cs = mark (String.ofList name) ++ after := by
  unfold slotAt? at h
  split at h
  · rename_i c rest
    split at h
    · rename_i hstart
      split at h
      · rename_i after' hafter
        cases h
        constructor
        · rw [IsSlotName, String.toList_ofList]
          exact ⟨by simpa using hstart, fun d hd => Text.of_mem_takeWhile hd⟩
        · rw [mark, String.toList_ofList]
          have hsplit := List.takeWhile_append_dropWhile (p := isSlotChar) (l := rest)
          rw [hafter] at hsplit
          simp [hsplit]
      · cases h
    · cases h
  · cases h

theorem slotAt?_eq_none_iff {cs : List Char} :
    slotAt? cs = none ↔ ∀ name, IsSlotName name → ¬ mark name <+: cs := by
  constructor
  · rintro h name hname ⟨rest, rfl⟩
    rw [slotAt?_mark hname] at h
    cases h
  · intro h
    cases hslot : slotAt? cs with
    | none => rfl
    | some found =>
      obtain ⟨hname, hcs⟩ := eq_mark_of_slotAt? hslot
      exact absurd ⟨found.2, hcs.symm⟩ (h _ hname)

theorem segments_of_slotAt?_eq_none {c : Char} {rest : List Char} (h : slotAt? (c :: rest) = none) :
    segments (c :: rest) = .text [c] :: segments rest := by
  rw [segments, segmentsFrom]
  split
  · rename_i hfound
    rw [h] at hfound
    cases hfound
  · rfl

theorem splitInto_segmentsFrom (skip : Nat) (source : List Char) :
    SplitInto (source.drop skip) (segmentsFrom skip source) := by
  fun_induction segmentsFrom skip source with
  | case1 =>
    rw [List.drop_nil]
    exact .nil
  | case2 skip c cs ih => exact ih
  | case3 c cs name after hslot ih =>
    obtain ⟨hname, hcs⟩ := eq_mark_of_slotAt? hslot
    have hlength : (mark (String.ofList name)).length = name.length + 4 := by
      rw [mark, String.toList_ofList]
      simp
    have hafter : cs.drop (name.length + 3) = after := by
      have hdrop := congrArg (List.drop (name.length + 4)) hcs
      rwa [← hlength, List.drop_left, hlength, List.drop_succ_cons] at hdrop
    rw [hafter] at ih
    rw [List.drop_zero, hcs]
    exact .slot hname ih
  | case4 c cs hslot ih => exact .text (slotAt?_eq_none_iff.1 hslot) ih

/-- A source is split in one way, and this is how it is cut into segments. -/
theorem splitInto_iff {source : List Char} {parts : List Segment} :
    SplitInto source parts ↔ parts = segments source := by
  constructor
  · intro h
    induction h with
    | nil => rfl
    | slot hname _ ih => rw [segments_mark hname, ih]
    | text hnone _ ih => rw [segments_of_slotAt?_eq_none (slotAt?_eq_none_iff.2 hnone), ih]
  · rintro rfl
    exact splitInto_segmentsFrom 0 source

theorem sortedNames_eq_nil_iff {names : List String} : sortedNames names = [] ↔ names = [] := by
  rw [List.eq_nil_iff_forall_not_mem, List.eq_nil_iff_forall_not_mem]
  simp [sortedNames]

theorem missingFrom_eq_nil_iff {names others : List String} :
    missingFrom names others = [] ↔ ∀ name ∈ names, name ∈ others := by
  rw [missingFrom, sortedNames_eq_nil_iff, List.filter_eq_nil_iff]
  simp

namespace Skeleton

theorem ofSource_eq_ok {source : String} {rawSlots : List String} {s : Skeleton} :
    ofSource source rawSlots = .ok s ↔
      s.segments = Script.segments source.toList ∧ s.rawSlots = rawSlots ∧
        ∀ name ∈ rawSlots, .slot name ∈ Script.segments source.toList := by
  obtain ⟨segments, slots, hslots⟩ := s
  simp only [ofSource, mem_slotNames]
  split
  · rename_i hraw
    rw [Except.ok.injEq, Skeleton.mk.injEq]
    exact ⟨fun h => ⟨h.1.symm, h.2.symm, hraw⟩, fun h => ⟨h.1.symm, h.2.1.symm⟩⟩
  · rename_i hraw
    exact ⟨nofun, fun h => absurd h.2.2 hraw⟩

theorem exists_ofSource {source : String} {rawSlots : List String}
    (h : ∀ name ∈ rawSlots, .slot name ∈ Script.segments source.toList) : ∃ s, ofSource source rawSlots = .ok s := by
  have hslots : ∀ name ∈ rawSlots, name ∈ slotNames (Script.segments source.toList) :=
    fun name hname => mem_slotNames.2 (h name hname)
  exact ⟨⟨_, rawSlots, hslots⟩, ofSource_eq_ok.2 ⟨rfl, rfl, h⟩⟩

/-- A skeleton is filled when a value is given for each of its slots and for nothing else, and none of them has the
reserved name. -/
theorem fill_eq_ok {s : Skeleton} {values : List (String × Json)} {out : String} :
    s.fill values = .ok out ↔
      ownName ∉ values.map (·.1) ∧ (∀ name, name ∈ values.map (·.1) ↔ .slot name ∈ s.segments) ∧
        out = String.ofList (s.substitute values s.segments) := by
  have hkeys : (∀ name, name ∈ values.map (·.1) ↔ .slot name ∈ s.segments) ↔
      missingFrom s.slots (values.map (·.1)) = [] ∧ missingFrom (values.map (·.1)) s.slots = [] := by
    simp only [missingFrom_eq_nil_iff, slots, mem_slotNames]
    exact ⟨fun h => ⟨fun name => (h name).2, fun name => (h name).1⟩, fun h name => ⟨h.2 name, h.1 name⟩⟩
  rw [hkeys, fill]
  split
  · rename_i hown
    rw [List.contains_iff_mem] at hown
    exact ⟨nofun, fun h => absurd hown h.1⟩
  · rename_i hown
    rw [List.contains_iff_mem] at hown
    split
    · rename_i hmissing hunknown
      rw [Except.ok.injEq]
      exact ⟨fun h => ⟨hown, ⟨hmissing, hunknown⟩, h.symm⟩, fun h => h.2.2.symm⟩
    · rename_i hmissing hunknown
      exact ⟨nofun, fun h => absurd h.2.1.2 hunknown⟩
    · rename_i hmissing
      exact ⟨nofun, fun h => (hmissing h.2.1.1 h.2.1.2).elim⟩

end Skeleton

/-- What is written for a slot: the text of its value as it stands for a raw slot, a literal for any other. -/
def slotText (rawSlots : List String) (values : List (String × Json)) (name : String) : List Char :=
  match Fields.get? name values with
  | none => []
  | some v => if name ∈ rawSlots then if v.isNull then [] else v.display.toList else literalList v

theorem writeSegments_congr {f g : String → List Char} {parts : List Segment}
    (h : ∀ name, .slot name ∈ parts → f name = g name) : writeSegments f parts = writeSegments g parts := by
  induction parts with
  | nil => rfl
  | cons part rest ih =>
    have hrest := ih fun name hname => h name (.tail _ hname)
    change part.write f ++ writeSegments f rest = part.write g ++ writeSegments g rest
    rw [hrest]
    cases part with
    | text cs => rfl
    | slot name => rw [Segment.write, Segment.write, h name (.head _)]

theorem Skeleton.substitute_segments {s : Skeleton} {values : List (String × Json)}
    (h : ∀ name, .slot name ∈ s.segments → name ∈ values.map (·.1)) :
    s.substitute values s.segments = writeSegments (slotText s.rawSlots values) s.segments := by
  rw [substitute_eq]
  apply writeSegments_congr
  intro name hname
  obtain ⟨v, hv⟩ := Fields.exists_get?_of_mem (h name hname)
  simp only [slotText, hv, Option.getD_some, rendered, List.contains_iff_mem]
  congr 1
  cases v with
  | _ => rfl

/-- The skeleton of a source and what it is filled with. It exists when each raw slot has a mark in the source. Values
are taken for the slots that have a mark, and for nothing else; the source is then written with the text of a value for
each mark and all else as it stands, so that what looks like a mark in a value is kept. A slot cannot be filled that has
the reserved name. -/
theorem Skeleton.ofSource_fill (source : String) (rawSlots : List String) :
    ∃ parts, (∀ other, SplitInto source.toList other ↔ other = parts) ∧ writeSegments mark parts = source.toList ∧
      ((∃ s, ofSource source rawSlots = .ok s) ↔ ∀ name ∈ rawSlots, .slot name ∈ parts) ∧
      ∀ values out, (ofSource source rawSlots >>= fun s => s.fill values) = .ok out ↔
        (∀ name ∈ rawSlots, .slot name ∈ parts) ∧ (∀ name, name ∈ values.map (·.1) ↔ .slot name ∈ parts) ∧
          .slot ownName ∉ parts ∧ out.toList = writeSegments (slotText rawSlots values) parts := by
  have hsource : SplitInto source.toList (Script.segments source.toList) := splitInto_iff.2 rfl
  refine ⟨Script.segments source.toList, fun _ => splitInto_iff, hsource.writeSegments_mark, ?_, ?_⟩
  · constructor
    · rintro ⟨s, hs⟩
      exact (ofSource_eq_ok.1 hs).2.2
    · intro hraw
      exact exists_ofSource hraw
  · intro values out
    rw [bind_eq_ok]
    constructor
    · rintro ⟨s, hs, hfill⟩
      obtain ⟨hsegments, rfl, hraw⟩ := ofSource_eq_ok.1 hs
      obtain ⟨hown, hkeys, rfl⟩ := fill_eq_ok.1 hfill
      rw [← hsegments] at hraw ⊢
      refine ⟨hraw, hkeys, fun hslot => hown ((hkeys _).2 hslot), ?_⟩
      rw [String.toList_ofList, substitute_segments fun name => (hkeys name).2]
    · rintro ⟨hraw, hkeys, hown, hout⟩
      obtain ⟨s, hs⟩ := exists_ofSource hraw
      obtain ⟨hsegments, rfl, -⟩ := ofSource_eq_ok.1 hs
      rw [← hsegments] at hkeys hown hout
      refine ⟨s, hs, fill_eq_ok.2 ⟨fun hmem => hown ((hkeys _).1 hmem), hkeys, ?_⟩⟩
      rw [substitute_segments fun name => (hkeys name).2, ← hout, String.ofList_toList]

end Filling

end ConsentBanner.Script
