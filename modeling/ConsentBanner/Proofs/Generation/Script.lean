import ConsentBanner.Proofs.Client.Source
import ConsentBanner.Proofs.Generation.Basic
import ConsentBanner.Proofs.Script.Literal
import ConsentBanner.Proofs.Script.Reading

/-!
The script of a banner: what is written in its slots, what of that is left when it is made compact, and that its values
are read from it as they were put into it.
-/

namespace ConsentBanner

namespace Generation

open Script

/-- The slot whose value is script text. -/
def rawSlot : String := "consent_mode"

/-- What is written in a slot. -/
def inserted (values : List (String × Json)) (name : String) : List Char :=
  Client.skeleton.rendered name ((Fields.get? name values).getD .null)

variable (c : ClientConfig) (components : List Component) (p : Parts)

theorem fill_eq_writeSegments : Client.skeleton.fill (slotValues c components p) =
    .ok (String.ofList (writeSegments (inserted (slotValues c components p)) Client.segments)) := by
  rw [fill_slotValues, Skeleton.substitute_eq]
  rfl

variable {c components p} {name : String} {v : Json}

theorem nodup_slotValues : ((slotValues c components p).map (·.1)).Nodup := by
  simp only [slotValues, List.map_cons, List.map_nil]
  decide

theorem exists_value_iff : (∃ v, (name, v) ∈ slotValues c components p) ↔ .slot name ∈ Client.segments := by
  have hslots : name ∈ (slotValues c components p).map (·.1) ↔ .slot name ∈ Client.segments := by
    rw [← skeleton_slots c components p]
    exact mem_slotNames
  rw [← hslots]
  simp

theorem isEnclosed_of_mem (h : (name, v) ∈ slotValues c components p) : IsEnclosed v := by
  simp only [slotValues, List.mem_cons, Prod.mk.injEq, List.not_mem_nil, or_false] at h
  rcases h with ⟨-, rfl⟩ | ⟨-, rfl⟩ | ⟨-, rfl⟩ | ⟨-, rfl⟩ | ⟨-, rfl⟩ | ⟨-, rfl⟩ | ⟨-, rfl⟩ | ⟨-, rfl⟩ | ⟨-, rfl⟩ |
    ⟨-, rfl⟩ | ⟨-, rfl⟩
  all_goals trivial

theorem inserted_eq_literalList (h : (name, v) ∈ slotValues c components p) (hname : name ≠ rawSlot) :
    inserted (slotValues c components p) name = literalList v := by
  have hraw : Client.skeleton.rawSlots.contains name = false := by
    change [rawSlot].contains name = false
    simp [hname]
  unfold inserted Skeleton.rendered
  rw [Fields.get?_of_mem nodup_slotValues h, hraw, if_neg Bool.false_ne_true]
  rfl

theorem inserted_rawSlot : inserted (slotValues c components p) rawSlot =
    (if c.consentMode then Client.consentModeSource else "").toList := by
  have hmem : (rawSlot, .str (if c.consentMode then Client.consentModeSource else "")) ∈ slotValues c components p := by
    simp [slotValues, rawSlot]
  have hraw : Client.skeleton.rawSlots.contains rawSlot = true := by
    change [rawSlot].contains rawSlot = true
    simp
  unfold inserted Skeleton.rendered
  rw [Fields.get?_of_mem nodup_slotValues hmem, hraw, if_pos rfl]
  rfl

/-- What is left of the text in a slot when the script is made compact. -/
def insertedCompact (values : List (String × Json)) (name : String) : List Char :=
  if name = rawSlot then compactList (inserted values name) else inserted values name

theorem compactList_inserted (h : .slot name ∈ Client.segments) :
    compactList (inserted (slotValues c components p) name) = insertedCompact (slotValues c components p) name := by
  rw [insertedCompact]
  split
  · rfl
  · rename_i hname
    obtain ⟨v, hv⟩ := (@exists_value_iff c components p name).2 h
    rw [inserted_eq_literalList hv hname, compactList_literal]

theorem sealed_inserted (h : .slot name ∈ Client.segments) : Sealed (inserted (slotValues c components p) name) := by
  by_cases hname : name = rawSlot
  · rw [hname, inserted_rawSlot]
    split
    · have hword : Text.isIdentifierChar ';' = false := by decide +kernel
      exact Client.clean_consentModeSource.scanned.sealed hword
    · exact .nil
  · obtain ⟨v, hv⟩ := (@exists_value_iff c components p name).2 h
    rw [inserted_eq_literalList hv hname]
    exact sealed_literal (isEnclosed_of_mem hv)

theorem compactList_script (c : ClientConfig) (components : List Component) (p : Parts) :
    compactList (writeSegments (inserted (slotValues c components p)) Client.segments) =
      writeSegments (insertedCompact (slotValues c components p)) (segments (compactList Client.source)) :=
  compactList_fill Client.isWhole_segments fun _ h => ⟨sealed_inserted h, compactList_inserted h⟩

end Generation

end ConsentBanner

namespace ConsentBanner.Generation

open Script

/-- The values that a script holds as literals, as they are read from it. -/
def readBack (values : List (String × Json)) : List (String × Json) :=
  (values.filter (·.1 != rawSlot)).map fun (name, v) => (name, asRead v)

variable {c : ClientConfig} {components : List Component} {p : Parts}

theorem filterMap_slot?_client : Client.segments.filterMap Segment.slot? = (slotValues c components p).map (·.1) := rfl

theorem readSlots_script {parts : List Segment} {f : String → List Char}
    (hplain : ∀ entry ∈ slotValues c components p, entry.2.asWritten.IsPlain)
    (hslots : parts.filterMap Segment.slot? = Client.segments.filterMap Segment.slot?)
    (hf : ∀ name ≠ rawSlot, f name = inserted (slotValues c components p) name) :
    readSlots rawSlot parts (writeSegments f parts) = some (readBack (slotValues c components p)) := by
  have hread : ∀ name, .slot name ∈ parts → name ≠ rawSlot → ∀ rest, readLiteral (f name ++ rest) =
      some (asRead ((Fields.get? name (slotValues c components p)).getD .null), rest) := by
    intro name hmem hname rest
    have hslot : .slot name ∈ Client.segments := by rwa [slot_mem_iff, ← hslots, ← slot_mem_iff]
    obtain ⟨v, hv⟩ := (@exists_value_iff c components p name).2 hslot
    rw [hf name hname, inserted_eq_literalList hv hname, Fields.get?_of_mem nodup_slotValues hv]
    exact readLiteral_literalList (isEnclosed_of_mem hv) (hplain _ hv) rest
  rw [readSlots_writeSegments hread, hslots, @filterMap_slot?_client c components p]
  rfl

/-- The script of a banner is its source with a text in each slot, and the compact script is the compact source with
the same texts, but for the script text that stands in a slot, which is compact. From both the same values are read.
They are the values that were put in, unless these are texts with carriage returns. -/
theorem script_literals (c : ClientConfig) (components : List Component) (p : Parts) :
    ∃ script, Client.skeleton.fill (slotValues c components p) = .ok script ∧
      script.toList = writeSegments (inserted (slotValues c components p)) (segments Client.source) ∧
      (compact script).toList =
        writeSegments (insertedCompact (slotValues c components p)) (segments (compactList Client.source)) ∧
      ((∀ entry ∈ slotValues c components p, entry.2.asWritten.IsPlain) →
        readSlots rawSlot (segments Client.source) script.toList = some (readBack (slotValues c components p)) ∧
          readSlots rawSlot (segments (compactList Client.source)) (compact script).toList =
            some (readBack (slotValues c components p))) ∧
      ∀ entry ∈ slotValues c components p, entry.2.IsPlain →
        (asRead entry.2 = entry.2 ↔ ∀ s, entry.2 = .str s → '\r' ∉ s.toList) := by
  have hmarked : ∀ s ∈ Client.segments, s.IsMarked := fun s hs => (Client.isWhole_segments s hs).isMarked
  have hsource : writeSegments (inserted (slotValues c components p)) Client.segments =
      writeSegments (inserted (slotValues c components p)) (segments Client.source) :=
    (writeSegments_segments hmarked _).symm
  have hcompact : (compact (String.ofList (writeSegments (inserted (slotValues c components p)) Client.segments))).toList =
      writeSegments (insertedCompact (slotValues c components p)) (segments (compactList Client.source)) := by
    rw [compact, String.toList_ofList, String.toList_ofList, compactList_script]
  refine ⟨_, fill_eq_writeSegments c components p, ?_, hcompact, fun hplain => ⟨?_, ?_⟩, fun _ _ => asRead_eq_iff⟩
  · rw [String.toList_ofList, hsource]
  · rw [String.toList_ofList, hsource]
    exact readSlots_script hplain (filterMap_slot?_segments hmarked) fun _ _ => rfl
  · rw [hcompact]
    exact readSlots_script hplain (filterMap_slot?_compactList Client.isWhole_segments) fun _ hname => if_neg hname

/-- A banner whose identifier has a carriage return. -/
def returnConfig : ClientConfig where
  bannerId := "a\rb"

/-- A carriage return in the identifier of a banner is read as a line feed. -/
theorem script_literals_carriageReturn :
    (∀ entry ∈ slotValues returnConfig [] ⟨"", "", "", ""⟩, entry.2.asWritten.IsPlain) ∧
    ∃ script values, Client.skeleton.fill (slotValues returnConfig [] ⟨"", "", "", ""⟩) = .ok script ∧
      readSlots rawSlot (segments Client.source) script.toList = some values ∧
      readSlots rawSlot (segments (compactList Client.source)) (compact script).toList = some values ∧
      Fields.get? "banner_id" values = some (.str "a\nb") := by
  have hplain : ∀ entry ∈ slotValues returnConfig [] ⟨"", "", "", ""⟩, entry.2.asWritten.IsPlain := by decide +kernel
  obtain ⟨script, hfill, -, -, hread, -⟩ := script_literals returnConfig [] ⟨"", "", "", ""⟩
  obtain ⟨hscript, hcompact⟩ := hread hplain
  exact ⟨hplain, script, _, hfill, hscript, hcompact, rfl⟩

end ConsentBanner.Generation
