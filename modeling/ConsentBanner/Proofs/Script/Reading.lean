import ConsentBanner.Proofs.Json.RoundTrip
import ConsentBanner.Proofs.Script.Literal
import ConsentBanner.Proofs.Script.Segment

/-!
The literals of a script are read as the values that were written. Only line ends are lost: a template literal has no
carriage returns, whatever stands between its backticks.
-/

namespace ConsentBanner.Script

/-- The text with a line feed in place of every other end of a line. -/
def lineFeeds : List Char → List Char
  | [] => []
  | '\r' :: '\n' :: rest => '\n' :: lineFeeds rest
  | '\r' :: rest => '\n' :: lineFeeds rest
  | c :: rest => c :: lineFeeds rest

theorem lineFeeds_eq_self {text : List Char} (h : '\r' ∉ text) : lineFeeds text = text := by
  induction text with
  | nil => rfl
  | cons c rest ih =>
    rw [List.mem_cons, not_or] at h
    rw [lineFeeds, ih h.2]
    · exact fun _ hc => absurd hc.symm h.1
    · exact fun hc => absurd hc.symm h.1

theorem not_mem_lineFeeds (text : List Char) : '\r' ∉ lineFeeds text := by
  induction text using lineFeeds.induct with
  | case1 => exact nofun
  | case2 rest ih => simp [lineFeeds, ih]
  | case3 rest _ ih => simp [lineFeeds, ih]
  | case4 c rest _ hreturn ih =>
    rw [lineFeeds, List.mem_cons, not_or]
    · exact ⟨fun hc => hreturn hc.symm, ih⟩
    · assumption
    · assumption

/-- Exactly the texts without carriage returns stay as they are. -/
theorem lineFeeds_eq_self_iff {text : List Char} : lineFeeds text = text ↔ '\r' ∉ text :=
  ⟨fun h => h ▸ not_mem_lineFeeds text, lineFeeds_eq_self⟩

/-- A character that stands for itself after a backslash. The others begin escapes of other characters, or end a
line that goes on. -/
def escapesItself (c : Char) : Bool :=
  !c.isDigit && !(['b', 'f', 'n', 'r', 't', 'v', 'u', 'x', '\n', '\r', '\u2028', '\u2029'].contains c)

/-- One more character of a text that goes on. -/
def prepend (c : Char) (r : Option (List Char × List Char)) : Option (List Char × List Char) :=
  r.map fun (text, after) => (c :: text, after)

/-- What stands between backticks, from after the first on. Interpolations are no texts, and escapes of other
characters are not read. -/
def readQuasi : List Char → Option (List Char × List Char)
  | [] => none
  | '\x60' :: rest => some ([], rest)
  | '\x5c' :: c :: rest => if escapesItself c then prepend c (readQuasi rest) else none
  | '$' :: '\x7b' :: _ => none
  | c :: rest => prepend c (readQuasi rest)

/-- A template literal from after its opening mark on. The ends of lines in it are line feeds. -/
def readTemplate (cs : List Char) : Option (List Char × List Char) :=
  (readQuasi cs).map fun (text, after) => (lineFeeds text, after)

theorem readQuasi_plain {c : Char} {rest : List Char} (htick : c ≠ '\x60') (hslash : c ≠ '\x5c')
    (hdollar : c = '$' → rest.head? ≠ some '\x7b') : readQuasi (c :: rest) = prepend c (readQuasi rest) := by
  rw [readQuasi]
  · exact htick
  · exact fun _ _ hc => absurd hc hslash
  · rintro more rfl rfl
    exact hdollar rfl rfl

theorem readQuasi_escaped {c : Char} (h : escapesItself c) (rest : List Char) :
    readQuasi ('\x5c' :: c :: rest) = prepend c (readQuasi rest) := by
  rw [readQuasi, if_pos h]

theorem Spelled.head_brace {text out : List Char} (h : Spelled text out) (hout : out.head? = some '\x7b') :
    ['\x7b'] <+: text := by
  cases h with
  | nil => cases hout
  | plain _ _ _ _ _ =>
    cases hout
    simp
  | escaped _ _ => cases hout
  | tag _ _ => cases hout

/-- What is spelled between backticks is read as the text. -/
theorem readQuasi_of_spelled {text out : List Char} (h : Spelled text out) (rest : List Char) :
    readQuasi (out ++ '\x60' :: rest) = some (text, rest) := by
  induction h with
  | nil => rfl
  | @plain c more out hslash htick hdollar _ hspelled ih =>
    have hbrace : c = '$' → (out ++ '\x60' :: rest).head? ≠ some '\x7b' := by
      intro hc hhead
      refine hdollar hc (hspelled.head_brace ?_)
      cases out with
      | nil => cases hhead
      | cons d out => exact hhead
    rw [List.cons_append, readQuasi_plain htick hslash hbrace, ih]
    rfl
  | @escaped c more out hmark _ ih =>
    have hself : escapesItself c := by
      obtain rfl | rfl | rfl := hmark <;> decide
    rw [List.cons_append, List.cons_append, readQuasi_escaped hself, ih]
    rfl
  | @tag more out _ _ ih =>
    -- The escaped solidus is read as the plain one would be.
    have plain {c : Char} (hc : c = '/' ∨ c = '<') (cs : List Char) : readQuasi (c :: cs) = prepend c (readQuasi cs) := by
      obtain rfl | rfl := hc
      · exact readQuasi_plain (by decide) (by decide) fun h => absurd h (by decide)
      · exact readQuasi_plain (by decide) (by decide) fun h => absurd h (by decide)
    rw [List.cons_append, plain (.inl rfl)] at ih
    rw [List.cons_append, List.cons_append, List.cons_append, plain (.inr rfl), readQuasi_escaped (by decide), ih]
    rfl

theorem readTemplate_escapeTemplate (text rest : List Char) :
    readTemplate (escapeTemplate text ++ '\x60' :: rest) = some (lineFeeds text, rest) := by
  rw [readTemplate, readQuasi_of_spelled (spelled_escapeTemplate text)]
  rfl

/-- A literal at the start of a text. -/
def readLiteral (cs : List Char) : Option (Json × List Char) :=
  match cs with
  | '\x60' :: rest => (readTemplate rest).map fun (text, after) => (.str (String.ofList text), after)
  | cs => (Json.readValue (2 * cs.length) cs).toOption

/-- What a value is read as. -/
def asRead : Json → Json
  | .str s => .str (String.ofList (lineFeeds s.toList))
  | v => v.asWritten

/-- What is lost of JSON values are the carriage returns of texts, and nothing else. -/
theorem asRead_eq_iff {v : Json} (hv : v.IsPlain) : asRead v = v ↔ ∀ s, v = .str s → '\r' ∉ s.toList := by
  match v with
  | .str s =>
    have hlist : asRead (.str s) = .str s ↔ lineFeeds s.toList = s.toList := by
      rw [asRead, Json.str.injEq, ← String.toList_inj, String.toList_ofList]
    rw [hlist, lineFeeds_eq_self_iff]
    exact ⟨fun h _ hs => Json.str.inj hs ▸ h, fun h => h s rfl⟩
  | .null | .bool _ | .int _ | .float _ | .arr _ | .obj _ => exact ⟨nofun, fun _ => Json.asWritten_of_isPlain _ hv⟩

theorem isReadable_compact : Json.Format.compact.IsReadable where
  item := ⟨[], rfl, nofun⟩
  key := ⟨[], rfl, nofun⟩

/-- What is escaped for a script element is escaped inside texts only, where it is read. -/
theorem respells_markupEscape : Json.Respells markupEscape where
  mark := markupEscape_of_isMark
  read ascii opened c rest hrest := by
    obtain ⟨letter, hc, hletter⟩ | hc | ⟨hc, hquote, hslash, hlow, -⟩ := Json.writeChar_cases ascii c
    · have hkept := markupEscape_of_isMark (Json.isMark_of_escapeChar? hletter)
      rw [hc, List.flatMap_cons, List.flatMap_singleton, hkept]
      exact Json.readChars_letter hletter
    · rw [hc, flatMap_markupEscape fun _ => markupEscape_of_mem_unicodeEscape]
      exact Json.readChars_unicodeEscape c hrest
    · rw [hc, List.flatMap_singleton, markupEscape]
      split
      · exact Json.readChars_unicodeEscape c hrest
      · exact Json.readChars_plain hlow hquote hslash

theorem readValue_embeddedJson {v : Json} (hv : v.asWritten.IsPlain) (rest : List Char)
    (hrest : Json.IsNumber v.asWritten → Json.Ends rest) :
    Json.readValue (2 * (embeddedJson v ++ rest).length) (embeddedJson v ++ rest) = .ok (v.asWritten, rest) := by
  rw [embeddedJson, ← Json.write_asWritten]
  refine Json.readValue_write isReadable_compact respells_markupEscape v.asWritten hv rest hrest ?_
  rw [List.length_append]
  omega

theorem markupEscape_of_mem_markupEscape {c d : Char} (h : d ∈ markupEscape c) : markupEscape d = [d] := by
  by_cases hkept : markupEscape c = [c]
  · rw [hkept, List.mem_singleton] at h
    rw [h, hkept]
  · rw [markupEscape] at h hkept
    split at h
    · exact markupEscape_of_mem_unicodeEscape h
    · rename_i hplain
      rw [if_neg hplain] at hkept
      exact absurd rfl hkept

/-- No character that could end a script or one of its lines stands in embedded JSON. -/
theorem not_mem_embeddedJson (v : Json) : ∀ c ∈ ['<', '>', '&', '\u2028', '\u2029'], c ∉ embeddedJson v := by
  intro c hc hmem
  obtain ⟨d, -, hd⟩ := List.mem_flatMap.1 hmem
  have hescaped : ∀ c ∈ ['<', '>', '&', '\u2028', '\u2029'], markupEscape c ≠ [c] :=
    Text.forall_mem_of_all (by decide)
  exact hescaped c hc (markupEscape_of_mem_markupEscape hd)

/-- Nested objects with keys and texts that look like markup and like escapes. -/
def hostileJson : Json :=
  .obj [("</script>", .arr [.str "<!-- & -->", .str "\u2028\\u2028", .null]),
    ("\\u003c", .obj [("&amp;", .int (-7)), ("", .float (.finite true 0 Double.minExponent))])]

theorem readLiteral_literalList {v : Json} (hv : IsEnclosed v) (hplain : v.asWritten.IsPlain) (rest : List Char) :
    readLiteral (literalList v ++ rest) = some (asRead v, rest) := by
  cases v with
  | str s =>
    have hread := readTemplate_escapeTemplate s.toList rest
    rw [literalList, List.cons_append, List.append_assoc, readLiteral]
    change Option.map _ (readTemplate (escapeTemplate s.toList ++ '\x60' :: rest)) = _
    rw [hread]
    rfl
  | arr items =>
    have hread := readValue_embeddedJson hplain rest (fun h => h.elim)
    change (Json.readValue (2 * (embeddedJson (.arr items) ++ rest).length)
      (embeddedJson (.arr items) ++ rest)).toOption = _
    rw [hread]
    rfl
  | obj fields =>
    have hread := readValue_embeddedJson hplain rest (fun h => h.elim)
    change (Json.readValue (2 * (embeddedJson (.obj fields) ++ rest).length)
      (embeddedJson (.obj fields) ++ rest)).toOption = _
    rw [hread]
    rfl
  | _ => exact hv.elim

/-- The name of a slot. -/
def Segment.slot? : Segment → Option String
  | .text _ => none
  | .slot name => some name

theorem slot_mem_iff {name : String} {parts : List Segment} :
    .slot name ∈ parts ↔ name ∈ parts.filterMap Segment.slot? := by
  rw [List.mem_filterMap]
  constructor
  · exact fun h => ⟨_, h, rfl⟩
  · rintro ⟨s, hs, hname⟩
    cases s with
    | text cs => cases hname
    | slot other =>
      cases hname
      exact hs

/-- The values of the slots of a script, each with its name, up to the slot for script text. What stands between the
slots has to be as in the source. -/
def readSlots (raw : String) : List Segment → List Char → Option (List (String × Json))
  | [], _ => some []
  | .text part :: rest, cs => if part.isPrefixOf cs then readSlots raw rest (cs.drop part.length) else none
  | .slot name :: rest, cs =>
    if name = raw then some []
    else do
      let (v, after) ← readLiteral cs
      let values ← readSlots raw rest after
      return (name, v) :: values

/-- What was written in the slots of a source is read there. -/
theorem readSlots_writeSegments {raw : String} {parts : List Segment} {f : String → List Char} {g : String → Json}
    (h : ∀ name, .slot name ∈ parts → name ≠ raw → ∀ rest, readLiteral (f name ++ rest) = some (g name, rest)) :
    readSlots raw parts (writeSegments f parts) =
      some (((parts.filterMap Segment.slot?).takeWhile (· != raw)).map fun name => (name, g name)) := by
  induction parts with
  | nil => rfl
  | cons s rest ih =>
    have ih := ih fun name hname => h name (.tail _ hname)
    cases s with
    | text part =>
      change readSlots raw (.text part :: rest) (part ++ writeSegments f rest) = _
      rw [readSlots, if_pos (by simp), List.drop_left, ih]
      rfl
    | slot name =>
      change readSlots raw (.slot name :: rest) (f name ++ writeSegments f rest) = _
      rw [readSlots, List.filterMap_cons]
      by_cases hname : name = raw
      · rw [if_pos hname]
        simp [Segment.slot?, hname]
      · have hread := h name (.head _) hname (writeSegments f rest)
        rw [if_neg hname, hread]
        simp [Segment.slot?, hname, ih]

theorem filterMap_slot?_text (cs : List Char) (rest : List Segment) :
    (cs.map (fun c => Segment.text [c]) ++ rest).filterMap Segment.slot? = rest.filterMap Segment.slot? := by
  induction cs with
  | nil => rfl
  | cons c cs ih => exact ih

theorem filterMap_slot?_segments {parts : List Segment} (h : ∀ s ∈ parts, s.IsMarked) :
    (segments (writeSegments mark parts)).filterMap Segment.slot? = parts.filterMap Segment.slot? := by
  induction parts with
  | nil => rfl
  | cons s rest ih =>
    obtain ⟨hs, hrest⟩ := List.forall_mem_cons.1 h
    change (segments (s.write mark ++ writeSegments mark rest)).filterMap Segment.slot? = _
    cases s with
    | text cs => rw [Segment.write, segments_text hs, filterMap_slot?_text, ih hrest]; rfl
    | slot name => rw [Segment.write, segments_mark hs, List.filterMap_cons, ih hrest]; rfl

theorem filterMap_slot?_compact (parts : List Segment) :
    (parts.map Segment.compact).filterMap Segment.slot? = parts.filterMap Segment.slot? := by
  rw [List.filterMap_map]
  congr 1
  funext s
  cases s with
  | text cs => rfl
  | slot name => rfl

theorem filterMap_slot?_compactList {parts : List Segment} (hparts : ∀ s ∈ parts, s.IsWhole) :
    (segments (compactList (writeSegments mark parts))).filterMap Segment.slot? = parts.filterMap Segment.slot? := by
  rw [compactList_mark_segments hparts, filterMap_slot?_segments (isMarked_map_compact hparts),
    filterMap_slot?_compact]

end ConsentBanner.Script
