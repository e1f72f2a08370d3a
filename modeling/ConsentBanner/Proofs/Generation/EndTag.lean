import ConsentBanner.Proofs.Generation.Script
import ConsentBanner.Proofs.Script.EndTag

/-!
End tags of the script element in what is generated: those of mixed case in the texts of a banner, and no others.
-/

namespace ConsentBanner.Generation

open Script Validation

variable {c : ClientConfig} {components : List Component} {p : Parts}

/-- The texts that are written in slots. -/
def slotTexts (c : ClientConfig) (p : Parts) : List String :=
  [c.bannerId, c.baseUrl, c.domainId, p.markup, p.stylesheet, p.kindStyles, p.panel]

theorem mem_slotTexts {s : String} :
    s ∈ slotTexts c p ↔ ∃ name, (name, .str s) ∈ slotValues c components p ∧ name ≠ rawSlot := by
  constructor
  · intro h
    simp only [slotTexts, List.mem_cons, List.not_mem_nil, or_false] at h
    rcases h with rfl | rfl | rfl | rfl | rfl | rfl | rfl
    · exact ⟨"banner_id", by simp [slotValues], by decide⟩
    · exact ⟨"base_url", by simp [slotValues], by decide⟩
    · exact ⟨"domain_id", by simp [slotValues], by decide⟩
    · exact ⟨"markup", by simp [slotValues], by decide⟩
    · exact ⟨"stylesheet", by simp [slotValues], by decide⟩
    · exact ⟨"layout_css", by simp [slotValues], by decide⟩
    · exact ⟨"panel", by simp [slotValues], by decide⟩
  · rintro ⟨name, h, hname⟩
    simp only [slotValues, List.mem_cons, Prod.mk.injEq, List.not_mem_nil, or_false, Json.str.injEq,
      ClientConfig.scriptPlatform, ClientConfig.scriptSettings, reduceCtorEq, and_false, false_or] at h
    rcases h with ⟨-, rfl⟩ | ⟨-, rfl⟩ | ⟨-, rfl⟩ | ⟨-, rfl⟩ | ⟨-, rfl⟩ | ⟨-, rfl⟩ | ⟨-, rfl⟩ | ⟨rfl, -⟩
    all_goals first
      | exact absurd rfl hname
      | simp [slotTexts]

/-- What comes into the script is what comes with the texts: source and script text hold no end tag. -/
theorem holdsEndTag_filled {parts : List Segment} (hslots : ∀ name, .slot name ∈ parts ↔ .slot name ∈ Client.segments)
    (htext : ∀ s ∈ parts, s.IsMarked) {g : String → List Char}
    (hg : ∀ name v, (name, v) ∈ slotValues c components p → name ≠ rawSlot → g name = literalList v)
    (hraw : Onset.nothing.through (g rawSlot) = some .nothing) :
    HoldsEndTag (writeSegments g parts) ↔ ∃ s ∈ slotTexts c p, HoldsMixedEndTag s.toList := by
  have hfenced (name : String) (hname : .slot name ∈ parts) : Fenced (g name) := by
    by_cases hr : name = rawSlot
    · rw [hr]
      exact .inr hraw
    · obtain ⟨v, hv⟩ := (@exists_value_iff c components p name).2 ((hslots name).1 hname)
      rw [hg name v hv hr]
      exact fenced_literalList (isEnclosed_of_mem hv)
  rw [holdsEndTag_writeSegments (fun cs hcs => htext _ hcs) hfenced]
  constructor
  · rintro ⟨name, hname, htag⟩
    by_cases hr : name = rawSlot
    · rw [hr] at htag
      exact absurd htag (not_holdsEndTag_of_through hraw)
    · obtain ⟨v, hv⟩ := (@exists_value_iff c components p name).2 ((hslots name).1 hname)
      rw [hg name v hv hr] at htag
      obtain ⟨s, rfl, hs⟩ := holdsEndTag_literalList.1 htag
      exact ⟨s, mem_slotTexts.2 ⟨name, hv, hr⟩, hs⟩
  · rintro ⟨s, hs, htag⟩
    obtain ⟨name, hv, hr⟩ := mem_slotTexts.1 hs
    refine ⟨name, (hslots name).2 (exists_value_iff.1 ⟨_, hv⟩), ?_⟩
    rw [hg name _ hv hr]
    exact holdsEndTag_literalList.2 ⟨s, rfl, htag⟩

theorem holdsEndTag_script (c : ClientConfig) (components : List Component) (p : Parts) :
    HoldsEndTag (writeSegments (inserted (slotValues c components p)) Client.segments) ↔
      ∃ s ∈ slotTexts c p, HoldsMixedEndTag s.toList := by
  refine holdsEndTag_filled (fun _ => Iff.rfl) (fun s hs => (Client.isWhole_segments s hs).isMarked)
    (fun _ _ => inserted_eq_literalList) ?_
  rw [inserted_rawSlot]
  split
  · exact Client.clean_consentModeSource.onset
  · rfl

theorem holdsEndTag_compact (c : ClientConfig) (components : List Component) (p : Parts) :
    HoldsEndTag (compactList (writeSegments (inserted (slotValues c components p)) Client.segments)) ↔
      ∃ s ∈ slotTexts c p, HoldsMixedEndTag s.toList := by
  rw [compactList_writeSegments Client.isWhole_segments fun _ h => ⟨sealed_inserted h, compactList_inserted h⟩]
  refine @holdsEndTag_filled c components p _ (fun _ => slot_mem_map_compact)
    (isMarked_map_compact Client.isWhole_segments) (insertedCompact (slotValues c components p)) ?_ ?_
  · intro name v hv hname
    rw [insertedCompact, if_neg hname]
    exact inserted_eq_literalList hv hname
  · rw [insertedCompact, if_pos rfl, inserted_rawSlot]
    split
    · exact Client.clean_consentModeSource.onset_compact (by decide)
    · rw [String.toList_empty, compactList_nil]
      rfl

theorem scriptPart_eq {stages : Stages} (hassemble : stages.assemble = Stages.standard.assemble)
    (hcompact : ∀ script, stages.compact script = Stages.standard.compact script ∨
      ∃ message, stages.compact script = .error message)
    {options : Options} {identity : Identity} {t : Template} {parts : Parts} {script : String}
    (h : scriptPart stages options identity t parts = .ok script) :
    ∃ c, c = ClientConfig.ofTemplate t options identity (bannerId options t) ∧
      (script.toList = writeSegments (inserted (slotValues c t.components parts)) Client.segments ∨
        script.toList = compactList (writeSegments (inserted (slotValues c t.components parts)) Client.segments)) := by
  refine ⟨_, rfl, ?_⟩
  rw [scriptPart, hassemble] at h
  simp only [Stages.standard, fill_eq_writeSegments, mapError_ok] at h
  generalize writeSegments (inserted (slotValues (ClientConfig.ofTemplate t options identity (bannerId options t))
    t.components parts)) Client.segments = filled at *
  split at h
  · cases h
    obtain hc | ⟨message, hc⟩ := hcompact (String.ofList filled)
    · rw [hc]
      refine .inr ?_
      change (Script.compact (String.ofList _)).toList = _
      rw [Script.compact, String.toList_ofList, String.toList_ofList]
    · rw [hc]
      exact .inl String.toList_ofList
  · cases h
    exact .inl String.toList_ofList

theorem generate_parts {stages : Stages} {config : Configuration} {options : Options} {template : Json}
    {artifacts : Artifacts} (h : generate stages config options template = .ok artifacts) :
    ∃ t, prepare config.limits options template = .ok t ∧ artifacts.bannerId = bannerId options t ∧
      scriptPart stages options config.identity t ⟨artifacts.markup, artifacts.stylesheet,
        Stylesheet.ofKind t.layout.desktop, artifacts.panel⟩ = .ok artifacts.script ∧
      artifacts.document = if options.format = .document then
        some (scriptDocument artifacts.script artifacts.bannerId options.language) else none := by
  simp only [generate, bind_eq_ok] at h
  obtain ⟨t, ht, script, hscript, h⟩ := h
  cases h
  exact ⟨t, ht, rfl, hscript, rfl⟩

/-- Lines, each with a line feed after it. -/
def fedLines (lines : List String) : List Char := lines.flatMap fun line => line.toList ++ ['\n']

theorem holdsEndTag_fedLines (lines : List String) (rest : List Char) :
    HoldsEndTag (fedLines lines ++ rest) ↔ (∃ line ∈ lines, HoldsEndTag line.toList) ∨ HoldsEndTag rest := by
  induction lines with
  | nil => simp [fedLines]
  | cons line lines ih =>
    have htext : fedLines (line :: lines) ++ rest = line.toList ++ '\n' :: (fedLines lines ++ rest) := by
      simp [fedLines]
    rw [htext, holdsEndTag_append_cons (by decide), ih]
    simp [or_assoc]

theorem join_append_cons (lines : List String) (last : String) (more : List String) :
    (Text.join "\n" (lines ++ last :: more)).toList =
      fedLines lines ++ (Text.join "\n" (last :: more)).toList := by
  induction lines with
  | nil => rfl
  | cons line rest ih =>
    rw [fedLines, List.flatMap_cons, List.append_assoc, ← fedLines, ← ih, List.cons_append, Text.join, String.toList_append,
      String.toList_append]
    · rfl
    · simp

theorem lt_not_mem_escape (s : String) : '<' ∉ (Markup.escape s).toList := by
  rw [Markup.escape, String.toList_ofList]
  exact fun h => (Markup.escapeList_safe h).1 rfl

theorem not_holdsEndTag_of_isSome {text : List Char} (h : (Onset.nothing.through text).isSome) : ¬ HoldsEndTag text := by
  obtain ⟨onset, honset⟩ := Option.isSome_iff_exists.1 h
  exact not_holdsEndTag_of_through honset

theorem not_holdsEndTag_documentHead (language title : String) :
    ∀ line ∈ documentHead language title, ¬ HoldsEndTag line.toList := by
  have hlanguage : ¬ HoldsEndTag ("<html lang=\"" ++ Markup.escape language ++ "\">").toList := by
    have htext : ("<html lang=\"" ++ Markup.escape language ++ "\">").toList =
        "<html lang=".toList ++ '\x22' :: ((Markup.escape language).toList ++ ['\x22', '>']) := by
      simp
    rw [htext, holdsEndTag_append_cons (by decide), not_or]
    refine ⟨not_holdsEndTag_of_isSome (by decide), not_holdsEndTag_of_not_mem fun h => ?_⟩
    obtain h | h := List.mem_append.1 h
    · exact lt_not_mem_escape language h
    · exact absurd h (by decide)
  have htitle : ¬ HoldsEndTag ("<title>" ++ Markup.escape title ++ "</title>").toList := by
    have htext : ("<title>" ++ Markup.escape title ++ "</title>").toList =
        "<title".toList ++ '>' :: ((Markup.escape title).toList ++ "</title>".toList) := by
      simp
    rw [htext, holdsEndTag_append_cons (by decide), not_or, holdsEndTag_append_of_not_mem (lt_not_mem_escape title)]
    exact ⟨not_holdsEndTag_of_isSome (by decide), not_holdsEndTag_of_isSome (by decide)⟩
  simp only [documentHead, List.forall_mem_cons]
  exact ⟨not_holdsEndTag_of_isSome (by decide), hlanguage, not_holdsEndTag_of_isSome (by decide),
    not_holdsEndTag_of_isSome (by decide), not_holdsEndTag_of_isSome (by decide), htitle, List.forall_mem_nil _⟩

/-- Around a script without end tags, the first end tag of a document is its own. -/
theorem scriptDocument_endTag {script : String} (h : ¬ HoldsEndTag script.toList) (bannerId language : String) :
    ∃ before, (scriptDocument script bannerId language).toList = before ++ "</script>\n</body>\n</html>".toList ∧
      script.toList <:+: before ∧ ¬ HoldsEndTag (before ++ "</scrip".toList) := by
  have hlines : documentHead language ("Consent banner " ++ bannerId) ++
      ["</head>", "<body>", "<script>", script, "</script>", "</body>", "</html>"] =
      (documentHead language ("Consent banner " ++ bannerId) ++ ["</head>", "<body>", "<script>", script]) ++
        "</script>" :: ["</body>", "</html>"] := by
    simp
  refine ⟨fedLines (documentHead language ("Consent banner " ++ bannerId) ++
    ["</head>", "<body>", "<script>", script]), ?_, ?_, ?_⟩
  · rw [scriptDocument, hlines, join_append_cons]
    congr 1
  · refine ⟨fedLines (documentHead language ("Consent banner " ++ bannerId) ++ ["</head>", "<body>", "<script>"]),
      ['\n'], ?_⟩
    simp [fedLines]
  · rw [holdsEndTag_fedLines, not_or]
    constructor
    · rintro ⟨line, hline, htag⟩
      obtain hline | hline := List.mem_append.1 hline
      · exact not_holdsEndTag_documentHead _ _ line hline htag
      · simp only [List.mem_cons, List.not_mem_nil, or_false] at hline
        obtain rfl | rfl | rfl | rfl := hline
        · exact not_holdsEndTag_of_isSome (by decide) htag
        · exact not_holdsEndTag_of_isSome (by decide) htag
        · exact not_holdsEndTag_of_isSome (by decide) htag
        · exact h htag
    · rintro ⟨tag, htag, hin⟩
      have hlength := hin.length_le
      rw [htag.length_eq] at hlength
      exact absurd hlength (by decide)

/-- A generated script, compact or not, holds an end tag just when one of the texts in its slots holds one that is
neither in lower case nor in upper case as a whole. Without such a text, the first end tag of a document is the one
that it closes its own script with. -/
theorem generate_endTag {stages : Stages} {config : Configuration} {options : Options} {template : Json}
    {artifacts : Artifacts} (hassemble : stages.assemble = Stages.standard.assemble)
    (hcompact : ∀ script, stages.compact script = Stages.standard.compact script ∨
      ∃ message, stages.compact script = .error message)
    (h : generate stages config options template = .ok artifacts) :
    ∃ t, prepare config.limits options template = .ok t ∧
      (HoldsEndTag artifacts.script.toList ↔ ∃ text ∈ [artifacts.bannerId, options.baseUrl, options.domainId,
        artifacts.markup, artifacts.stylesheet, Stylesheet.ofKind t.layout.desktop, artifacts.panel],
        HoldsMixedEndTag text.toList) ∧
      (¬ HoldsEndTag artifacts.script.toList → ∀ document, artifacts.document = some document →
        ∃ before, document.toList = before ++ "</script>\n</body>\n</html>".toList ∧
          artifacts.script.toList <:+: before ∧ ¬ HoldsEndTag (before ++ "</scrip".toList)) := by
  obtain ⟨t, ht, hid, hscript, hdocument⟩ := generate_parts h
  refine ⟨t, ht, ?_, fun hnone document hd => ?_⟩
  · obtain ⟨c, rfl, he | he⟩ := scriptPart_eq hassemble hcompact hscript
    · rw [he, holdsEndTag_script, hid]
      rfl
    · rw [he, holdsEndTag_compact, hid]
      rfl
  · rw [hdocument] at hd
    split at hd
    · cases hd
      exact scriptDocument_endTag hnone _ _
    · cases hd

/-- An end tag of mixed case in the identifier of a banner closes the script. -/
theorem generate_endTag_mixed : ∃ artifacts,
    generate Stages.standard {} { bannerId := some "</Script>" } (.obj plainTemplate) = .ok artifacts ∧
      HoldsEndTag artifacts.script.toList := by
  have hsome : (prepare {} { bannerId := some "</Script>" } (.obj plainTemplate)).toOption.isSome = true := by
    decide +kernel
  obtain ⟨t, ht⟩ := exists_eq_ok hsome
  obtain ⟨artifacts, h, -⟩ := @generate_standard {} _ _ _ ht
  obtain ⟨_, -, hiff, -⟩ := generate_endTag rfl (fun _ => .inl rfl) h
  obtain ⟨_, -, hid, -⟩ := generate_parts h
  have htext : artifacts.bannerId = "</Script>" := hid
  refine ⟨artifacts, h, hiff.2 ⟨artifacts.bannerId, .head _, "</Script".toList, ?_⟩⟩
  have htag : IsEndTag "</Script".toList := by
    rw [IsEndTag]
    decide
  rw [htext]
  exact ⟨htag, by decide, by decide, by decide⟩

end ConsentBanner.Generation
