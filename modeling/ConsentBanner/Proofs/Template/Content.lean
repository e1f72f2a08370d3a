import Mathlib.Data.List.Basic
import ConsentBanner.Proofs.Json.Fields
import ConsentBanner.Proofs.Schema
import ConsentBanner.Proofs.Validation.Component
import ConsentBanner.Template.Read

/-!
The text for which content is checked beside the texts that are shown of it.
-/

namespace ConsentBanner

open Checked Reader Validation

namespace Content

/-- The text that content has for a language itself. -/
def own? (language : String) : Content → Option String
  | plain _ => none
  | localized texts => if language.isEmpty then none else given? language texts

theorem resolve_some (c : Content) (language : String) :
    c.resolve (some language) = (c.own? language).getD (c.resolve none) := by
  cases c with
  | plain s => rfl
  | localized texts =>
    simp only [resolve, own?, Option.filter_some, Option.filter_none, Option.bind_none]
    cases language.isEmpty with
    | true => rfl
    | false =>
      simp only [Bool.not_false, if_true, Option.bind_some, Bool.false_eq_true, if_false]
      cases given? language texts with
      | some s => rfl
      | none => rfl

/-- Raw texts by language among which the one that is checked is shown: each key is a text and stands once, the English
text is a text if there is one, and the first one is not in bytes. -/
structure Clear (texts : List (String × Json)) : Prop where
  keys : (texts.map (·.1)).Nodup
  bare : ∀ f ∈ texts, f.2.bare = f.2
  english : valueOf "en" texts = .null ∨ ∃ s, valueOf "en" texts = .str s
  first : ∀ f ∈ texts.head?, ∀ bs, f.2 ≠ .bytes bs

theorem keyOf_of_bare {f : String × Json} (h : f.2.bare = f.2) : Json.keyOf f = .str f.1 := by
  obtain ⟨k, v⟩ := f
  cases v with
  | keyed key w =>
    -- No value holds itself.
    have hsize := congrArg sizeOf h
    simp only [Json.bare, Json.keyed.sizeOf_spec] at hsize
    omega
  | _ => rfl

/-- The text of a language map that is shown, unless none is given. -/
def shown? (v : Json) : Option String := if v.isNull then none else some v.display

theorem readTexts_eq {texts : List (String × Json)} (h : Clear texts) :
    readTexts texts = texts.filterMap fun f => (shown? f.2).map (f.1, ·) := by
  have hmap : (texts.filterMap fun f =>
        let v := f.2.bare
        if v.isNull then none else some ((Json.keyOf f).display, v.display)) =
      texts.filterMap fun f => (shown? f.2).map (f.1, ·) := by
    apply List.filterMap_congr
    intro f hf
    dsimp only
    rw [h.bare f hf, keyOf_of_bare (h.bare f hf), shown?]
    split
    · rfl
    · rfl
  rw [readTexts, hmap, Fields.ofPairs_of_nodup]
  exact h.keys.sublist (Fields.keys_filterMap_sublist shown? texts)

/-- Texts that have the English and the first text of raw ones. -/
structure Follows (texts : List (String × Json)) (read : List (String × String)) : Prop where
  english : ∀ s, Fields.get? "en" texts = some (.str s) → Fields.get? "en" read = some s
  silent : valueOf "en" texts = .null → Fields.get? "en" read = none
  first : ∀ k s, texts.head? = some (k, .str s) → read.head? = some (k, s)

theorem follows_readTexts {texts : List (String × Json)} (h : Clear texts) : Follows texts (readTexts texts) := by
  rw [readTexts_eq h]
  constructor
  · intro s hs
    rw [Fields.get?_filterMap h.keys, hs]
    rfl
  · intro hnull
    rw [Fields.get?_filterMap h.keys]
    cases hget : Fields.get? "en" texts with
    | none => rfl
    | some v =>
      rw [valueOf, hget, Option.getD_some] at hnull
      subst hnull
      rfl
  · intro k s hs
    cases texts with
    | nil => cases hs
    | cons f rest =>
      cases hs
      rfl

theorem entries_cons_eq_valid {α : Type} {read : Reader α} {k : String} {v : Json} {rest : List (String × Json)}
    {values : List (String × α)} (hbare : v.bare = v) (h : entries read ((k, v) :: rest) = .valid values) :
    ∃ a values', read v = .valid a ∧ entries read rest = .valid values' ∧ values = (k, a) :: values' := by
  cases v with
  | keyed key w =>
    have hsize := congrArg sizeOf hbare
    simp only [Json.bare, Json.keyed.sizeOf_spec] at hsize
    omega
  | _ =>
    simp only [entries, seq_eq_valid, map_eq_valid, under_eq_valid] at h
    obtain ⟨_, values', ⟨a, ha, rfl⟩, hrest, rfl⟩ := h
    exact ⟨a, values', ha, hrest, rfl⟩

theorem follows_entries {texts : List (String × Json)} {read : List (String × String)}
    (hbare : ∀ f ∈ texts, f.2.bare = f.2) (h : entries string texts = .valid read) : Follows texts read := by
  induction texts generalizing read with
  | nil =>
    cases h
    exact ⟨nofun, fun _ => rfl, nofun⟩
  | cons f rest ih =>
    obtain ⟨k, v⟩ := f
    rw [List.forall_mem_cons] at hbare
    obtain ⟨a, read', ha, hrest, rfl⟩ := entries_cons_eq_valid hbare.1 h
    have hfollows := ih hbare.2 hrest
    refine ⟨fun s hs => ?_, fun hnull => ?_, fun k' s hs => ?_⟩
    · by_cases hk : k = "en"
      · subst hk
        rw [Fields.get?_cons_self] at hs
        cases hs
        cases ha
        exact Fields.get?_cons_self ..
      · rw [Fields.get?_cons_of_ne hk] at hs ⊢
        exact hfollows.english s hs
    · by_cases hk : k = "en"
      · subst hk
        rw [valueOf, Fields.get?_cons_self, Option.getD_some] at hnull
        subst hnull
        cases ha
      · rw [valueOf, Fields.get?_cons_of_ne hk] at hnull
        rw [Fields.get?_cons_of_ne hk]
        exact hfollows.silent hnull
    · cases hs
      cases ha
      rfl

theorem keys_entries {α : Type} {read : Reader α} {texts : List (String × Json)} {values : List (String × α)}
    (hbare : ∀ f ∈ texts, f.2.bare = f.2) (h : entries read texts = .valid values) :
    values.map (·.1) = texts.map (·.1) := by
  induction texts generalizing values with
  | nil =>
    cases h
    rfl
  | cons f rest ih =>
    obtain ⟨k, v⟩ := f
    rw [List.forall_mem_cons] at hbare
    obtain ⟨a, values', -, hrest, rfl⟩ := entries_cons_eq_valid hbare.1 h
    rw [List.map_cons, List.map_cons, ih hbare.2 hrest]

theorem follows_dictionary {texts : List (String × Json)} {read : List (String × String)} (hclear : Clear texts)
    (h : dictionary string (.obj texts) = .valid read) : Follows texts read := by
  rw [dictionary, map_eq_valid] at h
  obtain ⟨pairs, hpairs, rfl⟩ := h
  rw [Fields.ofPairs_of_nodup]
  · exact follows_entries hclear.bare hpairs
  · rw [keys_entries hclear.bare hpairs]
    exact hclear.keys

theorem not_textFits_empty {limits : Limits} : ¬ TextFits limits (.str "") := by
  rintro (_ | _)
  rename_i hb _
  cases hb

/-- The text that is checked among texts by language is the one that is shown where a language has none of its own. -/
theorem resolve_localized {limits : Limits} {texts : List (String × Json)} {read : List (String × String)}
    (hclear : Clear texts) (hfollows : Follows texts read) (hfits : TextFits limits (englishOrFirst texts)) :
    englishOrFirst texts = .str ((localized read).resolve none) := by
  simp only [resolve, Option.filter_none, Option.bind_none]
  by_cases hset : (valueOf "en" texts).isSet = true
  · rw [englishOrFirst, if_pos hset]
    obtain hnull | ⟨s, hs⟩ := hclear.english
    · rw [hnull] at hset
      cases hset
    · have hgiven : given? "en" read = some s := by
        rw [given?, hfollows.english s (get?_of_valueOf hs (by simp))]
        split
        · rename_i he
          cases he
          rw [hs] at hset
          cases hset
        · rfl
      rw [hgiven]
      exact hs
  · have hgiven : given? "en" read = none := by
      obtain hnull | ⟨s, hs⟩ := hclear.english
      · rw [given?, hfollows.silent hnull]
      · rw [hs] at hset
        have hempty : s = "" := by simpa [Json.isSet] using hset
        subst hempty
        rw [given?, hfollows.english "" (get?_of_valueOf hs (by simp))]
        rfl
    rw [englishOrFirst, if_neg hset] at hfits ⊢
    rw [hgiven]
    cases texts with
    | nil => exact (not_textFits_empty hfits).elim
    | cons f rest =>
      obtain ⟨k, v⟩ := f
      have hbare : v.bare = v := hclear.bare _ (.head _)
      simp only [List.head?_cons, Option.map_some, Option.getD_some, hbare] at hfits ⊢
      by_cases hfirst : v.isSet = true
      · rw [if_pos hfirst] at hfits ⊢
        cases hfits with
        | str hb hl => rw [hfollows.first k _ rfl, Option.map_some, Option.getD_some]
        | bytes hb hl => exact (hclear.first _ rfl _ rfl).elim
      · rw [if_neg hfirst] at hfits
        exact (not_textFits_empty hfits).elim

/-- Raw content in which one text is given, or texts by language and nothing beside them. -/
inductive Unmixed : Json → Prop
  | text (s : String) : Unmixed (.str s)
  | single {fields : List (String × Json)} (hkind : Fields.get? "kind" fields = none)
      (htexts : ∀ texts, Fields.get? "texts" fields ≠ some (.obj texts)) : Unmixed (.obj fields)
  | plain {fields : List (String × Json)} (hkind : Fields.get? "kind" fields = some (.str "plain"))
      (htexts : ∀ f texts, Fields.get? "texts" fields ≠ some (.obj (f :: texts))) : Unmixed (.obj fields)
  | texts {fields texts : List (String × Json)} (hkind : Fields.get? "kind" fields = none)
      (htexts : Fields.get? "texts" fields = some (.obj texts)) (hne : texts ≠ []) (hclear : Clear texts) :
      Unmixed (.obj fields)
  | localized {fields texts : List (String × Json)} (hkind : Fields.get? "kind" fields = some (.str "localized"))
      (htexts : ∀ f texts, Fields.get? "texts" fields ≠ some (.obj (f :: texts)))
      (htext : ∀ s, Fields.get? "text" fields ≠ some (.str s))
      (hlanguages : Fields.get? "by_language" fields = some (.obj texts)) (hclear : Clear texts) : Unmixed (.obj fields)

theorem rawText_texts {fields texts : List (String × Json)} (h : Fields.get? "texts" fields = some (.obj texts))
    (hne : texts ≠ []) : rawText (.obj fields) = .ok (englishOrFirst texts) := by
  obtain ⟨f, rest, rfl⟩ := List.exists_cons_of_ne_nil hne
  simp only [rawText, h]

/-- Content without texts by language whose kind is not that of those has the text that it gives checked. -/
theorem rawText_single {fields : List (String × Json)} {limits : Limits} {t : Json}
    (htexts : ∀ f texts, Fields.get? "texts" fields ≠ some (.obj (f :: texts)))
    (hkind : (valueOf "kind" fields).asString? ≠ some "localized") (h : rawText (.obj fields) = .ok t)
    (hfits : TextFits limits t) : ∃ s, Fields.get? "text" fields = some (.str s) ∧ t = .str s := by
  simp only [rawText] at h
  split at h
  · rename_i f texts he
    exact (htexts f texts he).elim
  · rename_i s hs _
    cases h
    exact ⟨s, hs, rfl⟩
  · rw [if_neg (by simpa using hkind)] at h
    cases h
    exact (not_textFits_empty hfits).elim

theorem rawText_localized {fields texts : List (String × Json)} {limits : Limits} {t : Json}
    (hkind : Fields.get? "kind" fields = some (.str "localized"))
    (htexts : ∀ f texts, Fields.get? "texts" fields ≠ some (.obj (f :: texts)))
    (htext : ∀ s, Fields.get? "text" fields ≠ some (.str s))
    (hlanguages : Fields.get? "by_language" fields = some (.obj texts)) (h : rawText (.obj fields) = .ok t)
    (hfits : TextFits limits t) : t = englishOrFirst texts := by
  simp only [rawText, hkind, hlanguages] at h
  rw [if_pos (by rfl)] at h
  simp only [Option.getD_some] at h
  split at h
  · cases h
    rfl
  · cases h
    exact (not_textFits_empty hfits).elim

/-- The text for which unmixed content is checked is shown where a language has none of its own. -/
theorem resolve_of_unmixed {limits : Limits} {v t : Json} {c : Content} (hv : Unmixed v) (hraw : rawText v = .ok t)
    (hfits : TextFits limits t) (hread : Content.read v = .valid c) : t = .str (c.resolve none) := by
  cases hv with
  | text s =>
    cases hraw
    cases hread
    rfl
  | single hkind htexts =>
    obtain ⟨s, hs, rfl⟩ := rawText_single (fun f texts => htexts _) (by rw [valueOf, hkind]; simp [Json.asString?]) hraw hfits
    simp only [Content.read, hkind] at hread
    split at hread
    · rename_i texts he
      exact (htexts texts he).elim
    · rename_i w hw _
      cases hs.symm.trans hw
      cases hread
      rw [hfits.isSet, if_pos rfl]
      rfl
    · rename_i hnone _
      rw [hs] at hnone
      cases hnone
  | plain hkind htexts =>
    obtain ⟨s, hs, rfl⟩ := rawText_single htexts (by rw [valueOf, hkind]; simp [Json.asString?]) hraw hfits
    simp only [Content.read, hkind, readTagged, under_eq_valid, map_eq_valid] at hread
    obtain ⟨a, ha, rfl⟩ := hread
    cases field_eq_valid hs ha
    rfl
  | texts hkind htexts hne hclear =>
    rw [rawText_texts htexts hne] at hraw
    cases hraw
    simp only [Content.read, hkind, htexts] at hread
    cases hread
    exact resolve_localized hclear (follows_readTexts hclear) hfits
  | localized hkind htexts htext hlanguages hclear =>
    cases rawText_localized hkind htexts htext hlanguages hraw hfits
    simp only [Content.read, hkind, readTagged, under_eq_valid, map_eq_valid] at hread
    obtain ⟨a, ha, rfl⟩ := hread
    exact resolve_localized hclear (follows_dictionary hclear (field_eq_valid hlanguages ha)) hfits

end Content

end ConsentBanner
