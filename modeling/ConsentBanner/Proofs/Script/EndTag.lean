import ConsentBanner.Proofs.Script.Literal
import ConsentBanner.Proofs.Script.Segment

/-!
End tags of the script element inside scripts. Letters count in either case, but the escapes for literals know
two of the spellings only.
-/

namespace ConsentBanner.Script

/-- The opening of an end tag of a script element, in letters of either case. -/
def IsEndTag (tag : List Char) : Prop := tag.map Char.toLower = "</script".toList

def HoldsEndTag (text : List Char) : Prop := ∃ tag, IsEndTag tag ∧ tag <:+: text

/-- A text with an end tag that is neither in lower case nor in upper case as a whole. -/
def HoldsMixedEndTag (text : List Char) : Prop :=
  ∃ tag, IsEndTag tag ∧ tag ≠ '<' :: Spelling.lowerTag ∧ tag ≠ '<' :: Spelling.upperTag ∧ tag <:+: text

namespace IsEndTag

variable {tag : List Char}

theorem eq_cons (h : IsEndTag tag) :
    ∃ s c more, tag = '<' :: '/' :: s :: c :: more ∧ s ∈ ['s', 'S'] ∧ c ∈ ['c', 'C'] := by
  have hmap : tag.map Char.toLower = '<' :: '/' :: 's' :: 'c' :: "ript".toList := h
  obtain ⟨lt, _, rfl, hlt, hmap⟩ := List.map_eq_cons_iff.1 hmap
  obtain ⟨slash, _, rfl, hslash, hmap⟩ := List.map_eq_cons_iff.1 hmap
  obtain ⟨s, _, rfl, hs, hmap⟩ := List.map_eq_cons_iff.1 hmap
  obtain ⟨c, more, rfl, hc, -⟩ := List.map_eq_cons_iff.1 hmap
  obtain rfl := List.mem_singleton.1 (Text.mem_of_toLower (List.mem_singleton_self _) (by decide) hlt)
  obtain rfl := List.mem_singleton.1 (Text.mem_of_toLower (List.mem_singleton_self _) (by decide) hslash)
  exact ⟨s, c, more, rfl, Text.mem_of_toLower (.head _) (by decide) hs, Text.mem_of_toLower (.head _) (by decide) hc⟩

theorem length_eq (h : IsEndTag tag) : tag.length = 8 := by
  have hlength := congrArg List.length h
  rwa [List.length_map] at hlength

theorem not_mem {x : Char} (h : IsEndTag tag) (hx : x.toLower ∉ "</script".toList) : x ∉ tag :=
  fun hm => hx (h ▸ List.mem_map_of_mem hm)

theorem through_eq_none (h : IsEndTag tag) (onset : Onset) (rest : List Char) : onset.through (tag ++ rest) = none := by
  obtain ⟨s, c, more, rfl, hs, hc⟩ := h.eq_cons
  have hlt : onset.note '<' = some .nothing := rfl
  have hslash : Onset.nothing.note '/' = some .slash := rfl
  have hletter : Onset.slash.note s = some .slashS := by
    obtain rfl | hs := List.mem_cons.1 hs
    · rfl
    · obtain rfl := List.mem_singleton.1 hs
      rfl
  have hend : Onset.slashS.note c = none := by
    obtain rfl | hc := List.mem_cons.1 hc
    · rfl
    · obtain rfl := List.mem_singleton.1 hc
      rfl
  change onset.through ('<' :: '/' :: s :: c :: (more ++ rest)) = none
  rw [Onset.through, hlt, Option.bind_some, Onset.through, hslash, Option.bind_some, Onset.through, hletter,
    Option.bind_some, Onset.through, hend, Option.bind_none]

end IsEndTag

theorem not_holdsEndTag_of_through {onset onset' : Onset} {text : List Char} (h : onset.through text = some onset') :
    ¬ HoldsEndTag text := by
  rintro ⟨tag, htag, before, after, rfl⟩
  rw [List.append_assoc, Onset.through_append] at h
  cases hbefore : onset.through before with
  | none => rw [hbefore, Option.bind_none] at h; cases h
  | some o => rw [hbefore, Option.bind_some, htag.through_eq_none] at h; cases h

theorem not_holdsEndTag_of_not_mem {text : List Char} (h : '<' ∉ text) : ¬ HoldsEndTag text := by
  rintro ⟨tag, htag, hin⟩
  obtain ⟨s, c, more, rfl, -⟩ := htag.eq_cons
  exact h (hin.mem (.head _))

/-- End tags do not reach over a character that is none of theirs. -/
theorem holdsEndTag_append_cons {x : Char} (hx : x.toLower ∉ "</script".toList) (a b : List Char) :
    HoldsEndTag (a ++ x :: b) ↔ HoldsEndTag a ∨ HoldsEndTag b := by
  constructor
  · rintro ⟨tag, htag, hin⟩
    obtain ha | hb := Text.infix_append_cons (htag.not_mem hx) hin
    · exact .inl ⟨tag, htag, ha⟩
    · exact .inr ⟨tag, htag, hb⟩
  · rintro (⟨tag, htag, ha⟩ | ⟨tag, htag, hb⟩)
    · exact ⟨tag, htag, ha.trans (List.prefix_append a _).isInfix⟩
    · exact ⟨tag, htag, hb.trans ((List.suffix_cons x b).trans (List.suffix_append a _)).isInfix⟩

theorem holdsEndTag_between {x y : Char} (hx : x.toLower ∉ "</script".toList) (hy : y.toLower ∉ "</script".toList)
    (body : List Char) : HoldsEndTag (x :: (body ++ [y])) ↔ HoldsEndTag body := by
  have hnil : ¬ HoldsEndTag [] := not_holdsEndTag_of_not_mem (by simp)
  rw [← List.nil_append (x :: (body ++ [y])), holdsEndTag_append_cons hx, holdsEndTag_append_cons hy,
    or_iff_right hnil, or_iff_left hnil]

/-- What stands between two characters that no end tag holds, or holds none and the start of none. -/
def Fenced (text : List Char) : Prop :=
  (∃ x body y, text = x :: (body ++ [y]) ∧ x.toLower ∉ "</script".toList ∧ y.toLower ∉ "</script".toList) ∨
    Onset.nothing.through text = some .nothing

theorem holdsEndTag_writeSegments {f : String → List Char} {parts : List Segment}
    (htext : ∀ cs, .text cs ∈ parts → Onset.nothing.through cs = some .nothing)
    (hslot : ∀ name, .slot name ∈ parts → Fenced (f name)) :
    HoldsEndTag (writeSegments f parts) ↔ ∃ name, .slot name ∈ parts ∧ HoldsEndTag (f name) := by
  -- A stretch without end tags may stand before: it grows by texts, and is cut off by a fence.
  have general (before : List Char) (hbefore : Onset.nothing.through before = some .nothing) :
      HoldsEndTag (before ++ writeSegments f parts) ↔ ∃ name, .slot name ∈ parts ∧ HoldsEndTag (f name) := by
    induction parts generalizing before with
    | nil =>
      have hnone : ¬ HoldsEndTag (before ++ writeSegments f []) := by
        change ¬ HoldsEndTag (before ++ [])
        rw [List.append_nil]
        exact not_holdsEndTag_of_through hbefore
      simp [hnone]
    | cons s rest ih =>
      have ih := ih (fun cs h => htext cs (.tail _ h)) (fun name h => hslot name (.tail _ h))
      have grow {more : List Char} (hmore : Onset.nothing.through more = some .nothing) :
          HoldsEndTag (before ++ (more ++ writeSegments f rest)) ↔
            ∃ name, .slot name ∈ rest ∧ HoldsEndTag (f name) := by
        rw [← List.append_assoc]
        refine ih _ ?_
        rw [Onset.through_append, hbefore]
        exact hmore
      cases s with
      | text cs =>
        refine (grow (htext cs (.head _))).trans ?_
        simp
      | slot name =>
        change HoldsEndTag (before ++ (f name ++ writeSegments f rest)) ↔ _
        have hsplit : (∃ other, .slot other ∈ Segment.slot name :: rest ∧ HoldsEndTag (f other)) ↔
            HoldsEndTag (f name) ∨ ∃ other, .slot other ∈ rest ∧ HoldsEndTag (f other) := by
          simp [or_and_right, exists_or]
        rw [hsplit]
        obtain ⟨x, body, y, hf, hx, hy⟩ | hf := hslot name (.head _)
        · have hrest := ih [] rfl
          have hnone := not_holdsEndTag_of_through hbefore
          rw [List.nil_append] at hrest
          rw [hf, holdsEndTag_between hx hy, List.cons_append, List.append_assoc, holdsEndTag_append_cons hx, List.singleton_append,
            holdsEndTag_append_cons hy, hrest]
          simp [hnone]
        · rw [grow hf]
          simp [not_holdsEndTag_of_through hf]
  exact general [] rfl

/-- Characters that are spelled as they are and begin no tag. -/
def isClear (c : Char) : Bool := c != '<' && c != '\x5c' && c != '\x60' && c != '$'

theorem Spelled.prefix_iff {text out : List Char} (h : Spelled text out) {part : List Char}
    (hpart : ∀ c ∈ part, isClear c) : part <+: out ↔ part <+: text := by
  have clear {c : Char} (h : isClear c) : c ≠ '<' ∧ c ≠ '\x5c' ∧ c ≠ '\x60' ∧ c ≠ '$' := by
    rw [isClear, Bool.and_eq_true, Bool.and_eq_true, Bool.and_eq_true, bne_iff_ne, bne_iff_ne, bne_iff_ne,
      bne_iff_ne, and_assoc, and_assoc] at h
    exact h
  induction h generalizing part with
  | nil => rfl
  | plain _ _ _ _ _ ih =>
    cases part with
    | nil => simp
    | cons p part =>
      rw [List.cons_prefix_cons, List.cons_prefix_cons]
      exact and_congr_right fun _ => ih fun c hc => hpart c (.tail _ hc)
  | escaped hmark _ _ =>
    cases part with
    | nil => simp
    | cons p part =>
      obtain ⟨-, hslash, htick, hdollar⟩ := clear (hpart p (.head _))
      rw [List.cons_prefix_cons, List.cons_prefix_cons]
      refine iff_of_false (fun hp => hslash hp.1) ?_
      rintro ⟨rfl, -⟩
      obtain hp | hp | hp := hmark
      · exact hslash hp
      · exact htick hp
      · exact hdollar hp
  | tag _ _ _ =>
    cases part with
    | nil => simp
    | cons p part =>
      have hopen := (clear (hpart p (.head _))).1
      rw [List.cons_prefix_cons, List.cons_prefix_cons]
      exact iff_of_false (fun hp => hopen hp.1) fun hp => hopen hp.1

theorem IsEndTag.isClear_tail {tag : List Char} (h : IsEndTag tag) : ∃ more, tag = '<' :: more ∧ ∀ c ∈ more, isClear c := by
  obtain ⟨s, c, more, rfl, -⟩ := h.eq_cons
  have htable : ∀ c ∈ "/script".toList, c ≠ '<' ∧ c ≠ '\x5c' ∧ c ≠ '\x60' ∧ c ≠ '$' :=
    Text.forall_mem_of_all (by decide)
  refine ⟨_, rfl, fun d hd => ?_⟩
  have hmap : ('/' :: s :: c :: more).map Char.toLower = "/script".toList := (List.cons.inj h).2
  have hd := htable _ (hmap ▸ List.mem_map_of_mem hd)
  have ne {e : Char} (he : e.toLower = e) (hne : d.toLower ≠ e) : d ≠ e := fun heq => hne (heq ▸ he)
  simp only [isClear, Bool.and_eq_true, bne_iff_ne]
  exact ⟨⟨⟨ne rfl hd.1, ne rfl hd.2.1⟩, ne rfl hd.2.2.1⟩, ne rfl hd.2.2.2⟩

theorem holdsEndTag_cons {c : Char} {rest : List Char} :
    HoldsEndTag (c :: rest) ↔ (∃ tag, IsEndTag tag ∧ tag <+: c :: rest) ∨ HoldsEndTag rest := by
  simp only [HoldsEndTag, List.infix_cons_iff, and_or_left, exists_or]

theorem holdsMixedEndTag_cons {c : Char} {rest : List Char} :
    HoldsMixedEndTag (c :: rest) ↔ (∃ tag, IsEndTag tag ∧ tag ≠ '<' :: Spelling.lowerTag ∧
      tag ≠ '<' :: Spelling.upperTag ∧ tag <+: c :: rest) ∨ HoldsMixedEndTag rest := by
  simp only [HoldsMixedEndTag, List.infix_cons_iff, and_or_left, exists_or]

theorem IsEndTag.head_eq {tag rest : List Char} {c : Char} (h : IsEndTag tag) (hp : tag <+: c :: rest) : c = '<' := by
  obtain ⟨more, rfl, -⟩ := h.isClear_tail
  exact (List.cons_prefix_cons.1 hp).1.symm

theorem holdsEndTag_cons_of_ne {c : Char} (hc : c ≠ '<') (rest : List Char) :
    HoldsEndTag (c :: rest) ↔ HoldsEndTag rest := by
  refine holdsEndTag_cons.trans (or_iff_right ?_)
  rintro ⟨tag, htag, hp⟩
  exact hc (htag.head_eq hp)

theorem holdsEndTag_append_of_not_mem {a : List Char} (h : '<' ∉ a) (b : List Char) :
    HoldsEndTag (a ++ b) ↔ HoldsEndTag b := by
  induction a with
  | nil => rfl
  | cons c a ih =>
    rw [List.mem_cons, not_or] at h
    rw [List.cons_append, holdsEndTag_cons_of_ne (Ne.symm h.1), ih h.2]

theorem holdsMixedEndTag_cons_of_ne {c : Char} (hc : c ≠ '<') (rest : List Char) :
    HoldsMixedEndTag (c :: rest) ↔ HoldsMixedEndTag rest := by
  refine holdsMixedEndTag_cons.trans (or_iff_right ?_)
  rintro ⟨tag, htag, -, -, hp⟩
  exact hc (htag.head_eq hp)

/-- What is spelled between backticks holds the end tags of mixed case, and no others. -/
theorem Spelled.holdsEndTag_iff {text out : List Char} (h : Spelled text out) :
    HoldsEndTag out ↔ HoldsMixedEndTag text := by
  induction h with
  | nil =>
    refine iff_of_false (not_holdsEndTag_of_not_mem (by simp)) ?_
    rintro ⟨tag, htag, -, -, hin⟩
    exact not_holdsEndTag_of_not_mem (by simp) ⟨tag, htag, hin⟩
  | @plain c rest out _ _ _ hopen hrest ih =>
    rw [holdsEndTag_cons, holdsMixedEndTag_cons, ih]
    refine or_congr ⟨?_, ?_⟩ Iff.rfl
    · rintro ⟨tag, htag, hp⟩
      obtain rfl := htag.head_eq hp
      obtain ⟨more, rfl, hclear⟩ := htag.isClear_tail
      have hmore : more <+: rest := (hrest.prefix_iff hclear).1 (List.cons_prefix_cons.1 hp).2
      refine ⟨_, htag, fun he => ?_, fun he => ?_, List.cons_prefix_cons.2 ⟨rfl, hmore⟩⟩
      · exact (hopen rfl).1 ((List.cons.inj he).2 ▸ hmore)
      · exact (hopen rfl).2 ((List.cons.inj he).2 ▸ hmore)
    · rintro ⟨tag, htag, -, -, hp⟩
      obtain rfl := htag.head_eq hp
      obtain ⟨more, rfl, hclear⟩ := htag.isClear_tail
      have hmore : more <+: out := (hrest.prefix_iff hclear).2 (List.cons_prefix_cons.1 hp).2
      exact ⟨_, htag, List.cons_prefix_cons.2 ⟨rfl, hmore⟩⟩
  | @escaped c rest out hmark _ ih =>
    have hc : c ≠ '<' := by
      obtain rfl | rfl | rfl := hmark
      · decide
      · decide
      · decide
    rw [holdsEndTag_cons_of_ne (by decide), holdsEndTag_cons_of_ne hc, holdsMixedEndTag_cons_of_ne hc, ih]
  | @tag rest out htag _ ih =>
    have hnone : ¬ HoldsEndTag ['<'] := not_holdsEndTag_of_through (rfl : Onset.nothing.through ['<'] = some .nothing)
    have hcut : HoldsEndTag ('<' :: '\x5c' :: '/' :: out) ↔ HoldsEndTag ['<'] ∨ HoldsEndTag ('/' :: out) :=
      holdsEndTag_append_cons (by decide) ['<'] ('/' :: out)
    rw [hcut, or_iff_right hnone, ih, holdsMixedEndTag_cons, or_iff_right]
    rintro ⟨tag, hend, hlower, hupper, hp⟩
    obtain ⟨more, rfl, -⟩ := hend.isClear_tail
    have hmore := (List.cons_prefix_cons.1 hp).2
    have hlength : more.length = 7 := Nat.succ.inj hend.length_eq
    have same {word : List Char} (hword : word.length = 7) (hp : word <+: rest) : more = word :=
      List.IsPrefix.eq_of_length (List.prefix_of_prefix_length_le hmore hp (by omega)) (by omega)
    obtain hp | hp := htag
    · exact hlower (congrArg _ (same rfl hp))
    · exact hupper (congrArg _ (same rfl hp))

theorem not_mem_markupEscape (c : Char) : '<' ∉ markupEscape c := by
  have hnone : markupEscape '<' ≠ ['<'] := by decide
  rw [markupEscape]
  split
  · exact fun h => hnone (markupEscape_of_mem_unicodeEscape h)
  · rename_i hc
    intro h
    rw [← List.mem_singleton.1 h] at hc
    exact hc rfl

/-- A literal holds the end tags of mixed case in its text; the other literals hold none at all. -/
theorem holdsEndTag_literalList {v : Json} :
    HoldsEndTag (literalList v) ↔ ∃ s, v = .str s ∧ HoldsMixedEndTag s.toList := by
  have embedded (v : Json) : ¬ HoldsEndTag (embeddedJson v) := by
    refine not_holdsEndTag_of_not_mem fun h => ?_
    obtain ⟨c, -, hc⟩ := List.mem_flatMap.1 h
    exact not_mem_markupEscape c hc
  cases v with
  | str s =>
    have hspelled := (spelled_escapeTemplate s.toList).holdsEndTag_iff
    rw [literalList, holdsEndTag_between (by decide) (by decide), hspelled]
    simp
  | _ => exact iff_of_false (embedded _) fun ⟨_, h, _⟩ => nomatch h

theorem fenced_literalList {v : Json} (h : IsEnclosed v) : Fenced (literalList v) := by
  cases v with
  | str s => exact .inl ⟨'\x60', escapeTemplate s.toList, '\x60', rfl, by decide, by decide⟩
  | arr items =>
    refine .inl ⟨'[', (Json.writeItems .compact items).flatMap markupEscape, ']', ?_, by decide, by decide⟩
    change embeddedJson _ = _
    rw [embeddedJson, Json.write, List.flatMap_cons, List.flatMap_append]
    rfl
  | obj fields =>
    refine .inl ⟨'\x7b', (Json.writeFields .compact fields).flatMap markupEscape, '\x7d', ?_, by decide, by decide⟩
    change embeddedJson _ = _
    rw [embeddedJson, Json.write, List.flatMap_cons, List.flatMap_append]
    rfl
  | _ => exact h.elim

end ConsentBanner.Script
