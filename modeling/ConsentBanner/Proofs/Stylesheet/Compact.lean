import ConsentBanner.Proofs.Script.Template
import ConsentBanner.Stylesheet.Banner

/-!
How stylesheets are compacted part by part. A character that is neither white space nor punctuation stays where it is,
and what follows a closing brace is compacted as if it stood alone.
-/

namespace ConsentBanner.Stylesheet

/-- What becomes of a stylesheet apart from its comments and the white space at its ends. -/
def squash (css : List Char) : List Char :=
  Text.replaceList [';', '\x7d'] ['\x7d'] ((Markup.squeeze false css).foldr tighten [])

/-- A character that is neither white space nor punctuation. -/
def IsOrdinary (c : Char) : Prop := Text.isBlank c = false ∧ isPunctuation c = false

instance (c : Char) : Decidable (IsOrdinary c) := inferInstanceAs (Decidable (_ ∧ _))

section Squeeze

variable {c : Char}

theorem squeeze_append (hc : Text.isBlank c = false) (after : Bool) (a b : List Char) :
    Markup.squeeze after (a ++ c :: b) = Markup.squeeze after a ++ c :: Markup.squeeze false b := by
  induction a generalizing after with
  | nil => simp [Markup.squeeze, hc]
  | cons d a ih =>
    rw [List.cons_append, Markup.squeeze, Markup.squeeze, ih, ih]
    cases Text.isBlank d with
    | false => rfl
    | true =>
      cases after with
      | false => rfl
      | true => rfl

theorem squeeze_true (cs : List Char) : Markup.squeeze true cs = Markup.squeeze false (cs.dropWhile Text.isBlank) := by
  induction cs with
  | nil => rfl
  | cons c cs ih =>
    rw [Markup.squeeze, List.dropWhile_cons]
    cases hc : Text.isBlank c with
    | false => rw [if_neg Bool.false_ne_true, if_neg Bool.false_ne_true, Markup.squeeze, hc, if_neg Bool.false_ne_true]
    | true => rw [if_pos rfl, if_pos rfl, if_pos rfl, ih]

theorem mem_squeeze {after : Bool} {cs : List Char} (h : c ∈ Markup.squeeze after cs) : c ∈ cs ∨ c = ' ' := by
  induction cs generalizing after with
  | nil => cases h
  | cons d cs ih =>
    rw [Markup.squeeze] at h
    split at h
    · split at h
      · exact (ih h).imp_left (.tail d)
      · obtain rfl | h := List.mem_cons.1 h
        · exact .inr rfl
        · exact (ih h).imp_left (.tail d)
    · obtain rfl | h := List.mem_cons.1 h
      · exact .inl (.head cs)
      · exact (ih h).imp_left (.tail d)

theorem eq_space_of_mem_squeeze {after : Bool} {cs : List Char} (h : c ∈ Markup.squeeze after cs)
    (hc : Text.isBlank c = true) : c = ' ' := by
  induction cs generalizing after with
  | nil => cases h
  | cons d cs ih =>
    rw [Markup.squeeze] at h
    split at h
    · split at h
      · exact ih h
      · exact (List.mem_cons.1 h).elim id ih
    · rename_i hd
      obtain rfl | h := List.mem_cons.1 h
      · exact absurd hc hd
      · exact ih h

end Squeeze

section Tighten

variable {c : Char}

theorem tighten_of_not_blank (hc : Text.isBlank c = false) (rest : List Char) : ∃ more, tighten c rest = c :: more := by
  rw [tighten]
  split
  · exact ⟨_, rfl⟩
  · rw [hc, Bool.false_and, if_neg Bool.false_ne_true]
    exact ⟨_, rfl⟩

theorem tighten_ordinary (hc : IsOrdinary c) (rest : List Char) : tighten c rest = c :: rest := by
  rw [tighten, hc.2, hc.1, Bool.false_and, if_neg Bool.false_ne_true, if_neg Bool.false_ne_true]

theorem dropWhile_append_cons {p : Char → Bool} (hc : p c = false) (a b : List Char) :
    (a ++ c :: b).dropWhile p = a.dropWhile p ++ c :: b := by
  have hcons : (c :: b).dropWhile p = c :: b := List.dropWhile_cons_of_neg (by simp [hc])
  rw [List.dropWhile_append, hcons]
  split
  · rename_i hempty
    rw [List.isEmpty_iff.1 hempty, List.nil_append]
  · rfl

/-- What comes after a character other than white space does not matter. -/
theorem tighten_append (hc : Text.isBlank c = false) (d : Char) (a b : List Char) :
    ∃ front, tighten d (a ++ c :: b) = front ++ c :: b ∧ tighten d (a ++ [c]) = front ++ [c] := by
  have hstarts : startsPunctuated (a ++ c :: b) = startsPunctuated (a ++ [c]) := by
    cases a with
    | nil => rfl
    | cons e a => rfl
  rw [tighten, tighten, dropWhile_append_cons hc, dropWhile_append_cons hc, hstarts]
  split
  · exact ⟨d :: a.dropWhile Text.isBlank, rfl, rfl⟩
  · split
    · exact ⟨a, rfl, rfl⟩
    · exact ⟨d :: a, rfl, rfl⟩

theorem foldr_tighten_append (hc : Text.isBlank c = false) (a b : List Char) :
    ∃ front, a.foldr tighten (c :: b) = front ++ c :: b ∧ a.foldr tighten [c] = front ++ [c] := by
  induction a with
  | nil => exact ⟨[], rfl, rfl⟩
  | cons d a ih =>
    obtain ⟨front, hfull, hshort⟩ := ih
    rw [List.foldr_cons, List.foldr_cons, hfull, hshort]
    exact tighten_append hc d front b

theorem foldr_tighten_ordinary (hc : IsOrdinary c) (a b : List Char) :
    a.foldr tighten (c :: b) = a.foldr tighten [] ++ c :: b := by
  induction a with
  | nil => rfl
  | cons d a ih =>
    have hstarts (z : List Char) : startsPunctuated (z ++ c :: b) = startsPunctuated z := by
      cases z with
      | nil => exact hc.2
      | cons e z => rfl
    rw [List.foldr_cons, List.foldr_cons, ih, tighten, tighten, hstarts, dropWhile_append_cons hc.1]
    split
    · rfl
    · split
      · rfl
      · rfl

theorem foldr_tighten_sublist (cs : List Char) : (cs.foldr tighten []).Sublist cs := by
  induction cs with
  | nil => exact .slnil
  | cons c cs ih =>
    rw [List.foldr_cons, tighten]
    split
    · exact ((List.dropWhile_sublist _).trans ih).cons_cons c
    · split
      · exact ih.cons c
      · exact ih.cons_cons c

end Tighten

/-- White space at the start of a text is dropped as it would be before. -/
theorem dropWhile_foldr_tighten (b : List Char) :
    ((Markup.squeeze false b).foldr tighten []).dropWhile Text.isBlank =
      (Markup.squeeze false (b.dropWhile Text.isBlank)).foldr tighten [] := by
  have solid {cs : List Char} (h : ∀ c ∈ cs.head?, Text.isBlank c = false) :
      ((Markup.squeeze false cs).foldr tighten []).dropWhile Text.isBlank =
        (Markup.squeeze false cs).foldr tighten [] := by
    apply Text.dropWhile_of_head
    cases cs with
    | nil => exact nofun
    | cons c cs =>
      obtain ⟨more, hmore⟩ := tighten_of_not_blank (h c rfl) ((Markup.squeeze false cs).foldr tighten [])
      rw [Markup.squeeze, h c rfl, if_neg Bool.false_ne_true, List.foldr_cons, hmore]
      rintro d ⟨⟩
      exact h c rfl
  cases b with
  | nil => rfl
  | cons c b =>
    cases hc : Text.isBlank c with
    | false =>
      rw [List.dropWhile_cons, hc, if_neg Bool.false_ne_true]
      apply solid
      rintro d ⟨⟩
      exact hc
    | true =>
      -- All of the white space before the first solid character has become one space, which is dropped.
      have htail := solid (Text.head?_dropWhile_false (p := Text.isBlank) b)
      have hspace (z : List Char) : (tighten ' ' z).dropWhile Text.isBlank = z.dropWhile Text.isBlank := by
        have hblank : Text.isBlank ' ' = true := by decide
        have hmark : isPunctuation ' ' = false := by decide
        rw [tighten, hmark, if_neg Bool.false_ne_true]
        split
        · rfl
        · rw [List.dropWhile_cons, if_pos hblank]
      rw [Markup.squeeze, hc, if_pos rfl, if_neg Bool.false_ne_true, List.foldr_cons, hspace, squeeze_true, htail,
        List.dropWhile_cons, hc, if_pos rfl]

section Semicolon

variable {c : Char}

/-- The text without the semicolons before closing braces. -/
abbrev dropSemicolons (cs : List Char) : List Char := Text.replaceList [';', '\x7d'] ['\x7d'] cs

theorem dropSemicolons_match (cs : List Char) : dropSemicolons (';' :: '\x7d' :: cs) = '\x7d' :: dropSemicolons cs :=
  Text.replaceList_match ';' ['\x7d']

theorem dropSemicolons_copy {cs : List Char} (h : ¬ [';', '\x7d'] <+: c :: cs) :
    dropSemicolons (c :: cs) = c :: dropSemicolons cs := Text.replaceList_copy h

theorem dropSemicolons_cons (hc : c ≠ ';') (cs : List Char) : dropSemicolons (c :: cs) = c :: dropSemicolons cs :=
  dropSemicolons_copy fun h => hc (List.cons_prefix_cons.1 h).1.symm

/-- How a text begins tells what becomes of its first character. -/
theorem dropSemicolons_induction {P : List Char → Prop} (nil : P []) (semicolon : ∀ cs, P cs → P (';' :: '\x7d' :: cs))
    (copy : ∀ c cs, ¬ [';', '\x7d'] <+: c :: cs → P cs → P (c :: cs)) (cs : List Char) : P cs := by
  induction hn : cs.length using Nat.strongRecOn generalizing cs with
  | ind n ih =>
    cases cs with
    | nil => exact nil
    | cons c cs =>
      rw [List.length_cons] at hn
      by_cases h : [';', '\x7d'] <+: c :: cs
      · obtain ⟨more, heq⟩ := h
        cases heq
        exact semicolon more (ih more.length (by simp at hn; omega) more rfl)
      · exact copy c cs h (ih cs.length (by omega) cs rfl)

theorem dropSemicolons_sublist (cs : List Char) : (dropSemicolons cs).Sublist cs := by
  induction cs using dropSemicolons_induction with
  | nil => exact .slnil
  | semicolon cs ih =>
    rw [dropSemicolons_match]
    exact (ih.cons_cons _).cons _
  | copy c cs h ih =>
    rw [dropSemicolons_copy h]
    exact ih.cons_cons c

theorem pair_prefix_cons {d e : Char} {cs : List Char} : [';', '\x7d'] <+: d :: e :: cs ↔ d = ';' ∧ e = '\x7d' := by
  rw [List.cons_prefix_cons, List.cons_prefix_cons]
  constructor
  · exact fun h => ⟨h.1.symm, h.2.1.symm⟩
  · exact fun h => ⟨h.1.symm, h.2.symm, List.nil_prefix⟩

theorem dropSemicolons_append (hc : c ≠ '\x7d') (a b : List Char) :
    dropSemicolons (a ++ c :: b) = dropSemicolons a ++ dropSemicolons (c :: b) := by
  induction a using dropSemicolons_induction with
  | nil => rfl
  | semicolon a ih =>
    rw [List.cons_append, List.cons_append, dropSemicolons_match, dropSemicolons_match, ih]
    rfl
  | copy d a h ih =>
    rw [List.cons_append, dropSemicolons_copy h, dropSemicolons_copy, ih]
    · rfl
    · cases a with
      | nil => exact fun hp => hc (pair_prefix_cons.1 hp).2
      | cons e a => exact fun hp => h (pair_prefix_cons.2 (pair_prefix_cons.1 hp))

/-- What comes after anything but a semicolon is not changed for what comes before it. -/
theorem dropSemicolons_append_after (hc : c ≠ ';') (a b : List Char) :
    dropSemicolons (a ++ c :: b) = dropSemicolons (a ++ [c]) ++ dropSemicolons b := by
  induction a using dropSemicolons_induction with
  | nil =>
    rw [List.nil_append, List.nil_append, dropSemicolons_cons hc, dropSemicolons_cons hc]
    rfl
  | semicolon a ih =>
    rw [List.cons_append, List.cons_append, dropSemicolons_match, ih, List.cons_append, List.cons_append,
      dropSemicolons_match]
    rfl
  | copy d a h ih =>
    cases a with
    | nil =>
      rw [List.cons_append, List.cons_append, List.nil_append, List.nil_append]
      by_cases hpair : d = ';' ∧ c = '\x7d'
      · rw [hpair.1, hpair.2]
        exact dropSemicolons_match b
      · have hcopy (b : List Char) : ¬ [';', '\x7d'] <+: d :: c :: b := fun hp => hpair (pair_prefix_cons.1 hp)
        rw [dropSemicolons_copy (hcopy b), dropSemicolons_copy (hcopy []), dropSemicolons_cons hc,
          dropSemicolons_cons hc]
        rfl
    | cons e a =>
      have hcopy (b : List Char) : ¬ [';', '\x7d'] <+: d :: e :: b :=
        fun hp => h (pair_prefix_cons.2 (pair_prefix_cons.1 hp))
      rw [List.cons_append, List.cons_append] at ih ⊢
      rw [List.cons_append, List.cons_append, dropSemicolons_copy (hcopy _), dropSemicolons_copy (hcopy _), ih]
      rfl

end Semicolon

section Squash

variable {c : Char}

theorem ne_of_isOrdinary (hc : IsOrdinary c) : c ≠ ';' ∧ c ≠ '\x7d' := by
  constructor
  · rintro rfl
    cases hc.2
  · rintro rfl
    cases hc.2

theorem squash_append (hc : IsOrdinary c) (a b : List Char) : squash (a ++ c :: b) = squash a ++ c :: squash b := by
  obtain ⟨hsemicolon, hbrace⟩ := ne_of_isOrdinary hc
  have htail : (c :: Markup.squeeze false b).foldr tighten [] = c :: (Markup.squeeze false b).foldr tighten [] :=
    tighten_ordinary hc _
  rw [squash, squeeze_append hc.1, List.foldr_append, htail, foldr_tighten_ordinary hc]
  exact (dropSemicolons_append hbrace _ _).trans (congrArg _ (dropSemicolons_cons hsemicolon _))

theorem squash_cons (hc : IsOrdinary c) (b : List Char) : squash (c :: b) = c :: squash b := squash_append hc [] b

theorem squash_ordinary {text : List Char} (h : ∀ c ∈ text, IsOrdinary c) (b : List Char) :
    squash (text ++ b) = text ++ squash b := by
  induction text with
  | nil => rfl
  | cons c text ih =>
    obtain ⟨hc, htext⟩ := List.forall_mem_cons.1 h
    rw [List.cons_append, squash_cons hc, ih htext, List.cons_append]

/-- After a closing brace white space is dropped, and the rest is squashed on its own. -/
theorem squash_brace (a b : List Char) :
    squash (a ++ '\x7d' :: b) = squash (a ++ ['\x7d']) ++ squash (b.dropWhile Text.isBlank) := by
  have hblank : Text.isBlank '\x7d' = false := by decide
  have hmark : isPunctuation '\x7d' = true := by decide
  have htail (b : List Char) : ('\x7d' :: Markup.squeeze false b).foldr tighten [] =
      '\x7d' :: (Markup.squeeze false (b.dropWhile Text.isBlank)).foldr tighten [] := by
    rw [List.foldr_cons, tighten, if_pos hmark, dropWhile_foldr_tighten]
  obtain ⟨front, hfull, hshort⟩ := foldr_tighten_append hblank (Markup.squeeze false a)
    ((Markup.squeeze false (b.dropWhile Text.isBlank)).foldr tighten [])
  rw [squash, squash, squeeze_append hblank, squeeze_append hblank, List.foldr_append, List.foldr_append, htail, htail,
    hfull]
  exact (dropSemicolons_append_after (by decide) front _).trans (congrArg (dropSemicolons · ++ _) hshort.symm)

theorem mem_of_mem_squash {css : List Char} (h : c ∈ squash css) : c ∈ css ∨ c = ' ' :=
  mem_squeeze ((foldr_tighten_sublist _).mem ((dropSemicolons_sublist _).mem h))

theorem eq_space_of_mem_squash {css : List Char} (h : c ∈ squash css) (hc : Text.isBlank c = true) : c = ' ' :=
  eq_space_of_mem_squeeze ((foldr_tighten_sublist _).mem ((dropSemicolons_sublist _).mem h)) hc

theorem head?_squash {css : List Char} (h : ∀ c ∈ css.head?, Text.isBlank c = false) :
    ∀ c ∈ (squash css).head?, Text.isBlank c = false := by
  cases css with
  | nil => exact nofun
  | cons c css =>
    obtain ⟨more, hmore⟩ := tighten_of_not_blank (h c rfl) ((Markup.squeeze false css).foldr tighten [])
    have hsquash : squash (c :: css) = dropSemicolons (c :: more) := by
      rw [squash, Markup.squeeze, h c rfl, if_neg Bool.false_ne_true, List.foldr_cons, hmore]
    rw [hsquash]
    by_cases hp : [';', '\x7d'] <+: c :: more
    · obtain ⟨rest, heq⟩ := hp
      cases heq
      rintro d ⟨⟩
      decide
    · rw [dropSemicolons_copy hp]
      rintro d ⟨⟩
      exact h c rfl

theorem exists_squash_brace (body : List Char) : ∃ front, squash (body ++ ['\x7d']) = front ++ ['\x7d'] := by
  have hblank : Text.isBlank '\x7d' = false := by decide
  obtain ⟨front, -, hfront⟩ := foldr_tighten_append hblank (Markup.squeeze false body) []
  have hsquash : squash (body ++ ['\x7d']) = dropSemicolons (front ++ ['\x7d']) := by
    rw [squash, squeeze_append hblank, List.foldr_append]
    exact congrArg dropSemicolons hfront
  rw [hsquash]
  -- Of what is left before the brace, only a semicolon right before it is dropped.
  obtain rfl | ⟨front, d, rfl⟩ := front.eq_nil_or_concat
  · exact ⟨[], rfl⟩
  · rw [List.concat_eq_append, List.append_assoc]
    by_cases hd : d = ';'
    · rw [hd]
      exact ⟨_, dropSemicolons_append (by decide) front ['\x7d']⟩
    · exact ⟨_, dropSemicolons_append_after hd front ['\x7d']⟩

end Squash

theorem dropComments_eq_self {css : List Char} (h : ¬ ['/', '*'] <:+: css) : dropComments css = css := by
  induction css with
  | nil => rw [dropComments]
  | cons c css ih =>
    rw [dropComments, ih fun hmore => h (List.infix_cons hmore)]
    rintro rest rfl rfl
    exact h ⟨[], rest, rfl⟩

/-- A part of a stylesheet with nothing around it: it begins with anything but white space and, unless it is empty, ends
in a closing brace. -/
structure IsBlock (text : String) : Prop where
  head : ∀ c ∈ text.toList.head?, Text.isBlank c = false
  last : text ≠ "" → ∃ body, text.toList = body ++ ['\x7d']

/-- A block that is not empty. -/
structure IsFull (text : String) : Prop extends IsBlock text where
  ne : text ≠ ""

theorem isBlock_empty : IsBlock "" := ⟨nofun, fun h => absurd rfl h⟩

/-- A block is compacted without loss at its ends. -/
theorem IsBlock.compactList_eq {text : String} (h : IsBlock text) (hopen : ¬ ['/', '*'] <:+: text.toList) :
    compactList text.toList = squash text.toList := by
  change Text.trimList (squash (dropComments text.toList)) = _
  rw [dropComments_eq_self hopen, Text.trimList, Text.dropWhile_of_head (head?_squash h.head), Text.dropTrailing]
  by_cases hempty : text = ""
  · rw [hempty]
    rfl
  · obtain ⟨body, hbody⟩ := h.last hempty
    obtain ⟨front, hfront⟩ := exists_squash_brace body
    rw [hbody, hfront, List.reverse_append, List.reverse_singleton, List.singleton_append, List.dropWhile_cons,
      if_neg (by decide), List.reverse_cons, List.reverse_reverse]

section Join

variable {parts : List String}

theorem toList_join_cons (s t : String) (rest : List String) :
    (Text.join "\n" (s :: t :: rest)).toList = s.toList ++ '\n' :: (Text.join "\n" (t :: rest)).toList := by
  have hbreak : "\n".toList = ['\n'] := rfl
  rw [Text.join, String.toList_append, String.toList_append, hbreak, List.append_assoc, List.singleton_append]
  exact nofun

theorem join_ne_empty {s : String} (hs : s ≠ "") (rest : List String) : Text.join "\n" (s :: rest) ≠ "" := by
  cases rest with
  | nil => exact hs
  | cons t rest =>
    intro hnil
    have hlist := toList_join_cons s t rest
    rw [hnil] at hlist
    exact absurd hlist.symm (by simp)

/-- Blocks that are not empty, one a line, are a block. -/
theorem isBlock_join (h : ∀ p ∈ parts, IsFull p) : IsBlock (Text.join "\n" parts) := by
  induction parts with
  | nil => exact isBlock_empty
  | cons s rest ih =>
    obtain ⟨hs, hrest⟩ := List.forall_mem_cons.1 h
    cases rest with
    | nil => exact hs.toIsBlock
    | cons t rest =>
      obtain ⟨c, more, hc⟩ := List.exists_cons_of_ne_nil (mt String.toList_eq_nil_iff.1 hs.ne)
      constructor
      · intro d hd
        apply hs.head d
        rw [toList_join_cons, hc] at hd
        rw [hc]
        exact hd
      · intro _
        obtain ⟨body, hbody⟩ := (ih hrest).last (join_ne_empty (hrest t (.head rest)).ne rest)
        refine ⟨s.toList ++ '\n' :: body, ?_⟩
        rw [toList_join_cons, hbody, List.append_assoc, List.cons_append]

theorem squash_join (h : ∀ p ∈ parts, IsFull p) :
    squash (Text.join "\n" parts).toList = parts.flatMap (squash ·.toList) := by
  induction parts with
  | nil => rfl
  | cons s rest ih =>
    obtain ⟨hs, hrest⟩ := List.forall_mem_cons.1 h
    cases rest with
    | nil => exact (List.flatMap_singleton (squash ·.toList) s).symm
    | cons t rest =>
      obtain ⟨body, hbody⟩ := hs.last hs.ne
      have hblank : Text.isBlank '\n' = true := by decide
      rw [toList_join_cons, hbody, List.append_assoc, List.singleton_append, squash_brace, ← hbody, List.dropWhile_cons,
        if_pos hblank, Text.dropWhile_of_head (isBlock_join hrest).head, ih hrest]
      rfl

theorem isFull_of_mem_filter (h : ∀ p ∈ parts, IsBlock p) :
    ∀ p ∈ parts.filter (!·.isEmpty), IsFull p := by
  intro p hp
  obtain ⟨hmem, hne⟩ := List.mem_filter.1 hp
  refine ⟨h p hmem, ?_⟩
  rintro rfl
  cases hne

theorem isBlock_lines (h : ∀ p ∈ parts, IsBlock p) : IsBlock (lines parts) := isBlock_join (isFull_of_mem_filter h)

theorem squash_lines (h : ∀ p ∈ parts, IsBlock p) :
    squash (lines parts).toList = parts.flatMap (squash ·.toList) := by
  have hfilter : (parts.filter (!·.isEmpty)).flatMap (squash ·.toList) = parts.flatMap (squash ·.toList) := by
    clear h
    induction parts with
    | nil => rfl
    | cons s rest ih =>
      rw [List.filter_cons, List.flatMap_cons]
      split
      · rw [List.flatMap_cons, ih]
      · rename_i hs
        have hempty : s = "" := by simpa using hs
        rw [ih, hempty]
        rfl
  rw [← hfilter]
  exact squash_join (isFull_of_mem_filter h)

theorem infix_lines {p : String} (hp : p ∈ parts) : p.toList <:+: (lines parts).toList := by
  by_cases hempty : p = ""
  · rw [hempty]
    exact List.nil_infix
  have hmem : p ∈ parts.filter (!·.isEmpty) := List.mem_filter.2 ⟨hp, by simpa using hempty⟩
  have hjoin {texts : List String} (h : p ∈ texts) : p.toList <:+: (Text.join "\n" texts).toList := by
    induction texts with
    | nil => cases h
    | cons s rest ih =>
      cases rest with
      | nil =>
        rw [List.mem_singleton.1 h]
        exact List.infix_refl _
      | cons t rest =>
        rw [toList_join_cons]
        obtain rfl | h := List.mem_cons.1 h
        · exact (List.prefix_append _ _).isInfix
        · exact (ih h).trans ((List.suffix_cons '\n' _).trans (List.suffix_append _ _)).isInfix
  exact hjoin hmem

/-- Blocks without comments are compacted one by one, and nothing is left between them. -/
theorem compactList_lines (h : ∀ p ∈ parts, IsBlock p) (hopen : ¬ ['/', '*'] <:+: (lines parts).toList) :
    compactList (lines parts).toList = parts.flatMap (compactList ·.toList) := by
  rw [(isBlock_lines h).compactList_eq hopen, squash_lines h]
  have hpart : ∀ p ∈ parts, squash p.toList = compactList p.toList :=
    fun p hp => ((h p hp).compactList_eq fun hmore => hopen (hmore.trans (infix_lines hp))).symm
  rw [List.flatMap_def, List.flatMap_def, List.map_congr_left hpart]

end Join

end ConsentBanner.Stylesheet
