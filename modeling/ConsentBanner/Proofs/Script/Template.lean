import ConsentBanner.Proofs.Text
import ConsentBanner.Script.Skeleton

/-!
How a text is spelled between backticks. The passes that escape it one after the other do together what a single
pass with lookahead does.
-/

namespace ConsentBanner.Text

variable {pattern replacement cs : List Char} {c : Char}

theorem replaceFrom_skip (skipped : List Char) :
    replaceFrom pattern replacement skipped.length (skipped ++ cs) = replaceList pattern replacement cs := by
  induction skipped with
  | nil => rfl
  | cons c skipped ih => rw [List.length_cons, List.cons_append, replaceFrom, ih]

theorem replaceList_copy (h : ¬ pattern <+: c :: cs) :
    replaceList pattern replacement (c :: cs) = c :: replaceList pattern replacement cs := by
  rw [replaceList, replaceFrom, if_neg (by simpa using h)]
  rfl

theorem replaceList_match (c : Char) (more : List Char) :
    replaceList (c :: more) replacement (c :: more ++ cs) = replacement ++ replaceList (c :: more) replacement cs := by
  have hskip := @replaceFrom_skip (c :: more) replacement cs more
  rw [replaceList, List.cons_append, replaceFrom, if_pos (by simp), List.length_cons, Nat.add_sub_cancel, hskip]

end ConsentBanner.Text

namespace ConsentBanner.Script

/-- How a character is written when the given text follows it. -/
abbrev Spelling := Char → List Char → List Char

namespace Spelling

def plain : Spelling := fun c _ => [c]

/-- The spelling that also writes the first character of a pattern in another way. -/
def escape (f : Spelling) (first : Char) (more written : List Char) : Spelling :=
  fun c rest => if (first :: more).isPrefixOf (c :: rest) then written else f c rest

def write (f : Spelling) : List Char → List Char
  | [] => []
  | c :: rest => f c rest ++ f.write rest

variable {f : Spelling} {first : Char} {more written : List Char}

theorem escape_of_ne {c : Char} (h : c ≠ first) (rest : List Char) : f.escape first more written c rest = f c rest := by
  rw [escape, if_neg]
  simp [h.symm]

theorem escape_of_begins {rest : List Char} (h : more <+: rest) :
    f.escape first more written first rest = written := by
  rw [escape, if_pos]
  simpa using h

theorem escape_of_not_begins {rest : List Char} (h : ¬ more <+: rest) :
    f.escape first more written first rest = f first rest := by
  rw [escape, if_neg]
  simpa using h

theorem write_append {part : List Char} (h : ∀ c ∈ part, ∀ rest, f c rest = [c]) (rest : List Char) :
    f.write (part ++ rest) = part ++ f.write rest := by
  induction part with
  | nil => rfl
  | cons c part ih =>
    rw [List.cons_append, write, h c (.head _), ih fun c hc => h c (.tail _ hc)]
    rfl

/-- A spelling that leaves the occurrences of a pattern where they are, and makes no others. -/
structure Spares (f : Spelling) (first : Char) (more : List Char) : Prop where
  first_not_mem : first ∉ more
  slash_not_mem : '\x5c' ∉ more
  more_plain : ∀ c ∈ more, ∀ rest, f c rest = [c]
  first_plain : ∀ rest, f first rest = [first] ∨
    first ≠ '\x5c' ∧ more ≠ [] ∧ ¬ more <+: rest ∧ f first rest = [first, '\x5c']
  other : ∀ c ≠ first, ∀ rest, f c rest = [c] ∨
    first ≠ '\x5c' ∧ (f c rest = ['\x5c', c] ∨ f c rest = [c, '\x5c'])

namespace Spares

/-- What begins like the end of the pattern when it is written did so before. -/
theorem prefix_of_write (h : Spares f first more) {part text : List Char} (hpart : ∀ c ∈ part, c ∈ more)
    (hp : part <+: f.write text) : part <+: text := by
  induction part generalizing text with
  | nil => exact List.nil_prefix
  | cons p part ih =>
    have hmem := hpart p (.head _)
    have hslash : p ≠ '\x5c' := fun he => h.slash_not_mem (he ▸ hmem)
    have hfirst : p ≠ first := fun he => h.first_not_mem (he ▸ hmem)
    cases text with
    | nil => simp [write] at hp
    | cons c rest =>
      rw [write] at hp
      have hc : p = c := by
        by_cases he : c = first
        · obtain hf | ⟨-, -, -, hf⟩ := h.first_plain rest
          · rw [he, hf] at hp
            exact absurd (List.cons_prefix_cons.1 hp).1 hfirst
          · rw [he, hf] at hp
            exact absurd (List.cons_prefix_cons.1 hp).1 hfirst
        · obtain hf | ⟨-, hf | hf⟩ := h.other c he rest
          · rw [hf] at hp
            exact (List.cons_prefix_cons.1 hp).1
          · rw [hf] at hp
            exact absurd (List.cons_prefix_cons.1 hp).1 hslash
          · rw [hf] at hp
            exact (List.cons_prefix_cons.1 hp).1
      rw [← hc, h.more_plain p hmem] at hp
      rw [← hc, List.cons_prefix_cons]
      exact ⟨rfl, ih (fun c hc => hpart c (.tail _ hc)) (List.cons_prefix_cons.1 hp).2⟩

theorem escape_plain (h : Spares f first more) {c : Char} (hc : c ∈ more) (rest : List Char) :
    f.escape first more written c rest = [c] := by
  have hne : c ≠ first := fun he => h.first_not_mem (he ▸ hc)
  rw [escape_of_ne hne, h.more_plain c hc]

/-- Where the pattern does not begin, a character is copied as it was spelled. -/
theorem replaceList_copy (h : Spares f first more) {c : Char} {rest : List Char}
    (hc : ¬ first :: more <+: c :: rest) :
    Text.replaceList (first :: more) written (f c rest ++ f.write rest) =
      f c rest ++ Text.replaceList (first :: more) written (f.write rest) := by
  have other {d : Char} (hd : d ≠ first) (text : List Char) : ¬ first :: more <+: d :: text :=
    fun hp => hd (List.cons_prefix_cons.1 hp).1.symm
  by_cases he : c = first
  · have hmore : ¬ more <+: rest := fun hp => hc (List.cons_prefix_cons.2 ⟨he.symm, hp⟩)
    have hwrite : ¬ more <+: f.write rest := fun hp => hmore (h.prefix_of_write (fun _ hm => hm) hp)
    obtain hf | ⟨hslash, hne, -, hf⟩ := h.first_plain rest
    · rw [he, hf]
      exact Text.replaceList_copy fun hp => hwrite (List.cons_prefix_cons.1 hp).2
    · obtain ⟨m, more', rfl⟩ := List.exists_cons_of_ne_nil hne
      have hm : m ≠ '\x5c' := fun he => h.slash_not_mem (he ▸ List.mem_cons_self)
      have htwo : ¬ first :: m :: more' <+: first :: '\x5c' :: f.write rest := fun hp =>
        hm (List.cons_prefix_cons.1 (List.cons_prefix_cons.1 hp).2).1
      rw [he, hf, List.cons_append, List.singleton_append, Text.replaceList_copy htwo,
        Text.replaceList_copy (other hslash.symm _)]
      rfl
  · obtain hf | ⟨hslash, hf | hf⟩ := h.other c he rest
    · rw [hf]
      exact Text.replaceList_copy (other he _)
    · rw [hf, List.cons_append, Text.replaceList_copy (other hslash.symm _)]
      exact congrArg _ (Text.replaceList_copy (other he _))
    · rw [hf, List.cons_append, Text.replaceList_copy (other he _)]
      exact congrArg _ (Text.replaceList_copy (other hslash.symm _))

/-- Writing a pattern in another way everywhere is a spelling that does so. -/
theorem replaceList_write (h : Spares f first more) (written text : List Char) :
    Text.replaceList (first :: more) (written ++ more) (f.write text) = (f.escape first more written).write text := by
  induction hn : text.length using Nat.strongRecOn generalizing text with
  | ind n ih =>
    cases text with
    | nil => rfl
    | cons c rest =>
      by_cases hc : first :: more <+: c :: rest
      · obtain ⟨rfl, hmore⟩ := List.cons_prefix_cons.1 hc
        obtain ⟨after, rfl⟩ := hmore
        have hplain : f first (more ++ after) = [first] := by
          obtain hf | ⟨-, -, hmore, -⟩ := h.first_plain (more ++ after)
          · exact hf
          · exact absurd (List.prefix_append more after) hmore
        rw [write, hplain, write_append h.more_plain, List.singleton_append, ← List.cons_append,
          Text.replaceList_match, ih after.length (by simp at hn; omega) after rfl, write,
          escape_of_begins (List.prefix_append more after), write_append fun _ => h.escape_plain, List.append_assoc]
      · rw [write, write, h.replaceList_copy hc, ih rest.length (by simp at hn; omega) rest rfl, escape]
        rw [if_neg (by simpa using hc)]

end Spares

/-- A spelling that writes some characters with a backslash before or after them, and all others as they are. -/
structure Marks (f : Spelling) (marked : List Char) : Prop where
  kept : ∀ c, c ∉ marked → ∀ rest, f c rest = [c]
  shape : ∀ c rest, f c rest = [c] ∨ f c rest = ['\x5c', c] ∨ f c rest = [c, '\x5c']

namespace Marks

variable {marked : List Char}

theorem plain : Marks plain [] := ⟨fun _ _ _ => rfl, fun _ _ => .inl rfl⟩

theorem escape (h : Marks f marked) (hwritten : written = ['\x5c', first] ∨ written = [first, '\x5c']) :
    Marks (f.escape first more written) (first :: marked) := by
  refine ⟨fun c hc rest => ?_, fun c rest => ?_⟩
  · rw [List.mem_cons, not_or] at hc
    rw [escape_of_ne hc.1, h.kept c hc.2]
  · rw [Spelling.escape]
    split
    · rename_i hp
      rw [List.isPrefixOf_iff_prefix, List.cons_prefix_cons] at hp
      exact .inr (hp.1 ▸ hwritten)
    · exact h.shape c rest

theorem spares (h : Marks f marked) (hfirst : first ∉ marked) (hslash : first ≠ '\x5c')
    (hmore : ∀ c ∈ more, c ≠ first ∧ c ≠ '\x5c' ∧ c ∉ marked) : f.Spares first more where
  first_not_mem hc := (hmore first hc).1 rfl
  slash_not_mem hc := (hmore _ hc).2.1 rfl
  more_plain c hc := h.kept c (hmore c hc).2.2
  first_plain rest := .inl (h.kept first hfirst rest)
  other c _ rest := (h.shape c rest).imp_right fun hs => ⟨hslash, hs⟩

end Marks

/-- The ends of the openings of end tags that are escaped. -/
def lowerTag : List Char := "/script".toList

def upperTag : List Char := "/SCRIPT".toList

/-- What the passes have escaped one after the other: backslashes, backticks, interpolations and end tags. -/
def slashed : Spelling := plain.escape '\x5c' [] ['\x5c', '\x5c']

def quoted : Spelling := slashed.escape '\x60' [] ['\x5c', '\x60']

def held : Spelling := quoted.escape '$' ['\x7b'] ['\x5c', '$']

def lowered : Spelling := held.escape '<' lowerTag ['<', '\x5c']

/-- The spelling between backticks. -/
def template : Spelling := lowered.escape '<' upperTag ['<', '\x5c']

theorem marks_slashed : Marks slashed ['\x5c'] := Marks.plain.escape (.inl rfl)

theorem marks_quoted : Marks quoted ['\x60', '\x5c'] := marks_slashed.escape (.inl rfl)

theorem marks_held : Marks held ['$', '\x60', '\x5c'] := marks_quoted.escape (.inl rfl)

theorem marks_lowered : Marks lowered ['<', '$', '\x60', '\x5c'] := marks_held.escape (.inr rfl)

theorem spares_plain : plain.Spares '\x5c' [] where
  first_not_mem := nofun
  slash_not_mem := nofun
  more_plain := nofun
  first_plain _ := .inl rfl
  other _ _ _ := .inl rfl

/-- An end tag in upper case is none in lower case. -/
theorem spares_lowered : lowered.Spares '<' upperTag where
  first_not_mem := by decide
  slash_not_mem := by decide
  more_plain c hc := marks_lowered.kept c fun hm =>
    Text.forall_mem_of_all (p := (· ∉ ['<', '$', '\x60', '\x5c'])) (by decide) c hc hm
  first_plain rest := by
    by_cases hlower : lowerTag <+: rest
    · refine .inr ⟨by decide, by decide, fun hupper => ?_, escape_of_begins hlower⟩
      have htags := List.prefix_of_prefix_length_le hlower hupper (by decide)
      exact absurd htags (by decide)
    · exact .inl ((escape_of_not_begins hlower).trans (marks_held.kept '<' (by decide) rest))
  other c _ rest := (marks_lowered.shape c rest).imp_right fun hs => ⟨by decide, hs⟩

theorem escapeTemplate_eq (text : List Char) : escapeTemplate text = template.write text := by
  have hplain : plain.write text = text := by
    induction text with
    | nil => rfl
    | cons c rest ih => exact congrArg (c :: ·) ih
  have hslashed : Text.replaceList ['\x5c'] ['\x5c', '\x5c'] (plain.write text) = slashed.write text :=
    spares_plain.replaceList_write ['\x5c', '\x5c'] text
  have hquoted : Text.replaceList ['\x60'] ['\x5c', '\x60'] (slashed.write text) = quoted.write text :=
    (marks_slashed.spares (by decide) (by decide) (List.forall_mem_nil _)).replaceList_write ['\x5c', '\x60'] text
  have hheld : Text.replaceList ['$', '\x7b'] ['\x5c', '$', '\x7b'] (quoted.write text) = held.write text :=
    (marks_quoted.spares (by decide) (by decide) (Text.forall_mem_of_all (by decide))).replaceList_write ['\x5c', '$'] text
  have hlowered : Text.replaceList "</script".toList "<\\/script".toList (held.write text) = lowered.write text :=
    (marks_held.spares (by decide) (by decide) (Text.forall_mem_of_all (by decide))).replaceList_write ['<', '\x5c'] text
  have htemplate : Text.replaceList "</SCRIPT".toList "<\\/SCRIPT".toList (lowered.write text) = template.write text :=
    spares_lowered.replaceList_write ['<', '\x5c'] text
  rw [← htemplate, ← hlowered, ← hheld, ← hquoted, ← hslashed, hplain]
  rfl

/-- What the spelling between backticks makes of a character. -/
theorem template_cases (c : Char) (rest : List Char) :
    template c rest = [c] ∧ c ≠ '\x5c' ∧ c ≠ '\x60' ∧ (c = '$' → ¬ ['\x7b'] <+: rest) ∧
        (c = '<' → ¬ lowerTag <+: rest ∧ ¬ upperTag <+: rest) ∨
      template c rest = ['\x5c', c] ∧ (c = '\x5c' ∨ c = '\x60' ∨ c = '$') ∨
      template c rest = ['<', '\x5c'] ∧ c = '<' ∧ (lowerTag <+: rest ∨ upperTag <+: rest) := by
  by_cases hopen : c = '<'
  · rw [hopen]
    by_cases hupper : upperTag <+: rest
    · exact .inr (.inr ⟨escape_of_begins hupper, rfl, .inr hupper⟩)
    by_cases hlower : lowerTag <+: rest
    · exact .inr (.inr ⟨(escape_of_not_begins hupper).trans (escape_of_begins hlower), rfl, .inl hlower⟩)
    · have hplain : template '<' rest = ['<'] := by
        rw [template, escape_of_not_begins hupper, lowered, escape_of_not_begins hlower]
        exact marks_held.kept '<' (by decide) rest
      exact .inl ⟨hplain, by decide, by decide, nofun, fun _ => ⟨hlower, hupper⟩⟩
  have hheld : template c rest = held c rest := (escape_of_ne hopen rest).trans (escape_of_ne hopen rest)
  rw [hheld]
  by_cases hdollar : c = '$'
  · rw [hdollar]
    by_cases hbrace : ['\x7b'] <+: rest
    · exact .inr (.inl ⟨escape_of_begins hbrace, .inr (.inr rfl)⟩)
    · have hplain : held '$' rest = ['$'] := (escape_of_not_begins hbrace).trans (marks_quoted.kept '$' (by decide) rest)
      exact .inl ⟨hplain, by decide, by decide, fun _ => hbrace, nofun⟩
  have hquoted : held c rest = quoted c rest := escape_of_ne hdollar rest
  rw [hquoted]
  by_cases htick : c = '\x60'
  · rw [htick]
    exact .inr (.inl ⟨escape_of_begins List.nil_prefix, .inr (.inl rfl)⟩)
  have hslashed : quoted c rest = slashed c rest := escape_of_ne htick rest
  rw [hslashed]
  by_cases hslash : c = '\x5c'
  · rw [hslash]
    exact .inr (.inl ⟨escape_of_begins List.nil_prefix, .inl rfl⟩)
  · exact .inl ⟨escape_of_ne hslash rest, hslash, htick, fun he => absurd he hdollar, fun he => absurd he hopen⟩

end Spelling

open Spelling

/-- A text and how it is spelled between backticks. -/
inductive Spelled : List Char → List Char → Prop
  | nil : Spelled [] []
  | plain {c : Char} {rest out : List Char} : c ≠ '\x5c' → c ≠ '\x60' → (c = '$' → ¬ ['\x7b'] <+: rest) →
    (c = '<' → ¬ lowerTag <+: rest ∧ ¬ upperTag <+: rest) → Spelled rest out → Spelled (c :: rest) (c :: out)
  | escaped {c : Char} {rest out : List Char} : c = '\x5c' ∨ c = '\x60' ∨ c = '$' → Spelled rest out →
    Spelled (c :: rest) ('\x5c' :: c :: out)
  /-- The opening of an end tag. -/
  | tag {rest out : List Char} : lowerTag <+: rest ∨ upperTag <+: rest → Spelled rest ('/' :: out) →
    Spelled ('<' :: rest) ('<' :: '\x5c' :: '/' :: out)

theorem spelled_escapeTemplate (text : List Char) : Spelled text (escapeTemplate text) := by
  rw [escapeTemplate_eq]
  induction text with
  | nil => exact .nil
  | cons c rest ih =>
    rw [write]
    obtain ⟨hc, hslash, htick, hdollar, hopen⟩ | ⟨hc, hmark⟩ | ⟨hc, rfl, htag⟩ := template_cases c rest
    · rw [hc]
      exact .plain hslash htick hdollar hopen ih
    · rw [hc]
      exact .escaped hmark ih
    · have hhead : ∃ more, rest = '/' :: more := by
        obtain ⟨more, rfl⟩ | ⟨more, rfl⟩ := htag
        · exact ⟨_, rfl⟩
        · exact ⟨_, rfl⟩
      obtain ⟨more, rfl⟩ := hhead
      have hkept : template '/' more = ['/'] := by
        rw [template, escape_of_ne (by decide)]
        exact marks_lowered.kept '/' (by decide) more
      rw [write, hkept] at ih
      rw [hc, write, hkept]
      exact .tag htag ih

end ConsentBanner.Script
