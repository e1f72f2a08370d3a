import ConsentBanner.Proofs.Script.Token

/-!
Scripts that hold neither the mark of a slot nor the start of an end tag, also when they are compacted. A scan
that reads one character after the other tells of a source that it is such a script.
-/

namespace ConsentBanner.Script

/-- What the end of a text may be the beginning of: a doubled brace, or an end tag from its slash on. -/
inductive Onset where
  | nothing
  | brace
  | slash
  | slashS
deriving DecidableEq

namespace Onset

/-- The onset after one more character; none when that completes a doubled brace or reaches the letters of an end
tag. -/
def note (o : Onset) (c : Char) : Option Onset :=
  if c == '\x7b' then if o = brace then none else some brace
  else if c == '/' then some slash
  else if c == 's' || c == 'S' then if o = slash then some slashS else some nothing
  else if (c == 'c' || c == 'C') && o = slashS then none
  else some nothing

/-- The onset after more text. -/
def through (o : Onset) : List Char → Option Onset
  | [] => some o
  | c :: cs => (o.note c).bind fun o => o.through cs

theorem through_append (o : Onset) (a b : List Char) :
    o.through (a ++ b) = (o.through a).bind fun o => o.through b := by
  induction a generalizing o with
  | nil => rfl
  | cons c rest ih =>
    rw [List.cons_append, through, through]
    cases o.note c with
    | none => rfl
    | some o => exact ih o

/-- What code is the beginning of after its last character. There is no slash in code, so that can only be a
brace. -/
def ofLast (last : Option Char) : Onset := if last = some '\x7b' then brace else nothing

theorem note_ofLast {c : Char} (hslash : c ≠ '/') {last : Option Char}
    (hbrace : c = '\x7b' → last ≠ some '\x7b') : (ofLast last).note c = some (ofLast (some c)) := by
  have hbegun : ofLast last ≠ slash ∧ ofLast last ≠ slashS := by
    unfold ofLast
    split
    · decide
    · decide
  unfold note
  split
  · rename_i hc
    cases eq_of_beq hc
    rw [ofLast, if_neg (hbrace rfl)]
    rfl
  · rename_i hc
    have hnone : ofLast (some c) = nothing := if_neg fun h => hc (by rw [Option.some.inj h]; rfl)
    have htag : ¬ ((c == 'c' || c == 'C') && decide (ofLast last = slashS)) := by simp [hbegun.2]
    rw [if_neg (by simpa using hslash), if_neg hbegun.1, if_neg htag, ite_self, hnone]

end Onset

/-- Where in a script a scan is: in code after its last character, if one was met, in a literal, after a backslash
in one, or in a comment. -/
inductive Mode where
  | code (last : Option Char)
  | quoted (quote : Char) (onset : Onset)
  | escaped (quote : Char)
  | comment (last : Option Char)

/-- A scan of a script that ends in code; the last character that was then written, if there was one. As long as
nothing was met, a brace may be the second of two. -/
def scan : Mode → List Char → Option (Option Char)
  | .code last, [] => some last
  | .code last, c :: cs =>
    if c == '/' then
      match cs with
      | '/' :: cs => scan (.comment last) cs
      | _ => none
    else if isQuote c then scan (.quoted c .nothing) cs
    else if Text.isBlank c then scan (.code last) cs
    else if c == '\x7b' && last.all (· == '\x7b') then none
    else scan (.code (some c)) cs
  | .quoted quote onset, c :: cs =>
    if c == '\x5c' then scan (.escaped quote) cs
    else if c == quote then scan (.code (some quote)) cs
    else
      match onset.note c with
      | some onset => scan (.quoted quote onset) cs
      | none => none
  | .escaped quote, c :: cs =>
    match Onset.nothing.note c with
    | some onset => scan (.quoted quote onset) cs
    | none => none
  | .comment last, c :: cs => if c == '\n' then scan (.code last) cs else scan (.comment last) cs
  | _, [] => none

/-- A script that is cut on its own, with the last character before it, if that is known, and the last one written
after it. -/
structure Scanned (last last' : Option Char) (text : List Char) : Prop where
  cut : Cut text
  met : last.isSome → last'.isSome
  ends : ∀ gapped before, last.or before = before → (trail gapped before (tokens text)).2 = last'.or before
  written : ∀ gapped before, last.or before = before →
    (Onset.ofLast before).through (join gapped before (tokens text)) = some (.ofLast (last'.or before))

namespace Scanned

variable {last last' : Option Char} {c : Char} {text : List Char}

theorem nil (last : Option Char) : Scanned last last [] := by
  refine ⟨.nil, id, fun gapped before hbefore => ?_, fun gapped before hbefore => ?_⟩
  · rw [tokens_nil, hbefore]
    rfl
  · rw [tokens_nil, hbefore]
    rfl

theorem blank (hc : Text.isBlank c) (h : Scanned last last' text) : Scanned last last' (c :: text) := by
  refine ⟨h.cut.blank hc, h.met, fun gapped before hbefore => ?_, fun gapped before hbefore => ?_⟩
  · rw [tokens_blank hc]
    exact h.ends true before hbefore
  · rw [tokens_blank hc, join]
    exact h.written true before hbefore

/-- After a character that was met, it does not matter what stood before. -/
theorem or_eq (h : Scanned (some c) last' text) (before before' : Option Char) :
    last'.or before = last'.or before' := by
  obtain ⟨l, rfl⟩ := Option.isSome_iff_exists.1 (h.met rfl)
  rfl

theorem char (hslash : c ≠ '/') (hquote : ¬ isQuote c) (hblank : ¬ Text.isBlank c)
    (hbrace : c = '\x7b' → ∃ l, last = some l ∧ l ≠ '\x7b') (h : Scanned (some c) last' text) :
    Scanned last last' (c :: text) := by
  refine ⟨h.cut.char hslash hquote hblank, fun _ => h.met rfl, fun gapped before _ => ?_,
    fun gapped before hbefore => ?_⟩
  · rw [tokens_char hslash hquote hblank, trail, h.ends false (some c) rfl]
    exact h.or_eq _ _
  · have hnote : (Onset.ofLast before).note c = some (.ofLast (some c)) := by
      refine Onset.note_ofLast hslash fun hc => ?_
      obtain ⟨l, rfl, hl⟩ := hbrace hc
      rw [← hbefore]
      exact fun he => hl (Option.some.inj he)
    rw [tokens_char hslash hquote hblank, join, h.or_eq before (some c)]
    split
    · rename_i hfuses
      have hword : Text.isIdentifierChar c := by
        cases before with
        | none => simp [fuses] at hfuses
        | some l =>
          simp only [fuses, Bool.and_eq_true] at hfuses
          exact hfuses.2.2
      have hc : c ≠ '\x7b' := by
        rintro rfl
        exact absurd hword (by decide +kernel)
      have hgap : (Onset.ofLast before).note ' ' = some (.ofLast (some ' ')) := 
        Onset.note_ofLast (by decide) fun h => absurd h (by decide)
      have hafter : (Onset.ofLast (some ' ')).note c = some (.ofLast (some c)) :=
        Onset.note_ofLast hslash fun h => absurd h hc
      rw [Onset.through, hgap, Option.bind_some, Onset.through, hafter, Option.bind_some]
      exact h.written false (some c) rfl
    · rw [Onset.through, hnote, Option.bind_some]
      exact h.written false (some c) rfl

theorem lineComment {after : List Char} (hcut : ∀ rest, afterLineComment (text ++ rest) = after ++ rest)
    (h : Scanned last last' after) : Scanned last last' ('/' :: '/' :: text) := by
  have hnil := hcut []
  rw [List.append_nil, List.append_nil] at hnil
  refine ⟨fun rest => ?_, h.met, fun gapped before hbefore => ?_, fun gapped before hbefore => ?_⟩
  · rw [List.cons_append, List.cons_append, tokens_lineComment, tokens_lineComment, hcut, hnil, h.cut,
      List.cons_append]
  · rw [tokens_lineComment, hnil]
    exact h.ends true before hbefore
  · rw [tokens_lineComment, hnil, join]
    exact h.written true before hbefore

theorem append {last₁ last₂ : Option Char} {a b : List Char} (ha : Scanned none last₁ a) (hb : Scanned none last₂ b) :
    Scanned none (last₂.or last₁) (a ++ b) := by
  refine ⟨ha.cut.append hb.cut, nofun, fun gapped before _ => ?_, fun gapped before _ => ?_⟩
  · rw [ha.cut, trail_append, hb.ends _ _ rfl, ha.ends _ _ rfl, Option.or_assoc]
  · rw [ha.cut, join_append, Onset.through_append, ha.written _ _ rfl, Option.bind_some, ha.ends _ _ rfl,
      hb.written _ _ rfl, Option.or_assoc]

/-- A script that ends in something other than a word. -/
theorem sealed {l : Char} (h : Scanned none (some l) text) (hl : Text.isIdentifierChar l = false) : Sealed text := by
  have happart (gapped : Bool) (before : Option Char) : Apart (trail gapped before (tokens text)).2 := by
    rw [h.ends gapped before rfl]
    rintro c ⟨⟩
    exact hl
  exact Sealed.of_cut .nil h.cut happart

end Scanned

/-- A literal from some place in it on, with the script after it. -/
def ScannedFrom (quote : Char) (onset : Onset) (last' : Option Char) (text : List Char) : Prop :=
  ∃ body after, (∀ rest, cutLiteral quote (text ++ rest) = (body, after ++ rest)) ∧
    body.getLast? = some quote ∧ onset.through body = some .nothing ∧ Scanned (some quote) last' after

/-- What a scan says, by the mode in which it began. -/
def Mode.Says (last' : Option Char) (text : List Char) : Mode → Prop
  | code last => Scanned last last' text
  | quoted quote onset => isQuote quote → ScannedFrom quote onset last' text
  | escaped quote => isQuote quote → ∃ c rest onset, text = c :: rest ∧ Onset.nothing.note c = some onset ∧
      ScannedFrom quote onset last' rest
  | comment last => ∃ after, (∀ rest, afterLineComment (text ++ rest) = after ++ rest) ∧ Scanned last last' after

theorem note_of_isQuote {c : Char} (h : isQuote c) (onset : Onset) : onset.note c = some .nothing := by
  rw [isQuote, Bool.or_eq_true, Bool.or_eq_true, beq_iff_eq, beq_iff_eq, beq_iff_eq] at h
  obtain (rfl | rfl) | rfl := h
  all_goals rfl

theorem ofLast_of_isQuote {c : Char} (h : isQuote c) : Onset.ofLast (some c) = .nothing := by
  refine if_neg fun hc => ?_
  rw [Option.some.inj hc] at h
  cases h

namespace ScannedFrom

variable {quote c : Char} {onset next : Onset} {last' : Option Char} {text : List Char}

theorem close (hquote : isQuote quote) (h : Scanned (some quote) last' text) :
    ScannedFrom quote onset last' (quote :: text) := by
  refine ⟨[quote], text, fun rest => ?_, rfl, ?_, h⟩
  · exact cutLiteral_quote quote (text ++ rest) (ne_backslash_of_isQuote hquote)
  · rw [Onset.through, note_of_isQuote hquote]
    rfl

theorem plain (hslash : c ≠ '\x5c') (hc : c ≠ quote) (hnote : onset.note c = some next)
    (h : ScannedFrom quote next last' text) : ScannedFrom quote onset last' (c :: text) := by
  obtain ⟨body, after, hcut, hlast, hbody, hafter⟩ := h
  refine ⟨c :: body, after, fun rest => ?_, ?_, ?_, hafter⟩
  · rw [List.cons_append, cutLiteral_plain hc hslash, hcut]
  · rw [List.getLast?_cons, hlast]
    rfl
  · rw [Onset.through, hnote]
    exact hbody

theorem escape (hnote : Onset.nothing.note c = some next) (h : ScannedFrom quote next last' text) :
    ScannedFrom quote onset last' ('\x5c' :: c :: text) := by
  obtain ⟨body, after, hcut, hlast, hbody, hafter⟩ := h
  refine ⟨'\x5c' :: c :: body, after, fun rest => ?_, ?_, ?_, hafter⟩
  · rw [List.cons_append, List.cons_append, cutLiteral_escape, hcut]
  · rw [List.getLast?_cons, List.getLast?_cons, hlast]
    rfl
  · have hslash : onset.note '\x5c' = some .nothing := rfl
    rw [Onset.through, hslash, Option.bind_some, Onset.through, hnote]
    exact hbody

theorem scanned (hquote : isQuote quote) (h : ScannedFrom quote .nothing last' text) (last : Option Char) :
    Scanned last last' (quote :: text) := by
  obtain ⟨body, after, hcut, hlast, hbody, hafter⟩ := h
  have hnil := hcut []
  rw [List.append_nil, List.append_nil] at hnil
  have hend : (quote :: body).getLast? = some quote := by
    rw [List.getLast?_cons, hlast]
    rfl
  refine ⟨.literal hquote hcut hafter.cut, fun _ => hafter.met rfl, fun gapped before _ => ?_,
    fun gapped before _ => ?_⟩
  · rw [tokens_quote hquote, hnil, trail, hend, hafter.ends false _ rfl]
    exact hafter.or_eq _ _
  · rw [tokens_quote hquote, hnil, join, List.cons_append, Onset.through, note_of_isQuote hquote, Option.bind_some,
      Onset.through_append, hbody, Option.bind_some, hend, ← ofLast_of_isQuote hquote, hafter.written false _ rfl,
      hafter.or_eq _ _]

end ScannedFrom

theorem afterLineComment_cons {c : Char} (h : c ≠ '\n') (rest : List Char) :
    afterLineComment (c :: rest) = afterLineComment rest := by
  rw [afterLineComment, List.dropWhile_cons, if_pos (by simpa using h)]
  rfl

theorem scan_sound {mode : Mode} {text : List Char} {last' : Option Char} (h : scan mode text = some last') :
    mode.Says last' text := by
  fun_induction scan mode text with
  | case1 =>
    cases h
    exact .nil _
  | case2 last c hc rest ih =>
    obtain ⟨after, hcut, hafter⟩ := ih h
    rw [eq_of_beq hc]
    exact hafter.lineComment hcut
  | case3 => cases h
  | case4 last c rest hc hquote ih => exact (ih h hquote).scanned hquote last
  | case5 last c rest hc hquote hblank ih => exact .blank hblank (ih h)
  | case6 => cases h
  | case7 last c rest hc hquote hblank hbrace ih =>
    refine .char (by simpa using hc) hquote hblank (fun hc => ?_) (ih h)
    cases last with
    | none =>
      rw [hc] at hbrace
      exact absurd rfl hbrace
    | some l =>
      refine ⟨l, rfl, fun hl => ?_⟩
      rw [hc, hl] at hbrace
      exact absurd rfl hbrace
  | case8 quote onset c rest hc ih =>
    intro hquote
    obtain ⟨d, more, next, rfl, hnote, hmore⟩ := ih h hquote
    rw [eq_of_beq hc]
    exact hmore.escape hnote
  | case9 quote onset c rest hc hclose ih =>
    intro hquote
    rw [eq_of_beq hclose]
    exact .close hquote (ih h)
  | case10 quote onset c rest hc hclose next hnote ih =>
    exact fun hquote => (ih h hquote).plain (by simpa using hc) (by simpa using hclose) hnote
  | case11 => cases h
  | case12 quote c rest next hnote ih => exact fun hquote => ⟨c, rest, next, rfl, hnote, ih h hquote⟩
  | case13 => cases h
  | case14 last c rest hc ih =>
    rw [eq_of_beq hc]
    exact ⟨'\n' :: rest, fun _ => rfl, .blank rfl (ih h)⟩
  | case15 last c rest hc ih =>
    obtain ⟨after, hcut, hafter⟩ := ih h
    exact ⟨after, fun more => (afterLineComment_cons (by simpa using hc) _).trans (hcut more), hafter⟩
  | case16 => cases h

/-- A source that can stand after any other, with the last character that is written of it. -/
structure Clean (last : Option Char) (text : List Char) : Prop where
  scanned : Scanned none last text
  onset : Onset.nothing.through text = some .nothing

/-- The last character that is written of a source, when a scan finds it clean. -/
def cleanEnd? (text : List Char) : Option (Option Char) :=
  if Onset.nothing.through text = some .nothing then scan (.code none) text else none

/-- The last character that is written of lines, when a scan finds each of them clean. -/
def cleanLines? : List (List Char) → Option (Option Char)
  | [] => some none
  | line :: rest => do
    let last ← cleanEnd? (line ++ ['\n'])
    let last' ← cleanLines? rest
    some (last'.or last)

namespace Clean

variable {last last' : Option Char} {a b : List Char}

theorem nil : Clean none [] := ⟨.nil none, rfl⟩

theorem append (ha : Clean last a) (hb : Clean last' b) : Clean (last'.or last) (a ++ b) := by
  refine ⟨ha.scanned.append hb.scanned, ?_⟩
  rw [Onset.through_append, ha.onset]
  exact hb.onset

/-- Compact, too, a clean source reaches nothing. -/
theorem onset_compact {c : Char} (h : Clean (some c) a) (hc : c ≠ '\x7b') :
    Onset.nothing.through (compactList a) = some .nothing := by
  have hwritten := h.scanned.written false none rfl
  have hlast : Onset.ofLast (some c) = .nothing := if_neg fun he => hc (Option.some.inj he)
  rwa [Option.some_or, hlast] at hwritten

theorem of_cleanEnd? (h : cleanEnd? a = some last) : Clean last a := by
  rw [cleanEnd?] at h
  split at h
  · rename_i honset
    exact ⟨scan_sound h, honset⟩
  · cases h

theorem of_cleanLines? {lines : List (List Char)} (h : cleanLines? lines = some last) :
    Clean last (lines.flatMap (· ++ ['\n'])) := by
  induction lines generalizing last with
  | nil =>
    cases h
    exact nil
  | cons line rest ih =>
    obtain ⟨last₁, hline, h⟩ := Option.bind_eq_some_iff.1 h
    obtain ⟨last₂, hrest, h⟩ := Option.bind_eq_some_iff.1 h
    cases h
    exact (of_cleanEnd? hline).append (ih hrest)

end Clean

end ConsentBanner.Script
