import ConsentBanner.Proofs.Script.Token
import ConsentBanner.Proofs.Text

/-!
What becomes of a script when it is compacted. Its pieces with their texts are a relation between a script and the way
it is cut; what is written of them is a relation between the pieces and the compact script.
-/

namespace ConsentBanner.Script

/-- A piece of a script with its text. -/
inductive Piece where
  /-- A quotation mark, and what follows it up to and with the mark that closes the literal. -/
  | literal (quote : Char) (rest : List Char)
  | lineComment (rest : List Char)
  | blockComment (rest : List Char)
  | blank (c : Char)
  | char (c : Char)
deriving DecidableEq, Repr

namespace Piece

def text : Piece → List Char
  | literal quote rest => quote :: rest
  | lineComment rest => '/' :: '/' :: rest
  | blockComment rest => '/' :: '*' :: rest
  | blank c => [c]
  | char c => [c]

def isGap : Piece → Bool
  | literal _ _ => false
  | lineComment _ => true
  | blockComment _ => true
  | blank _ => true
  | char _ => false

def token : Piece → Token
  | literal quote rest => .literal (quote :: rest)
  | lineComment _ => .gap
  | blockComment _ => .gap
  | blank _ => .gap
  | char c => .char c

theorem token_of_isGap {p : Piece} (h : p.isGap) : p.token = .gap := by
  cases p with
  | literal quote rest => cases h
  | char c => cases h
  | _ => rfl

end Piece

/-- What stands in a literal before the mark that closes it. -/
inductive Inside (quote : Char) : List Char → Prop
  | nil : Inside quote []
  | plain {c : Char} {rest : List Char} : c ≠ quote → c ≠ '\x5c' → Inside quote rest → Inside quote (c :: rest)
  | escape {c : Char} {rest : List Char} : Inside quote rest → Inside quote ('\x5c' :: c :: rest)

/-- What stands in a literal that is never closed. The last backslash may have nothing to take. -/
inductive Unclosed (quote : Char) : List Char → Prop
  | full {body : List Char} : Inside quote body → Unclosed quote body
  | broken {body : List Char} : Inside quote body → Unclosed quote (body ++ ['\x5c'])

/-- A script and the pieces it is cut into, left to right. -/
inductive CutInto : List Char → List Piece → Prop
  | nil : CutInto [] []
  | closed {quote : Char} {body rest : List Char} {pieces : List Piece} : isQuote quote → Inside quote body →
    CutInto rest pieces → CutInto (quote :: (body ++ quote :: rest)) (.literal quote (body ++ [quote]) :: pieces)
  | unclosed {quote : Char} {body : List Char} : isQuote quote → Unclosed quote body →
    CutInto (quote :: body) [.literal quote body]
  /-- A line comment ends before the next line feed. -/
  | lineComment {body rest : List Char} {pieces : List Piece} : '\n' ∉ body → (∀ c ∈ rest.head?, c = '\n') →
    CutInto rest pieces → CutInto ('/' :: '/' :: (body ++ rest)) (.lineComment body :: pieces)
  | blockComment {body rest : List Char} {pieces : List Piece} : ¬ ['*', '/'] <:+: body → CutInto rest pieces →
    CutInto ('/' :: '*' :: (body ++ '*' :: '/' :: rest)) (.blockComment (body ++ ['*', '/']) :: pieces)
  | openComment {body : List Char} : ¬ ['*', '/'] <:+: body → CutInto ('/' :: '*' :: body) [.blockComment body]
  | blank {c : Char} {rest : List Char} {pieces : List Piece} : Text.isBlank c → CutInto rest pieces →
    CutInto (c :: rest) (.blank c :: pieces)
  | char {c : Char} {rest : List Char} {pieces : List Piece} : ¬ isQuote c → ¬ Text.isBlank c →
    (c = '/' → rest.head? ≠ some '/' ∧ rest.head? ≠ some '*') → CutInto rest pieces →
    CutInto (c :: rest) (.char c :: pieces)

theorem CutInto.flatMap_text {source : List Char} {pieces : List Piece} (h : CutInto source pieces) :
    pieces.flatMap Piece.text = source := by
  induction h with
  | nil => rfl
  | closed _ _ _ ih => simp [Piece.text, ih]
  | unclosed _ _ => simp [Piece.text]
  | lineComment _ _ _ ih => simp [Piece.text, ih]
  | blockComment _ _ ih => simp [Piece.text, ih]
  | openComment _ => simp [Piece.text]
  | blank _ _ ih => simp [Piece.text, ih]
  | char _ _ _ _ ih => simp [Piece.text, ih]

theorem Inside.held {quote : Char} {body : List Char} (h : Inside quote body) : Held quote body := by
  induction h with
  | nil => exact .nil quote
  | plain hc hslash _ ih => exact .plain hc hslash ih
  | escape _ ih => exact .escape ih _

theorem Inside.cutLiteral {quote : Char} {body : List Char} (h : Inside quote body) (hslash : quote ≠ '\x5c')
    (rest : List Char) : cutLiteral quote (body ++ quote :: rest) = (body ++ [quote], rest) := by
  rw [h.held, cutLiteral_quote quote rest hslash]

theorem Unclosed.cutLiteral {quote : Char} {body : List Char} (h : Unclosed quote body) :
    cutLiteral quote body = (body, []) := by
  cases h with
  | full h =>
    have hcut := h.held []
    rw [List.append_nil] at hcut
    rw [hcut, Script.cutLiteral, List.append_nil]
  | broken h => rw [h.held, Script.cutLiteral]

/-- What follows a quotation mark is the inside of a literal and its end, or of a literal that is never closed. -/
theorem cutLiteral_cases (quote : Char) (rest : List Char) :
    (∃ body, Inside quote body ∧ rest = body ++ quote :: (cutLiteral quote rest).2) ∨ Unclosed quote rest := by
  induction rest using cutLiteral.induct quote with
  | case1 => exact .inr (.full .nil)
  | case2 => exact .inr (.broken .nil)
  | case3 c rest _ _ _ ih =>
    rw [cutLiteral_escape]
    obtain ⟨body, hbody, hrest⟩ | hopen := ih
    · exact .inl ⟨'\x5c' :: c :: body, .escape hbody, congrArg ('\x5c' :: c :: ·) hrest⟩
    · cases hopen with
      | full h => exact .inr (.full (.escape h))
      | broken h => exact .inr (.broken (.escape h))
  | case4 c rest hlast hpair hquote =>
    rw [cutLiteral, if_pos hquote]
    · exact .inl ⟨[], .nil, congrArg (· :: rest) (beq_iff_eq.1 hquote)⟩
    · exact hlast
    · exact hpair
  | case5 c rest hlast hpair hquote _ _ _ ih =>
    have hne : c ≠ quote := fun he => hquote (beq_iff_eq.2 he)
    have hslash : c ≠ '\x5c' := by
      intro he
      cases rest with
      | nil => exact hlast he rfl
      | cons d rest => exact hpair d rest he rfl
    rw [cutLiteral_plain hne hslash]
    obtain ⟨body, hbody, hrest⟩ | hopen := ih
    · exact .inl ⟨c :: body, .plain hne hslash hbody, congrArg (c :: ·) hrest⟩
    · cases hopen with
      | full h => exact .inr (.full (.plain hne hslash h))
      | broken h => exact .inr (.broken (.plain hne hslash h))

theorem tokens_blockComment (rest : List Char) :
    tokens ('/' :: '*' :: rest) = .gap :: tokens (afterBlockComment rest) := by
  rw [tokens]

theorem tokens_solidus {rest : List Char} (hline : rest.head? ≠ some '/') (hblock : rest.head? ≠ some '*') :
    tokens ('/' :: rest) = .char '/' :: tokens rest := by
  have hquote : ¬ isQuote '/' := by decide
  have hblank : ¬ Text.isBlank '/' := by decide
  rw [tokens, if_neg hquote, if_neg hblank]
  · rintro more - rfl
    exact hline rfl
  · rintro more - rfl
    exact hblock rfl

theorem afterLineComment_append {body rest : List Char} (hbody : '\n' ∉ body) (hrest : ∀ c ∈ rest.head?, c = '\n') :
    afterLineComment (body ++ rest) = rest := by
  apply Text.dropWhile_append_of_end
  · exact fun c hc => bne_iff_ne.2 fun he => hbody (he ▸ hc)
  · exact fun c hc => bne_eq_false_iff_eq.2 (hrest c hc)

theorem afterBlockComment_cons {c : Char} {rest : List Char} (h : ¬ ['*', '/'] <+: c :: rest) :
    afterBlockComment (c :: rest) = afterBlockComment rest := by
  rw [afterBlockComment]
  rintro more rfl rfl
  exact h ⟨more, rfl⟩

theorem afterBlockComment_append {body : List Char} (h : ¬ ['*', '/'] <:+: body) (rest : List Char) :
    afterBlockComment (body ++ '*' :: '/' :: rest) = rest := by
  induction body with
  | nil => rfl
  | cons c body ih =>
    have hhere : ¬ ['*', '/'] <+: c :: (body ++ '*' :: '/' :: rest) := by
      intro hp
      obtain ⟨hc, hmore⟩ := List.cons_prefix_cons.1 hp
      cases body with
      | nil => exact absurd (List.cons_prefix_cons.1 hmore).1 (by decide)
      | cons d body =>
        have hd := (List.cons_prefix_cons.1 hmore).1
        exact h (hc ▸ hd ▸ (List.prefix_append ['*', '/'] body).isInfix)
    rw [List.cons_append, afterBlockComment_cons hhere, ih fun hlater => h (List.infix_cons hlater)]

theorem afterBlockComment_open {body : List Char} (h : ¬ ['*', '/'] <:+: body) : afterBlockComment body = [] := by
  induction body with
  | nil => rfl
  | cons c body ih =>
    have hhere : ¬ ['*', '/'] <+: c :: body := fun hp => h hp.isInfix
    rw [afterBlockComment_cons hhere, ih fun hlater => h (List.infix_cons hlater)]

theorem afterBlockComment_cases (rest : List Char) :
    (∃ body, ¬ ['*', '/'] <:+: body ∧ rest = body ++ '*' :: '/' :: afterBlockComment rest) ∨
      ¬ ['*', '/'] <:+: rest := by
  induction rest with
  | nil => exact .inr (nomatch List.infix_nil.1 ·)
  | cons c rest ih =>
    by_cases hhere : ['*', '/'] <+: c :: rest
    · obtain ⟨more, heq⟩ := hhere
      rw [← heq]
      exact .inl ⟨[], (nomatch List.infix_nil.1 ·), rfl⟩
    · rw [afterBlockComment_cons hhere]
      obtain ⟨body, hbody, hrest⟩ | hopen := ih
      · refine .inl ⟨c :: body, fun h => ?_, congrArg (c :: ·) hrest⟩
        obtain hp | hlater := List.infix_cons_iff.1 h
        · exact hhere (hrest ▸ hp.trans (List.prefix_append (c :: body) _))
        · exact hbody hlater
      · refine .inr fun h => ?_
        obtain hp | hlater := List.infix_cons_iff.1 h
        · exact hhere hp
        · exact hopen hlater

/-- Every script is cut into pieces. -/
theorem exists_cutInto (source : List Char) : ∃ pieces, CutInto source pieces := by
  induction source using tokens.induct with
  | case1 => exact ⟨[], .nil⟩
  | case2 rest ih =>
    obtain ⟨pieces, hpieces⟩ := ih
    have hbody : '\n' ∉ rest.takeWhile (· != '\n') := fun hc => absurd (Text.of_mem_takeWhile hc) (by decide)
    have hrest : ∀ c ∈ (rest.dropWhile (· != '\n')).head?, c = '\n' :=
      fun c hc => bne_eq_false_iff_eq.1 (Text.head?_dropWhile_false rest c hc)
    have hcut := CutInto.lineComment hbody hrest hpieces
    rw [List.takeWhile_append_dropWhile] at hcut
    exact ⟨_, hcut⟩
  | case3 rest ih =>
    obtain ⟨pieces, hpieces⟩ := ih
    obtain ⟨body, hbody, hrest⟩ | hopen := afterBlockComment_cases rest
    · rw [hrest]
      exact ⟨_, .blockComment hbody hpieces⟩
    · exact ⟨_, .openComment hopen⟩
  | case4 c rest hline hblock hquote ih =>
    obtain ⟨pieces, hpieces⟩ := ih
    obtain ⟨body, hbody, hrest⟩ | hopen := cutLiteral_cases c rest
    · rw [hrest]
      exact ⟨_, .closed hquote hbody hpieces⟩
    · exact ⟨_, .unclosed hquote hopen⟩
  | case5 c rest hline hblock hquote hblank ih =>
    obtain ⟨pieces, hpieces⟩ := ih
    exact ⟨_, .blank hblank hpieces⟩
  | case6 c rest hline hblock hquote hblank ih =>
    obtain ⟨pieces, hpieces⟩ := ih
    refine ⟨_, .char hquote hblank (fun hc => ⟨fun hhead => ?_, fun hhead => ?_⟩) hpieces⟩
    · obtain ⟨more, rfl⟩ := List.head?_eq_some_iff.1 hhead
      exact hline more hc rfl
    · obtain ⟨more, rfl⟩ := List.head?_eq_some_iff.1 hhead
      exact hblock more hc rfl

theorem CutInto.tokens_eq {source : List Char} {pieces : List Piece} (h : CutInto source pieces) :
    tokens source = pieces.map Piece.token := by
  induction h with
  | nil => exact tokens_nil
  | closed hquote hbody _ ih =>
    rw [tokens_quote hquote, hbody.cutLiteral (ne_backslash_of_isQuote hquote), ih]
    rfl
  | unclosed hquote hbody =>
    rw [tokens_quote hquote, hbody.cutLiteral, tokens_nil]
    rfl
  | lineComment hbody hrest _ ih =>
    rw [tokens_lineComment, afterLineComment_append hbody hrest, ih]
    rfl
  | blockComment hbody _ ih =>
    rw [tokens_blockComment, afterBlockComment_append hbody, ih]
    rfl
  | openComment hbody =>
    rw [tokens_blockComment, afterBlockComment_open hbody, tokens_nil]
    rfl
  | blank hc _ ih =>
    rw [tokens_blank hc, ih]
    rfl
  | @char c rest pieces hquote hblank hsolidus _ ih =>
    by_cases hc : c = '/'
    · obtain ⟨hline, hblock⟩ := hsolidus hc
      rw [hc, tokens_solidus hline hblock, ih]
      rfl
    · rw [tokens_char hc hquote hblank, ih]
      rfl

/-- Whether a character is to be kept apart from what was written last: both belong to words, and a gap lies between
them. -/
def NeedsSpace (before : List Piece) (out : List Char) (c : Char) : Prop :=
  (∃ p ∈ before.getLast?, p.isGap) ∧ (∃ l ∈ out.getLast?, Text.isIdentifierChar l) ∧ Text.isIdentifierChar c

/-- Pieces and what is written of them. -/
inductive Written : List Piece → List Char → Prop
  | nil : Written [] []
  | literal {before : List Piece} {out : List Char} (quote : Char) (rest : List Char) : Written before out →
    Written (before ++ [.literal quote rest]) (out ++ quote :: rest)
  | gap {before : List Piece} {out : List Char} {p : Piece} : p.isGap → Written before out → Written (before ++ [p]) out
  | spaced {before : List Piece} {out : List Char} {c : Char} : NeedsSpace before out c → Written before out →
    Written (before ++ [.char c]) (out ++ [' ', c])
  | plain {before : List Piece} {out : List Char} {c : Char} : ¬ NeedsSpace before out c → Written before out →
    Written (before ++ [.char c]) (out ++ [c])

/-- Whether the pieces end in a gap. -/
def gapped (before : List Piece) : Bool := before.getLast?.any Piece.isGap

theorem gapped_concat (before : List Piece) (p : Piece) : gapped (before ++ [p]) = p.isGap := by
  rw [gapped, List.getLast?_concat, Option.any_some]

theorem needsSpace_iff {before : List Piece} {out : List Char} {c : Char} :
    NeedsSpace before out c ↔ (gapped before && fuses out.getLast? c) = true := by
  rw [NeedsSpace, gapped, Bool.and_eq_true]
  cases before.getLast? with
  | none => simp
  | some p =>
    cases out.getLast? with
    | none => simp [fuses]
    | some l => simp [fuses]

/-- Whatever comes next, something is written of it. -/
theorem Written.exists_append {before : List Piece} {out : List Char} (h : Written before out) (pieces : List Piece) :
    ∃ later, Written (before ++ pieces) later := by
  induction pieces generalizing before out with
  | nil =>
    rw [List.append_nil]
    exact ⟨out, h⟩
  | cons p pieces ih =>
    rw [List.append_cons]
    cases p with
    | literal quote rest => exact ih (.literal quote rest h)
    | char c =>
      by_cases hspace : NeedsSpace before out c
      · exact ih (.spaced hspace h)
      · exact ih (.plain hspace h)
    | _ => exact ih (.gap rfl h)

/-- While pieces are joined, the last character and the gap after it are those of what was written. -/
theorem Written.eq_join {pieces : List Piece} {out : List Char} (h : Written pieces out) :
    out = join false none (pieces.map Piece.token) ∧
      trail false none (pieces.map Piece.token) = (gapped pieces, out.getLast?) := by
  induction h with
  | nil => exact ⟨rfl, rfl⟩
  | @literal before out quote rest _ ih =>
    have hlast : (out ++ quote :: rest).getLast? = (quote :: rest).getLast? := by
      rw [List.getLast?_append, List.getLast?_cons, Option.some_or]
    rw [List.map_append, join_append, trail_append, ih.2, ← ih.1, gapped_concat, hlast]
    exact ⟨congrArg (out ++ ·) (List.append_nil _).symm, rfl⟩
  | @gap before out p hgap _ ih =>
    rw [List.map_append, List.map_singleton, Piece.token_of_isGap hgap, join_append, trail_append, ih.2, ← ih.1,
      gapped_concat, hgap]
    exact ⟨(List.append_nil out).symm, rfl⟩
  | @spaced before out c hspace _ ih =>
    have hlast : (out ++ [' ', c]).getLast? = some c := by rw [List.append_cons, List.getLast?_concat]
    rw [List.map_append, join_append, trail_append, ih.2, ← ih.1, gapped_concat, hlast, List.map_singleton,
      Piece.token, join, if_pos (needsSpace_iff.1 hspace)]
    exact ⟨rfl, rfl⟩
  | @plain before out c hspace _ ih =>
    rw [List.map_append, join_append, trail_append, ih.2, ← ih.1, gapped_concat, List.getLast?_concat,
      List.map_singleton, Piece.token, join, if_neg (mt needsSpace_iff.2 hspace)]
    exact ⟨rfl, rfl⟩

theorem written_iff {pieces : List Piece} {out : List Char} :
    Written pieces out ↔ out = join false none (pieces.map Piece.token) := by
  constructor
  · exact fun h => h.eq_join.1
  · rintro rfl
    obtain ⟨out, hout⟩ := Written.nil.exists_append pieces
    exact hout.eq_join.1 ▸ hout

/-- What is written of all pieces but the last. -/
theorem Written.concat_cases {before : List Piece} {p : Piece} {out : List Char} (h : Written (before ++ [p]) out) :
    ∃ upto added, Written before upto ∧ out = upto ++ added ∧ (added = [] → p.isGap) := by
  generalize hpieces : before ++ [p] = pieces at h
  cases h with
  | nil => simp at hpieces
  | literal quote rest h =>
    obtain ⟨rfl, -⟩ := List.append_inj' hpieces rfl
    exact ⟨_, _, h, rfl, nofun⟩
  | gap hgap h =>
    obtain ⟨rfl, heq⟩ := List.append_inj' hpieces rfl
    cases heq
    exact ⟨_, [], h, (List.append_nil _).symm, fun _ => hgap⟩
  | spaced _ h =>
    obtain ⟨rfl, -⟩ := List.append_inj' hpieces rfl
    exact ⟨_, _, h, rfl, nofun⟩
  | plain _ h =>
    obtain ⟨rfl, -⟩ := List.append_inj' hpieces rfl
    exact ⟨_, _, h, rfl, nofun⟩

theorem Written.concat_char {before : List Piece} {c : Char} {out : List Char}
    (h : Written (before ++ [.char c]) out) :
    ∃ upto space, Written before upto ∧ out = upto ++ space ++ [c] ∧ (space = [] → ¬ NeedsSpace before upto c) := by
  generalize hpieces : before ++ [.char c] = pieces at h
  cases h with
  | nil => simp at hpieces
  | literal quote rest h => cases (List.append_inj' hpieces rfl).2
  | gap hgap h =>
    cases (List.append_inj' hpieces rfl).2
    cases hgap
  | @spaced before out d _ h =>
    obtain ⟨rfl, heq⟩ := List.append_inj' hpieces rfl
    cases heq
    exact ⟨out, [' '], h, List.append_cons .., nofun⟩
  | @plain before out d hspace h =>
    obtain ⟨rfl, heq⟩ := List.append_inj' hpieces rfl
    cases heq
    exact ⟨out, [], h, by rw [List.append_nil], fun _ => hspace⟩

/-- What is written of the first pieces, and what the others add. -/
theorem Written.append_cases {first later : List Piece} {out : List Char} (h : Written (first ++ later) out) :
    ∃ upto added, Written first upto ∧ out = upto ++ added ∧ (added = [] → ∀ p ∈ later, p.isGap) := by
  induction later generalizing first with
  | nil =>
    rw [List.append_nil] at h
    exact ⟨out, [], h, (List.append_nil out).symm, fun _ => List.forall_mem_nil _⟩
  | cons p later ih =>
    rw [List.append_cons] at h
    obtain ⟨next, added, hnext, rfl, hadded⟩ := ih h
    obtain ⟨upto, shown, hupto, rfl, hshown⟩ := hnext.concat_cases
    refine ⟨upto, shown ++ added, hupto, List.append_assoc .., fun hnil => ?_⟩
    obtain ⟨hshown', hadded'⟩ := List.append_eq_nil_iff.1 hnil
    exact List.forall_mem_cons.2 ⟨hshown hshown', hadded hadded'⟩

/-- Two characters of words with something between them stay apart. -/
theorem Written.apart {before between : List Piece} {x y : Char} {out : List Char}
    (h : Written (before ++ .char x :: (between ++ [.char y])) out) (hbetween : between ≠ [])
    (hx : Text.isIdentifierChar x) (hy : Text.isIdentifierChar y) :
    ∃ start kept, Written (before ++ [.char x]) (start ++ [x]) ∧ kept ≠ [] ∧ out = start ++ x :: (kept ++ [y]) := by
  rw [List.append_cons, ← List.append_assoc] at h
  obtain ⟨upto, space, hupto, rfl, hspace⟩ := h.concat_char
  obtain ⟨first, added, hfirst, rfl, hadded⟩ := hupto.append_cases
  obtain ⟨earlier, gap, hearlier, rfl, -⟩ := hfirst.concat_char
  refine ⟨earlier ++ gap, added ++ space, hfirst, fun hnil => ?_, by simp⟩
  obtain ⟨hadded', hspace'⟩ := List.append_eq_nil_iff.1 hnil
  -- Nothing was written in between, so all that lies there are gaps.
  refine hspace hspace' ⟨⟨between.getLast hbetween, ?_, ?_⟩, ⟨x, ?_, hx⟩, hy⟩
  · rw [List.getLast?_append, List.getLast?_eq_some_getLast hbetween, Option.some_or]
    rfl
  · exact hadded hadded' _ (List.getLast_mem hbetween)
  · rw [hadded', List.append_nil, List.getLast?_concat]
    rfl

/-- A compact script is what is written of the pieces of its source: literals as they stand and all other characters,
nothing of comments and white space but one space between two words. So characters of words that are apart in the
source are apart in the compact script. -/
theorem written_iff_compact (source : String) :
    (∃ pieces, CutInto source.toList pieces ∧ pieces.flatMap Piece.text = source.toList) ∧
    ∀ pieces, CutInto source.toList pieces →
      (∀ out, Written pieces out ↔ out = (compact source).toList) ∧
      ∀ before x between y after, pieces = before ++ .char x :: (between ++ .char y :: after) → between ≠ [] →
        Text.isIdentifierChar x → Text.isIdentifierChar y →
        ∃ start kept rest, Written (before ++ [.char x]) (start ++ [x]) ∧
          Written (before ++ .char x :: (between ++ [.char y])) (start ++ x :: (kept ++ [y])) ∧ kept ≠ [] ∧
          (compact source).toList = start ++ x :: (kept ++ y :: rest) := by
  constructor
  · obtain ⟨pieces, hpieces⟩ := exists_cutInto source.toList
    exact ⟨pieces, hpieces, hpieces.flatMap_text⟩
  · intro pieces hpieces
    have hout (out : List Char) : Written pieces out ↔ out = (compact source).toList := by
      rw [written_iff, compact, String.toList_ofList, compactList, hpieces.tokens_eq]
    refine ⟨hout, ?_⟩
    intro before x between y after heq hbetween hx hy
    have hwritten := (hout _).2 rfl
    have hsplit : pieces = before ++ .char x :: (between ++ [.char y]) ++ after := by simp [heq]
    rw [hsplit] at hwritten
    obtain ⟨upto, rest, hupto, hrest, -⟩ := hwritten.append_cases
    obtain ⟨start, kept, hstart, hkept, rfl⟩ := hupto.apart hbetween hx hy
    exact ⟨start, kept, rest, hstart, hupto, hkept, by simp [hrest]⟩

end ConsentBanner.Script
