import ConsentBanner.Proofs.Script.Piece

/-!
Compact scripts that are compacted again. They are cut into the pieces of their sources, gaps apart, unless two
characters come together that open a comment side by side.
-/

namespace ConsentBanner.Script

/-- The pieces of which something is written. -/
def shown (ts : List Token) : List Token := ts.filter (· ≠ .gap)

@[simp] theorem shown_nil : shown [] = [] := rfl

@[simp] theorem shown_literal (text : List Char) (ts : List Token) :
    shown (.literal text :: ts) = .literal text :: shown ts := rfl

@[simp] theorem shown_gap (ts : List Token) : shown (.gap :: ts) = shown ts := rfl

@[simp] theorem shown_char (c : Char) (ts : List Token) : shown (.char c :: ts) = .char c :: shown ts := rfl

/-- A solidus and, after nothing but gaps, a second one or an asterisk: side by side they open a comment. -/
def OpensComment (ts : List Token) : Prop :=
  [.char '/', .char '/'] <:+: shown ts ∨ [.char '/', .char '*'] <:+: shown ts

/-- A character that opens a comment with the first one that is shown after it. -/
def OpensWith (c : Char) (ts : List Token) : Prop :=
  c = '/' ∧ ((shown ts).head? = some (.char '/') ∨ (shown ts).head? = some (.char '*'))

theorem not_opensComment_nil : ¬ OpensComment [] := by
  intro h
  cases h with
  | inl h => cases List.infix_nil.1 h
  | inr h => cases List.infix_nil.1 h

theorem opensComment_literal {text : List Char} {ts : List Token} :
    OpensComment (.literal text :: ts) ↔ OpensComment ts := by
  simp [OpensComment, List.infix_cons_iff, List.cons_prefix_cons]

theorem singleton_prefix_iff {α : Type} {a : α} {l : List α} : [a] <+: l ↔ l.head? = some a := by
  cases l with
  | nil => simp
  | cons b l => simp [List.cons_prefix_cons, eq_comm]

theorem opensComment_char {c : Char} {ts : List Token} :
    OpensComment (.char c :: ts) ↔ OpensWith c ts ∨ OpensComment ts := by
  rw [OpensComment, OpensComment, OpensWith, shown_char, List.infix_cons_iff, List.infix_cons_iff,
    List.cons_prefix_cons, List.cons_prefix_cons, singleton_prefix_iff, singleton_prefix_iff, Token.char.injEq]
  constructor
  · rintro ((⟨rfl, h⟩ | h) | (⟨rfl, h⟩ | h))
    · exact .inl ⟨rfl, .inl h⟩
    · exact .inr (.inl h)
    · exact .inl ⟨rfl, .inr h⟩
    · exact .inr (.inr h)
  · rintro (⟨rfl, h | h⟩ | (h | h))
    · exact .inl (.inl ⟨rfl, h⟩)
    · exact .inr (.inl ⟨rfl, h⟩)
    · exact .inl (.inr h)
    · exact .inr (.inr h)

/-- A character that is no part of a word is written without a space before it. -/
theorem join_char_of_apart {last : Option Char} (h : Apart last) (gapped : Bool) (c : Char) (ts : List Token) :
    join gapped last (.char c :: ts) = c :: join false (some c) ts := by
  rw [join_of_apart h, join, Bool.false_and, if_neg Bool.false_ne_true]

theorem apart_solidus : Apart (some '/') := by
  intro c hc
  cases hc
  decide +kernel

/-- What is written begins with a character of code when that is shown first. -/
theorem CutInto.head?_join {source : List Char} {pieces : List Piece} (h : CutInto source pieces) {c : Char}
    (hc : ¬ isQuote c) {last : Option Char} (hlast : Apart last) (gapped : Bool) :
    (join gapped last (pieces.map Piece.token)).head? = some c ↔
      (shown (pieces.map Piece.token)).head? = some (.char c) := by
  induction h generalizing gapped with
  | nil => simp [join]
  | @closed quote body rest pieces hquote hbody hrest ih =>
    have hne : quote ≠ c := by
      rintro rfl
      exact hc hquote
    simp [Piece.token, join, hne]
  | @unclosed quote body hquote hbody =>
    have hne : quote ≠ c := by
      rintro rfl
      exact hc hquote
    simp [Piece.token, join, hne]
  | lineComment _ _ _ ih => exact ih true
  | blockComment _ _ ih => exact ih true
  | openComment _ => simp [Piece.token, join]
  | blank _ _ ih => exact ih true
  | @char d rest pieces hquote hblank hsolidus hrest ih =>
    rw [List.map_cons, Piece.token, join_char_of_apart hlast, shown_char]
    simp

theorem tokens_code {c : Char} {rest : List Char} (hquote : ¬ isQuote c) (hblank : ¬ Text.isBlank c)
    (hsolidus : c = '/' → rest.head? ≠ some '/' ∧ rest.head? ≠ some '*') :
    tokens (c :: rest) = .char c :: tokens rest := by
  by_cases hc : c = '/'
  · subst hc
    exact tokens_solidus (hsolidus rfl).1 (hsolidus rfl).2
  · exact tokens_char hc hquote hblank rest

/-- The pieces without gaps, but with one between two words that had some. -/
def spaced (gapped : Bool) (last : Option Char) : List Token → List Token
  | [] => []
  | .literal text :: rest => .literal text :: spaced false text.getLast? rest
  | .gap :: rest => spaced true last rest
  | .char c :: rest =>
    if gapped && fuses last c then .gap :: .char c :: spaced false (some c) rest
    else .char c :: spaced false (some c) rest

theorem shown_spaced (gapped : Bool) (last : Option Char) (ts : List Token) :
    shown (spaced gapped last ts) = shown ts := by
  induction ts generalizing gapped last with
  | nil => rfl
  | cons t ts ih =>
    cases t with
    | literal text => rw [spaced, shown_literal, shown_literal, ih]
    | gap => rw [spaced, shown_gap, ih]
    | char c =>
      rw [spaced]
      split
      · rw [shown_gap, shown_char, shown_char, ih]
      · rw [shown_char, shown_char, ih]

/-- Of these pieces the same is written. -/
theorem join_spaced (gapped : Bool) (last : Option Char) (ts : List Token) :
    join false last (spaced gapped last ts) = join gapped last ts := by
  induction ts generalizing gapped last with
  | nil => rfl
  | cons t ts ih =>
    cases t with
    | literal text => rw [spaced, join, join, ih]
    | gap => rw [spaced, join, ih]
    | char c =>
      rw [spaced, join]
      split
      · rename_i hspace
        have hfuses : fuses last c = true := (Bool.and_eq_true_iff.1 hspace).2
        rw [join, join, hfuses, Bool.true_and, if_pos rfl, ih]
      · rw [join, Bool.false_and, if_neg Bool.false_ne_true, ih]

/-- Where no two characters open a comment, what is written of the pieces is cut into them again. -/
theorem CutInto.tokens_join {source : List Char} {pieces : List Piece} (h : CutInto source pieces)
    (hfree : ¬ OpensComment (pieces.map Piece.token)) (gapped : Bool) (last : Option Char) :
    tokens (join gapped last (pieces.map Piece.token)) = spaced gapped last (pieces.map Piece.token) := by
  induction h generalizing gapped last with
  | nil => exact tokens_nil
  | @closed quote body rest pieces hquote hbody hrest ih =>
    rw [List.map_cons, Piece.token, opensComment_literal] at hfree
    rw [List.map_cons, Piece.token, join, spaced, ← ih hfree, List.cons_append, List.append_assoc,
      List.singleton_append, tokens_quote hquote, hbody.cutLiteral (ne_backslash_of_isQuote hquote)]
  | @unclosed quote body hquote hbody =>
    rw [List.map_singleton, Piece.token, join, join, List.append_nil, tokens_quote hquote, hbody.cutLiteral, tokens_nil]
    rfl
  | lineComment _ _ _ ih => exact ih hfree true last
  | blockComment _ _ ih => exact ih hfree true last
  | openComment _ => exact tokens_nil
  | blank _ _ ih => exact ih hfree true last
  | @char c rest pieces hquote hblank hsolidus hrest ih =>
    rw [List.map_cons, Piece.token, opensComment_char, not_or] at hfree
    obtain ⟨hhere, hlater⟩ := hfree
    have hcode : tokens (c :: join false (some c) (pieces.map Piece.token)) =
        .char c :: spaced false (some c) (pieces.map Piece.token) := by
      rw [← ih hlater]
      apply tokens_code hquote hblank
      rintro rfl
      rw [ne_eq, ne_eq, hrest.head?_join (by decide) apart_solidus, hrest.head?_join (by decide) apart_solidus,
        ← not_or]
      exact fun hnext => hhere ⟨rfl, hnext⟩
    rw [List.map_cons, Piece.token, join, spaced]
    split
    · rw [tokens_blank (by decide), hcode]
    · exact hcode

namespace Piece

def isComment : Piece → Bool
  | lineComment _ => true
  | blockComment _ => true
  | _ => false

end Piece

/-- What is written of pieces is not longer than they are, a space in front of them included, and shorter with every
comment. -/
theorem length_join_le (pieces : List Piece) (gapped : Bool) (last : Option Char) :
    (join gapped last (pieces.map Piece.token)).length + pieces.countP Piece.isComment ≤
      (pieces.flatMap Piece.text).length + gapped.toNat := by
  induction pieces generalizing gapped last with
  | nil => exact Nat.zero_le _
  | cons p pieces ih =>
    rw [List.map_cons, List.flatMap_cons, List.length_append]
    cases p with
    | literal quote rest =>
      have hrest := ih false (quote :: rest).getLast?
      rw [Bool.toNat_false] at hrest
      rw [Piece.token, join, List.length_append, List.countP_cons_of_neg (by simp [Piece.isComment]), Piece.text]
      omega
    | lineComment rest =>
      have hrest := ih true last
      rw [Bool.toNat_true] at hrest
      rw [Piece.token, join, List.countP_cons_of_pos rfl, Piece.text, List.length_cons, List.length_cons]
      omega
    | blockComment rest =>
      have hrest := ih true last
      rw [Bool.toNat_true] at hrest
      rw [Piece.token, join, List.countP_cons_of_pos rfl, Piece.text, List.length_cons, List.length_cons]
      omega
    | blank c =>
      have hrest := ih true last
      rw [Bool.toNat_true] at hrest
      rw [Piece.token, join, List.countP_cons_of_neg (by simp [Piece.isComment]), Piece.text, List.length_singleton]
      omega
    | char c =>
      have hrest := ih false (some c)
      rw [Bool.toNat_false] at hrest
      rw [Piece.token, join, List.countP_cons_of_neg (by simp [Piece.isComment]), Piece.text, List.length_singleton]
      split
      · rename_i hspace
        rw [(Bool.and_eq_true_iff.1 hspace).1, Bool.toNat_true, List.length_cons, List.length_cons]
        omega
      · rw [List.length_cons]
        omega

/-- A script in which a comment is found. -/
def HoldsComment (source : List Char) : Prop := ∃ pieces, CutInto source pieces ∧ ∃ p ∈ pieces, p.isComment

theorem HoldsComment.length_compactList {source : List Char} (h : HoldsComment source) :
    (compactList source).length < source.length := by
  obtain ⟨pieces, hpieces, hcomment⟩ := h
  have hlength := length_join_le pieces false none
  have hcount : 0 < pieces.countP Piece.isComment := List.countP_pos_iff.2 hcomment
  rw [← hpieces.tokens_eq, hpieces.flatMap_text, Bool.toNat_false] at hlength
  rw [compactList]
  omega

theorem HoldsComment.of_cut {source rest : List Char} {p : Piece}
    (hcut : ∀ pieces, CutInto rest pieces → CutInto source (p :: pieces)) (h : HoldsComment rest) :
    HoldsComment source := by
  obtain ⟨pieces, hpieces, q, hq, hcomment⟩ := h
  exact ⟨p :: pieces, hcut pieces hpieces, q, .tail _ hq, hcomment⟩

theorem holdsComment_solidus {rest : List Char} (h : rest.head? = some '/' ∨ rest.head? = some '*') :
    HoldsComment ('/' :: rest) := by
  obtain ⟨pieces, hpieces⟩ := exists_cutInto ('/' :: rest)
  refine ⟨pieces, hpieces, ?_⟩
  generalize hsource : '/' :: rest = source at hpieces
  cases hpieces with
  | nil => cases hsource
  | closed hquote _ _ =>
    cases hsource
    cases hquote
  | unclosed hquote _ =>
    cases hsource
    cases hquote
  | lineComment _ _ _ => exact ⟨_, .head _, rfl⟩
  | blockComment _ _ => exact ⟨_, .head _, rfl⟩
  | openComment _ => exact ⟨_, .head _, rfl⟩
  | blank hblank _ =>
    cases hsource
    cases hblank
  | char _ _ hsolidus _ =>
    cases hsource
    obtain ⟨hline, hblock⟩ := hsolidus rfl
    cases h with
    | inl h => exact absurd h hline
    | inr h => exact absurd h hblock

/-- Two characters that open a comment do so where they are written. -/
theorem CutInto.holdsComment_join {source : List Char} {pieces : List Piece} (h : CutInto source pieces)
    (hopens : OpensComment (pieces.map Piece.token)) (gapped : Bool) (last : Option Char) :
    HoldsComment (join gapped last (pieces.map Piece.token)) := by
  induction h generalizing gapped last with
  | nil => exact absurd hopens not_opensComment_nil
  | @closed quote body rest pieces hquote hbody hrest ih =>
    rw [List.map_cons, Piece.token, opensComment_literal] at hopens
    rw [List.map_cons, Piece.token, join, List.cons_append, List.append_assoc, List.singleton_append]
    exact .of_cut (fun _ => .closed hquote hbody) (ih hopens false _)
  | unclosed _ _ =>
    rw [List.map_singleton, Piece.token, opensComment_literal] at hopens
    exact absurd hopens not_opensComment_nil
  | lineComment _ _ _ ih => exact ih hopens true last
  | blockComment _ _ ih => exact ih hopens true last
  | openComment _ => exact absurd hopens not_opensComment_nil
  | blank _ _ ih => exact ih hopens true last
  | @char c rest pieces hquote hblank hsolidus hrest ih =>
    rw [List.map_cons, Piece.token, opensComment_char] at hopens
    have hcode : HoldsComment (c :: join false (some c) (pieces.map Piece.token)) := by
      by_cases hhere : OpensWith c (pieces.map Piece.token)
      · obtain ⟨rfl, hnext⟩ := hhere
        apply holdsComment_solidus
        rwa [hrest.head?_join (by decide) apart_solidus, hrest.head?_join (by decide) apart_solidus]
      · refine .of_cut (fun _ => .char hquote hblank ?_) (ih (hopens.resolve_left hhere) false (some c))
        rintro rfl
        rw [ne_eq, ne_eq, hrest.head?_join (by decide) apart_solidus, hrest.head?_join (by decide) apart_solidus,
          ← not_or]
        exact fun hnext => hhere ⟨rfl, hnext⟩
    rw [List.map_cons, Piece.token, join]
    split
    · exact .of_cut (fun _ => .blank (by decide)) hcode
    · exact hcode

example : compact "a / / b" = "a//b" ∧ compact "a//b" = "a" := by cbv

end ConsentBanner.Script
