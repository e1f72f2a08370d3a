import ConsentBanner.Proofs.Markup.Document
import ConsentBanner.Proofs.Stylesheet.Compact
import Mathlib.Data.List.Chain

/-!
The selectors of components. Compaction does not know where a text in quotation marks begins and ends, so it changes
what a selector says wherever it would change the identifier on its own.
-/

namespace ConsentBanner.Text

theorem toList_replace (pattern replacement text : String) :
    (replace pattern replacement text).toList = replaceList pattern.toList replacement.toList text.toList := by
  rw [replace, String.toList_ofList]

theorem replaceList_singleton (c : Char) (written text : List Char) :
    replaceList [c] written text = text.flatMap fun d => if d = c then written else [d] := by
  induction text with
  | nil => rfl
  | cons d text ih =>
    rw [List.flatMap_cons, ← ih]
    split
    · rename_i hd
      rw [hd]
      exact replaceList_match c []
    · rename_i hd
      exact replaceList_copy fun hp => hd (List.cons_prefix_cons.1 hp).1.symm

end ConsentBanner.Text

namespace ConsentBanner.Stylesheet

/-- Neighbours between which compaction drops nothing. -/
def Fits (x y : Char) : Prop :=
  (Text.isBlank x → Text.isBlank y = false ∧ isPunctuation y = false) ∧ (isPunctuation x → Text.isBlank y = false) ∧
    (x = ';' → y ≠ '\x7d')

instance (x y : Char) : Decidable (Fits x y) := inferInstanceAs (Decidable (_ ∧ _ ∧ _))

/-- A text that compaction leaves as it is: its white space are single spaces, none of them next to punctuation, and no
semicolon stands before a closing brace. -/
structure IsSettled (text : List Char) : Prop where
  spaces : ∀ c ∈ text, Text.isBlank c → c = ' '
  neighbours : text.IsChain Fits

instance (text : List Char) : Decidable (IsSettled text) :=
  decidable_of_iff ((text.all fun c => decide (Text.isBlank c → c = ' ')) = true ∧ text.IsChain Fits) <| by
    constructor
    · exact fun h => ⟨Text.forall_mem_of_all h.1, h.2⟩
    · exact fun h => ⟨List.all_eq_true.2 fun c hc => decide_eq_true (h.spaces c hc), h.neighbours⟩

theorem length_squeeze_le (after : Bool) (cs : List Char) : (Markup.squeeze after cs).length ≤ cs.length := by
  induction cs generalizing after with
  | nil => exact Nat.le_refl 0
  | cons c cs ih =>
    rw [Markup.squeeze]
    split
    · split
      · exact Nat.le_succ_of_le (ih true)
      · exact Nat.succ_le_succ (ih true)
    · exact Nat.succ_le_succ (ih false)

theorem squeeze_eq_self_iff (after : Bool) (cs : List Char) :
    Markup.squeeze after cs = cs ↔
      (∀ c ∈ cs, Text.isBlank c → c = ' ') ∧ cs.IsChain (fun x y => Text.isBlank x → Text.isBlank y = false) ∧
        (after → ∀ c ∈ cs.head?, Text.isBlank c = false) := by
  induction cs generalizing after with
  | nil => simp [Markup.squeeze]
  | cons c cs ih =>
    rw [Markup.squeeze, List.forall_mem_cons, List.isChain_cons]
    cases hc : Text.isBlank c with
    | false =>
      rw [if_neg Bool.false_ne_true, List.cons.injEq, ih false]
      constructor
      · rintro ⟨-, hspaces, hchain, -⟩
        refine ⟨⟨fun h => absurd h Bool.false_ne_true, hspaces⟩, ⟨fun _ _ h => absurd h Bool.false_ne_true, hchain⟩, ?_⟩
        rintro - d ⟨⟩
        exact hc
      · rintro ⟨⟨-, hspaces⟩, ⟨-, hchain⟩, -⟩
        exact ⟨rfl, hspaces, hchain, fun h => absurd h Bool.false_ne_true⟩
    | true =>
      cases after with
      | false =>
        rw [if_pos rfl, if_neg Bool.false_ne_true, List.cons.injEq, ih true]
        constructor
        · rintro ⟨hspace, hspaces, hchain, hhead⟩
          exact ⟨⟨fun _ => hspace.symm, hspaces⟩, ⟨fun d hd _ => hhead rfl d hd, hchain⟩,
            fun h => absurd h Bool.false_ne_true⟩
        · rintro ⟨⟨hspace, hspaces⟩, ⟨hhead, hchain⟩, -⟩
          exact ⟨(hspace rfl).symm, hspaces, hchain, fun _ d hd => hhead d hd rfl⟩
      | true =>
        rw [if_pos rfl, if_pos rfl]
        constructor
        · intro heq
          have hlength := length_squeeze_le true cs
          rw [heq, List.length_cons] at hlength
          omega
        · rintro ⟨-, -, hhead⟩
          rw [hhead rfl c rfl] at hc
          cases hc

theorem isBlank_of_isPunctuation {c : Char} (h : isPunctuation c = true) : Text.isBlank c = false := by
  simp only [isPunctuation, Bool.or_eq_true, beq_iff_eq] at h
  obtain ((((rfl | rfl) | rfl) | rfl) | rfl) | rfl := h <;> decide

theorem foldr_tighten_eq_self_iff (cs : List Char) :
    cs.foldr tighten [] = cs ↔ cs.IsChain fun x y =>
      (isPunctuation x → Text.isBlank y = false) ∧ (Text.isBlank x → isPunctuation y = false) := by
  induction cs with
  | nil => simp
  | cons c cs ih =>
    have hsub := foldr_tighten_sublist cs
    rw [List.foldr_cons, List.isChain_cons, ← ih, tighten]
    by_cases hmark : isPunctuation c = true
    · rw [if_pos hmark, List.cons.injEq, hmark, isBlank_of_isPunctuation hmark]
      constructor
      · rintro ⟨-, hdrop⟩
        have hhead : ∀ y ∈ cs.head?, Text.isBlank y = false := by
          rw [← hdrop]
          exact Text.head?_dropWhile_false _
        have hlength := (List.dropWhile_sublist (p := Text.isBlank) (l := cs.foldr tighten [])).length_le
        rw [hdrop] at hlength
        exact ⟨fun y hy => ⟨fun _ => hhead y hy, fun h => absurd h Bool.false_ne_true⟩, hsub.eq_of_length_le hlength⟩
      · rintro ⟨hhead, heq⟩
        rw [heq]
        exact ⟨rfl, Text.dropWhile_of_head fun y hy => (hhead y hy).1 rfl⟩
    · have hstarts : startsPunctuated cs = true ↔ ∃ y ∈ cs.head?, isPunctuation y = true := by
        cases cs with
        | nil => simp [startsPunctuated]
        | cons y cs => simp [startsPunctuated]
      rw [if_neg hmark]
      split
      · rename_i hdrop
        rw [Bool.and_eq_true] at hdrop
        constructor
        · intro heq
          have hlength := hsub.length_le
          rw [heq, List.length_cons] at hlength
          omega
        · rintro ⟨hhead, heq⟩
          rw [heq, hstarts] at hdrop
          obtain ⟨hblank, y, hy, hpunctuated⟩ := hdrop
          rw [(hhead y hy).2 hblank] at hpunctuated
          cases hpunctuated
      · rename_i hkeep
        rw [List.cons.injEq]
        constructor
        · rintro ⟨-, heq⟩
          refine ⟨fun y hy => ⟨fun h => absurd h hmark, fun hblank => ?_⟩, heq⟩
          by_contra hpunctuated
          rw [heq, Bool.and_eq_true, hstarts] at hkeep
          exact hkeep ⟨hblank, y, hy, Bool.not_eq_false _ ▸ hpunctuated⟩
        · exact fun h => ⟨rfl, h.2⟩

theorem dropSemicolons_eq_self_iff (cs : List Char) :
    dropSemicolons cs = cs ↔ cs.IsChain fun x y => x = ';' → y ≠ '\x7d' := by
  induction cs using dropSemicolons_induction with
  | nil => simp [dropSemicolons, Text.replaceList, Text.replaceFrom]
  | semicolon cs _ =>
    rw [dropSemicolons_match]
    constructor
    · intro heq
      exact absurd (List.cons.inj heq).1 (by decide)
    · intro hchain
      exact absurd rfl ((List.isChain_cons.1 hchain).1 '\x7d' rfl rfl)
  | copy c cs h ih =>
    rw [dropSemicolons_copy h, List.cons.injEq, ih, List.isChain_cons]
    constructor
    · rintro ⟨-, hchain⟩
      refine ⟨fun y hy hc hbrace => ?_, hchain⟩
      obtain ⟨more, rfl⟩ := List.head?_eq_some_iff.1 hy
      exact h (pair_prefix_cons.2 ⟨hc, hbrace⟩)
    · exact fun hchain => ⟨rfl, hchain.2⟩

/-- Compaction changes exactly the texts that are not settled. -/
theorem squash_eq_self_iff (cs : List Char) : squash cs = cs ↔ IsSettled cs := by
  have split {l : List Char} : l.IsChain Fits ↔
      l.IsChain (fun x y => Text.isBlank x → Text.isBlank y = false) ∧
      l.IsChain (fun x y => (isPunctuation x → Text.isBlank y = false) ∧ (Text.isBlank x → isPunctuation y = false)) ∧
      l.IsChain (fun x y => x = ';' → y ≠ '\x7d') := by
    induction l with
    | nil => simp
    | cons c l ih =>
      simp only [List.isChain_cons, ih, Fits]
      grind
  constructor
  · intro heq
    -- No pass lengthens the text, so none may shorten it, and what drops nothing changes nothing.
    have hsqueeze := length_squeeze_le false cs
    have htighten := foldr_tighten_sublist (Markup.squeeze false cs)
    have hdrop := dropSemicolons_sublist ((Markup.squeeze false cs).foldr tighten [])
    have hcs : dropSemicolons ((Markup.squeeze false cs).foldr tighten []) = cs := heq
    rw [hcs] at hdrop
    have hkept := htighten.eq_of_length_le (hsqueeze.trans hdrop.length_le)
    have hsame := hdrop.eq_of_length_le (htighten.length_le.trans hsqueeze)
    rw [hkept] at hsame hcs
    rw [← hsame] at hkept hcs
    obtain ⟨hspaces, hsingle, -⟩ := (squeeze_eq_self_iff false cs).1 hsame.symm
    exact ⟨hspaces, split.2 ⟨hsingle, (foldr_tighten_eq_self_iff cs).1 hkept, (dropSemicolons_eq_self_iff cs).1 hcs⟩⟩
  · rintro ⟨hspaces, hchain⟩
    obtain ⟨hsingle, hclear, hsemicolon⟩ := split.1 hchain
    have hsqueeze := (squeeze_eq_self_iff false cs).2 ⟨hspaces, hsingle, fun h => absurd h Bool.false_ne_true⟩
    rw [squash, hsqueeze, (foldr_tighten_eq_self_iff cs).2 hclear]
    exact (dropSemicolons_eq_self_iff cs).2 hsemicolon

/-- How a character is written inside quotation marks. -/
def quoteChar (c : Char) : List Char :=
  if c = '\x5c' then ['\x5c', '\x5c'] else if c = '\x22' then ['\x5c', '\x22'] else [c]

theorem quoteChar_cases (c : Char) :
    quoteChar c = [c] ∧ c ≠ '\x5c' ∧ c ≠ '\x22' ∨ quoteChar c = ['\x5c', c] ∧ (c = '\x5c' ∨ c = '\x22') := by
  rw [quoteChar]
  split
  · rename_i hc
    exact .inr ⟨by rw [hc], .inl hc⟩
  · split
    · rename_i hc
      exact .inr ⟨by rw [hc], .inr hc⟩
    · rename_i hslash hquote
      exact .inl ⟨rfl, hslash, hquote⟩

theorem toList_escapeSelector (s : String) : (escapeSelector s).toList = s.toList.flatMap quoteChar := by
  have hslash : "\\".toList = ['\x5c'] := rfl
  have hslashes : "\\\\".toList = ['\x5c', '\x5c'] := rfl
  have hquote : "\"".toList = ['\x22'] := rfl
  have hquotes : "\\\"".toList = ['\x5c', '\x22'] := rfl
  have hchar (c : Char) : (if c = '\x5c' then ['\x5c', '\x5c'] else [c]).flatMap
      (fun d => if d = '\x22' then ['\x5c', '\x22'] else [d]) = quoteChar c := by
    rw [quoteChar]
    split
    · rfl
    · rw [List.flatMap_singleton]
  rw [escapeSelector, Text.toList_replace, Text.toList_replace, hslash, hslashes, hquote, hquotes,
    Text.replaceList_singleton, Text.replaceList_singleton, List.flatMap_assoc]
  simp only [hchar]

/-- What stands before the identifier in a selector. -/
def selectorStart : String := "[data-component-id=\""

theorem toList_componentSelector (c : ComponentData) :
    (componentSelector c).toList = selectorStart.toList ++ (c.id.toList.flatMap quoteChar ++ ['\x22', ']']) := by
  have hclose : "\"]".toList = ['\x22', ']'] := rfl
  unfold componentSelector selectorStart
  rw [String.toList_append, String.toList_append, toList_escapeSelector, hclose, List.append_assoc]

theorem exists_toList_componentSelector (c : ComponentData) :
    ∃ inside, (componentSelector c).toList = '[' :: inside := by
  rw [toList_componentSelector]
  exact ⟨_, rfl⟩

/-- An identifier as compaction leaves it. -/
def settled (id : String) : String := String.ofList (squash id.toList)

/-- Compaction treats a text in quotation marks as it would treat the text alone. -/
theorem squash_flatMap_quoteChar (cs : List Char) : squash (cs.flatMap quoteChar) = (squash cs).flatMap quoteChar := by
  have keep {l : List Char} (h : ∀ c ∈ l, c ≠ '\x5c' ∧ c ≠ '\x22') : (squash l).flatMap quoteChar = squash l := by
    have hplain : ∀ c ∈ squash l, quoteChar c = [c] := by
      intro c hc
      have hne : c ≠ '\x5c' ∧ c ≠ '\x22' := by
        obtain hc | rfl := mem_of_mem_squash hc
        · exact h c hc
        · decide
      rw [quoteChar, if_neg hne.1, if_neg hne.2]
    rw [List.flatMap_def, List.map_congr_left hplain, ← List.flatMap_def, List.flatMap_singleton']
  -- The plain characters since the last mark are squashed together with what comes next.
  have general (plain : List Char) (hplain : ∀ c ∈ plain, c ≠ '\x5c' ∧ c ≠ '\x22') :
      squash (plain ++ cs.flatMap quoteChar) = (squash (plain ++ cs)).flatMap quoteChar := by
    induction cs generalizing plain with
    | nil => rw [List.flatMap_nil, List.append_nil, keep hplain]
    | cons c cs ih =>
      rw [List.flatMap_cons]
      obtain ⟨hc, hslash, hquote⟩ | ⟨hc, hmark⟩ := quoteChar_cases c
      · rw [hc, List.singleton_append, List.append_cons, ih, ← List.append_cons]
        simp only [List.forall_mem_append, List.forall_mem_singleton]
        exact ⟨hplain, hslash, hquote⟩
      · have hordinary : IsOrdinary c := by
          obtain rfl | rfl := hmark <;> decide
        have hrest := ih [] (List.forall_mem_nil _)
        rw [List.nil_append, List.nil_append] at hrest
        rw [hc, List.cons_append, List.singleton_append, squash_append (by decide), squash_cons hordinary, hrest,
          squash_append hordinary, List.flatMap_append, List.flatMap_cons, hc, keep hplain]
        rfl
  exact general [] (List.forall_mem_nil _)

/-- Wherever a selector stands, compaction leaves the selector of the settled identifier in its place. -/
theorem squash_selector (c : ComponentData) (before after : List Char) :
    squash (before ++ ((componentSelector c).toList ++ after)) =
      squash before ++ ((componentSelector { c with id := settled c.id }).toList ++ squash after) := by
  have hstart : ∀ d ∈ selectorStart.toList.tail, IsOrdinary d := Text.forall_mem_of_all (by decide)
  have hbracket : selectorStart.toList = '[' :: selectorStart.toList.tail := rfl
  have hid (after : List Char) : squash (c.id.toList.flatMap quoteChar ++ '\x22' :: ']' :: after) =
      (squash c.id.toList).flatMap quoteChar ++ '\x22' :: ']' :: squash after := by
    rw [squash_append (by decide), squash_cons (by decide), squash_flatMap_quoteChar]
  rw [toList_componentSelector, toList_componentSelector, settled, String.toList_ofList, hbracket]
  simp only [List.cons_append, List.append_assoc, List.nil_append]
  rw [squash_append (by decide), squash_ordinary hstart, hid]

def endsLine (c : Char) : Bool := c == '\n' || c == '\r' || c == '\x0c'

/-- A text from after its opening quotation mark on, and what comes after the closing one. Escapes by number and lines
that go on are not read. -/
def readString? : List Char → Option (List Char × List Char)
  | [] => none
  | '\x22' :: rest => some ([], rest)
  | '\x5c' :: c :: rest =>
    if endsLine c || (Text.hexValue? c).isSome then none
    else (readString? rest).map fun (text, after) => (Text.shownChar c :: text, after)
  | c :: rest =>
    if endsLine c then none else (readString? rest).map fun (text, after) => (Text.shownChar c :: text, after)

/-- The identifier in the selector at the start of a text, and what comes after the selector. -/
def readSelector? (cs : List Char) : Option (List Char × List Char) :=
  if selectorStart.toList.isPrefixOf cs then
    match readString? (cs.drop selectorStart.length) with
    | some (id, ']' :: after) => some (id, after)
    | _ => none
  else none

theorem readString?_plain {c : Char} (hquote : c ≠ '\x22') (hslash : c ≠ '\x5c') (hline : endsLine c = false)
    (rest : List Char) :
    readString? (c :: rest) = (readString? rest).map fun (text, after) => (Text.shownChar c :: text, after) := by
  rw [readString?, hline, if_neg Bool.false_ne_true]
  · exact hquote
  · exact fun _ _ hc => absurd hc hslash

theorem readString?_flatMap_quoteChar {text : List Char} (h : ∀ c ∈ text, endsLine c = false) (rest : List Char) :
    readString? (text.flatMap quoteChar ++ '\x22' :: rest) = some (text.map Text.shownChar, rest) := by
  induction text with
  | nil => rfl
  | cons c text ih =>
    obtain ⟨hline, htext⟩ := List.forall_mem_cons.1 h
    rw [List.flatMap_cons, List.append_assoc]
    obtain ⟨hc, hslash, hquote⟩ | ⟨hc, hmark⟩ := quoteChar_cases c
    · rw [hc, List.singleton_append, readString?_plain hquote hslash hline, ih htext]
      rfl
    · have hread : (endsLine c || (Text.hexValue? c).isSome) = false := by
        obtain rfl | rfl := hmark <;> decide
      rw [hc, List.cons_append, List.singleton_append, readString?, hread, if_neg Bool.false_ne_true, ih htext]
      rfl

theorem readSelector?_componentSelector {c : ComponentData} (h : ∀ d ∈ c.id.toList, endsLine d = false)
    (rest : List Char) :
    readSelector? ((componentSelector c).toList ++ rest) = some (c.id.toList.map Text.shownChar, rest) := by
  have hlength : selectorStart.length = selectorStart.toList.length := rfl
  rw [toList_componentSelector, readSelector?, List.append_assoc, if_pos (by simp), hlength, List.drop_left,
    List.append_assoc, List.cons_append, readString?_flatMap_quoteChar h]
  rfl

end ConsentBanner.Stylesheet
