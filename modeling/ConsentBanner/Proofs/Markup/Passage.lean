import ConsentBanner.Proofs.Markup.Collapse

/-!
Collapsed markup piece by piece. A passage is a row of texts with tags between them, and a tag is a row of bare texts
with quoted values between them; collapsing keeps both rows and changes nothing but white space.
-/

namespace ConsentBanner.Markup

/-- Pieces of one kind in a row, with a piece of another kind between every two. -/
inductive Row (α β : Type) where
  | last (piece : α)
  | more (piece : α) (between : β) (rest : Row α β)

namespace Row

variable {α β : Type}

def write (f : α → List Char) (g : β → List Char) : Row α β → List Char
  | last piece => f piece
  | more piece between rest => f piece ++ (g between ++ rest.write f g)

def map (h : α → α) : Row α β → Row α β
  | last piece => last (h piece)
  | more piece between rest => more (h piece) between (rest.map h)

def mapFirst (h : α → α) : Row α β → Row α β
  | last piece => last (h piece)
  | more piece between rest => more (h piece) between rest

def mapLast (h : α → α) : Row α β → Row α β
  | last piece => last (h piece)
  | more piece between rest => more piece between (rest.mapLast h)

end Row

/-- Text of a tag outside of quotes. -/
abbrev Bare := { text : List Char // ∀ c ∈ text, IsSafe c }

/-- A value between two quotes of one kind. -/
structure Quoted where
  mark : Char
  value : List Char
  isMark : mark = '\x22' ∨ mark = '\x27'
  safe : ∀ c ∈ value, IsSafe c

def Quoted.write (q : Quoted) : List Char := q.mark :: (q.value ++ [q.mark])

/-- A tag, between its brackets. -/
abbrev Tag := Row Bare Quoted

/-- What a tag says between its brackets. -/
def Tag.inside (t : Tag) : List Char := t.write (·.1) Quoted.write

def Tag.write (t : Tag) : List Char := '<' :: (t.inside ++ ['>'])

/-- Text between tags. -/
abbrev PlainText := { text : List Char // ∀ c ∈ text, c ≠ '<' ∧ c ≠ '>' }

/-- Texts, empty ones among them, and the tags between them. -/
abbrev Passage := Row PlainText Tag

def Passage.write (p : Passage) : List Char := Row.write (·.1) Tag.write p

def Passage.render (p : Passage) : String := String.ofList p.write

/-- Every run of white space in a bare text has become one space, or nothing where the text begins the tag with it, or
where it ends the tag with it or with it and a slash. -/
inductive Spaced (last : Bool) : (first : Bool) → List Char → List Char → Prop
  | nil {first : Bool} : Spaced last first [] []
  | char {first : Bool} {c : Char} {text spaced : List Char} (hc : Text.isBlank c = false)
      (hrest : Spaced last false text spaced) : Spaced last first (c :: text) (c :: spaced)
  | run {first : Bool} {run text spaced : List Char} (hne : run ≠ []) (hrun : ∀ c ∈ run, Text.isBlank c = true)
      (hend : ∀ c ∈ text.head?, Text.isBlank c = false) (hrest : Spaced last false text spaced) :
      Spaced last first (run ++ text)
        ((if first = true ∨ (last = true ∧ (text = [] ∨ text = ['/'])) then [] else [' ']) ++ spaced)

/-- The bare texts of a tag are spaced; its values are what they were. -/
inductive Tidied (last : Bool) : (first : Bool) → Tag → Tag → Prop
  | last {first : Bool} {bare tidy : Bare} (h : Spaced last first bare.1 tidy.1) :
      Tidied last first (.last bare) (.last tidy)
  | more {first : Bool} {bare tidy : Bare} {rest rest' : Tag} (h : Spaced false first bare.1 tidy.1) (value : Quoted)
      (hrest : Tidied last false rest rest') : Tidied last first (.more bare value rest) (.more tidy value rest')

/-- A text that is not blank stays, and a blank one goes. -/
def PlainText.kept (s : PlainText) : PlainText :=
  if s.1.all Text.isBlank then ⟨[], List.forall_mem_nil _⟩ else s

/-- The tags of a passage are tidied; its blank texts are gone, and the others what they were. -/
inductive Settled : Passage → Passage → Prop
  | last (s : PlainText) : Settled (.last s) (.last s.kept)
  | more (s : PlainText) {t t' : Tag} {rest rest' : Passage} (htag : Tidied true true t t')
      (hrest : Settled rest rest') : Settled (.more s t rest) (.more s.kept t' rest')

section Parts

variable {closing : Char → Option Char} {f : Part → List Char}

/-- Text between a character and the one that closes it. -/
def IsStretch (closing : Char → Option Char) (cs : List Char) : Prop :=
  ∃ c close body, closing c = some close ∧ close ∉ body ∧ cs = c :: (body ++ [close])

theorem flatMap_parts_more (hempty : f (.outer []) = []) {text stretch : List Char} (h : ∀ c ∈ text, closing c = none)
    (hs : IsStretch closing stretch) (rest : List Char) :
    (parts closing (text ++ (stretch ++ rest))).flatMap f =
      f (.outer text) ++ (f (.inner stretch) ++ (parts closing rest).flatMap f) := by
  obtain ⟨c, close, body, hc, hbody, rfl⟩ := hs
  have hstretch : parts closing (c :: (body ++ [close]) ++ rest) =
      .inner (c :: (body ++ [close])) :: parts closing rest := by
    rw [List.cons_append, List.append_assoc, List.singleton_append, parts_cons_inner hc hbody]
  have hfront : ∀ text ps, parts closing (c :: (body ++ [close]) ++ rest) ≠ .outer text :: ps := by
    rw [hstretch]
    nofun
  rw [flatMap_parts_outer hempty h hfront, hstretch, List.flatMap_cons]

end Parts

theorem Bare.quoteClosing (b : Bare) : ∀ c ∈ b.1, quoteClosing c = none := by
  intro c hc
  obtain ⟨-, -, hd, hs⟩ := b.2 c hc
  simp [Markup.quoteClosing, hd, hs]

theorem Quoted.isStretch (q : Quoted) : IsStretch Markup.quoteClosing q.write := by
  refine ⟨q.mark, q.mark, q.value, ?_, fun hm => ?_, rfl⟩
  · rcases q.isMark with h | h
    · rw [h]
      rfl
    · rw [h]
      rfl
  · obtain ⟨-, -, hd, hs⟩ := q.safe _ hm
    exact q.isMark.elim hd hs

namespace Spaced

variable {first last : Bool} {text spaced : List Char}

theorem safe (h : Spaced last first text spaced) (hsafe : ∀ c ∈ text, IsSafe c) : ∀ c ∈ spaced, IsSafe c := by
  induction h with
  | nil => exact hsafe
  | char hc hrest ih =>
    rw [List.forall_mem_cons] at hsafe ⊢
    exact ⟨hsafe.1, ih hsafe.2⟩
  | run hne hrun hend hrest ih =>
    rw [List.forall_mem_append] at hsafe ⊢
    refine ⟨fun c hc => ?_, ih hsafe.2⟩
    split at hc
    · cases hc
    · rw [List.mem_singleton.1 hc]
      exact ⟨by decide, by decide, by decide, by decide⟩

/-- The second half is about a text that follows a blank, with which its own first run of white space goes. -/
theorem squeeze_both (text : List Char) :
    Spaced false false text (Markup.squeeze false text) ∧
      ∃ run rest, text = run ++ rest ∧ (∀ c ∈ run, Text.isBlank c = true) ∧
        (∀ c ∈ rest.head?, Text.isBlank c = false) ∧ Spaced false false rest (Markup.squeeze true text) := by
  induction text with
  | nil => exact ⟨.nil, [], [], rfl, List.forall_mem_nil _, by simp, .nil⟩
  | cons c text ih =>
    obtain ⟨hfalse, run, rest, htext, hrun, hend, htrue⟩ := ih
    cases hc : Text.isBlank c with
    | false =>
      have hchar (afterBlank : Bool) : Markup.squeeze afterBlank (c :: text) = c :: Markup.squeeze false text := by
        rw [Markup.squeeze, hc, if_neg Bool.false_ne_true]
      rw [hchar, hchar]
      refine ⟨.char hc hfalse, [], c :: text, rfl, List.forall_mem_nil _, ?_, .char hc hfalse⟩
      rintro d ⟨⟩
      exact hc
    | true =>
      have hall : ∀ d ∈ c :: run, Text.isBlank d = true := List.forall_mem_cons.2 ⟨hc, hrun⟩
      rw [Markup.squeeze, hc, if_pos rfl, if_neg Bool.false_ne_true, Markup.squeeze, hc, if_pos rfl, if_pos rfl]
      refine ⟨?_, c :: run, rest, by rw [htext, List.cons_append], hall, hend, htrue⟩
      have hspaced : Spaced false false _ _ := .run (List.cons_ne_nil c run) hall hend htrue
      rw [htext]
      rw [htext] at hspaced
      exact hspaced

theorem squeeze (text : List Char) : Spaced false false text (Markup.squeeze false text) := (squeeze_both text).1

end Spaced

/-- A text without the space that it begins with. -/
def dropGap : List Char → List Char
  | ' ' :: rest => rest
  | text => text

/-- A text without the space that it ends with, or that stands before the slash that it ends with. -/
def dropEndGap : List Char → List Char
  | [] => []
  | [' '] => []
  | [' ', '/'] => ['/']
  | c :: rest => c :: dropEndGap rest

theorem dropGap_of_ne {c : Char} (h : c ≠ ' ') (rest : List Char) : dropGap (c :: rest) = c :: rest := by
  unfold dropGap
  split
  · rename_i heq
    cases heq
    exact (h rfl).elim
  · rfl

theorem dropEndGap_of_ne {c : Char} (h : c ≠ ' ') (rest : List Char) :
    dropEndGap (c :: rest) = c :: dropEndGap rest := by
  rw [dropEndGap]
  · rintro rfl
    exact (h rfl).elim
  · rintro rfl
    exact (h rfl).elim

theorem ne_space_of_not_blank {c : Char} (h : Text.isBlank c = false) : c ≠ ' ' := by
  rintro rfl
  cases h

namespace Spaced

variable {first last : Bool} {text spaced : List Char}

theorem dropGap_eq (h : Spaced last first text spaced) (hend : ∀ c ∈ text.head?, Text.isBlank c = false) :
    Markup.dropGap spaced = spaced := by
  cases h with
  | nil => rfl
  | char hc hrest => exact dropGap_of_ne (ne_space_of_not_blank hc) _
  | @run _ run _ _ hne hrun _ _ =>
    obtain ⟨c, run, rfl⟩ := List.exists_cons_of_ne_nil hne
    have hblank := hrun c List.mem_cons_self
    rw [hend c rfl] at hblank
    cases hblank

theorem dropGap (h : Spaced last false text spaced) : Spaced last true text (Markup.dropGap spaced) := by
  cases h with
  | nil => exact .nil
  | char hc hrest =>
    rw [dropGap_of_ne (ne_space_of_not_blank hc)]
    exact .char hc hrest
  | @run _ run text spaced hne hrun hend hrest =>
    have hfirst : Spaced last true _ _ := .run hne hrun hend hrest
    rw [if_pos (.inl rfl), List.nil_append] at hfirst
    split
    · rw [List.nil_append, hrest.dropGap_eq hend]
      exact hfirst
    · exact hfirst

/-- Inside a tag no run of white space goes as a whole. -/
theorem eq_nil_iff (h : Spaced false false text spaced) : text = [] ↔ spaced = [] := by
  cases h with
  | nil => exact Iff.rfl
  | char hc hrest => exact iff_of_false (List.cons_ne_nil _ _) (List.cons_ne_nil _ _)
  | run hne hrun hend hrest =>
    rw [if_neg (by simp)]
    exact iff_of_false (List.append_ne_nil_of_left_ne_nil hne _) (List.cons_ne_nil _ _)

theorem eq_slash_iff (h : Spaced false false text spaced) (hend : ∀ c ∈ text.head?, Text.isBlank c = false) :
    text = ['/'] ↔ spaced = ['/'] := by
  cases h with
  | nil => exact Iff.rfl
  | char hc hrest => rw [List.cons.injEq, List.cons.injEq, hrest.eq_nil_iff]
  | run hne hrun _ hrest =>
    obtain ⟨c, run, rfl⟩ := List.exists_cons_of_ne_nil hne
    have hblank := hrun c List.mem_cons_self
    rw [hend c rfl] at hblank
    cases hblank

theorem dropEndGap (h : Spaced false first text spaced) : Spaced true first text (Markup.dropEndGap spaced) := by
  induction h with
  | nil => exact .nil
  | char hc hrest ih =>
    rw [dropEndGap_of_ne (ne_space_of_not_blank hc)]
    exact .char hc ih
  | @run first run text spaced hne hrun hend hrest ih =>
    have hrun' : Spaced true first _ _ := .run hne hrun hend ih
    cases first with
    | true =>
      rw [if_pos (.inl rfl)] at hrun' ⊢
      exact hrun'
    | false =>
      rw [if_neg (by simp), List.singleton_append]
      by_cases hnil : text = []
      · rw [if_pos (.inr ⟨rfl, .inl hnil⟩)] at hrun'
        rw [hrest.eq_nil_iff.1 hnil] at hrun' ⊢
        exact hrun'
      · by_cases hslash : text = ['/']
        · rw [if_pos (.inr ⟨rfl, .inr hslash⟩)] at hrun'
          rw [(hrest.eq_slash_iff hend).1 hslash] at hrun' ⊢
          exact hrun'
        · rw [if_neg (by simp [hnil, hslash])] at hrun'
          have hgap : Markup.dropEndGap (' ' :: spaced) = ' ' :: Markup.dropEndGap spaced := by
            rw [Markup.dropEndGap]
            · intro _ he
              exact hnil (hrest.eq_nil_iff.2 he)
            · intro _ he
              exact hslash ((hrest.eq_slash_iff hend).2 he)
          rw [hgap]
          exact hrun'

end Spaced

section Ends

theorem dropGap_sublist (text : List Char) : (dropGap text).Sublist text := by
  unfold dropGap
  split
  · exact List.sublist_cons_self _ _
  · exact List.Sublist.refl _

theorem dropEndGap_sublist (text : List Char) : (dropEndGap text).Sublist text := by
  fun_induction dropEndGap text with
  | case1 => exact List.Sublist.refl _
  | case2 => exact List.nil_sublist _
  | case3 => exact List.sublist_cons_self _ _
  | case4 c rest _ _ ih => exact ih.cons_cons c

theorem dropEndGap_append {d : Char} (hspace : d ≠ ' ') (hslash : d ≠ '/') (text rest : List Char) :
    dropEndGap (text ++ d :: rest) = text ++ d :: dropEndGap rest := by
  induction text with
  | nil => exact dropEndGap_of_ne hspace rest
  | cons c text ih =>
    have hnil : text ++ d :: rest ≠ [] := List.append_ne_nil_of_right_ne_nil _ (List.cons_ne_nil _ _)
    have hne : text ++ d :: rest ≠ ['/'] := by
      intro h
      have hm : d ∈ text ++ d :: rest := List.mem_append_right _ List.mem_cons_self
      rw [h, List.mem_singleton] at hm
      exact hslash hm
    rw [List.cons_append, dropEndGap, ih, List.cons_append]
    · exact fun _ => hnil
    · exact fun _ => hne

theorem dropEndGap_gap (text : List Char) : dropEndGap (text ++ [' ']) = text := by
  induction text with
  | nil => rfl
  | cons c text ih =>
    rw [List.cons_append, dropEndGap, ih]
    · simp
    · cases text <;> simp

theorem dropEndGap_slash (text : List Char) : dropEndGap (text ++ [' ', '/']) = text ++ ['/'] := by
  induction text with
  | nil => rfl
  | cons c text ih =>
    rw [List.cons_append, dropEndGap, ih, List.cons_append]
    · simp
    · cases text <;> simp

theorem dropEndGap_eq_self {text : List Char} (hgap : ∀ body, text ≠ body ++ [' '])
    (hslash : ∀ body, text ≠ body ++ [' ', '/']) : dropEndGap text = text := by
  fun_induction dropEndGap text with
  | case1 => rfl
  | case2 => exact (hgap [] rfl).elim
  | case3 => exact (hslash [] rfl).elim
  | case4 c rest _ _ ih =>
    rw [ih (fun body h => hgap (c :: body) (by rw [h]; rfl)) fun body h => hslash (c :: body) (by rw [h]; rfl)]

theorem tightenEnd_concat (text : List Char) : tightenEnd (text ++ ['>']) = dropEndGap text ++ ['>'] := by
  have hreverse : (text ++ ['>']).reverse = '>' :: text.reverse := List.reverse_concat
  unfold tightenEnd
  rw [hreverse]
  split
  · rename_i body h
    rw [List.cons.injEq, List.reverse_eq_iff] at h
    rw [h.2]
    simp [dropEndGap_slash]
  · rename_i body h
    rw [List.cons.injEq, List.reverse_eq_iff] at h
    rw [h.2, List.reverse_cons, dropEndGap_gap]
  · rename_i hslash hgap
    rw [dropEndGap_eq_self]
    · rintro body rfl
      exact hgap body.reverse (by simp)
    · rintro body rfl
      exact hslash body.reverse (by simp)

end Ends

def Bare.squeezed (b : Bare) : Bare := ⟨squeeze false b.1, (Spaced.squeeze b.1).safe b.2⟩

def Bare.dropGap (b : Bare) : Bare := ⟨Markup.dropGap b.1, fun c hc => b.2 c ((dropGap_sublist b.1).subset hc)⟩

def Bare.dropEndGap (b : Bare) : Bare :=
  ⟨Markup.dropEndGap b.1, fun c hc => b.2 c ((dropEndGap_sublist b.1).subset hc)⟩

namespace Tidied

variable {first last : Bool} {t t' : Tag}

theorem squeezed (t : Tag) : Tidied false false t (t.map Bare.squeezed) := by
  induction t with
  | last bare => exact .last (.squeeze bare.1)
  | more bare value rest ih => exact .more (.squeeze bare.1) value ih

theorem dropGap (h : Tidied last false t t') : Tidied last true t (t'.mapFirst Bare.dropGap) := by
  cases h with
  | last h => exact .last h.dropGap
  | more h value hrest => exact .more h.dropGap value hrest

theorem dropEndGap (h : Tidied false first t t') : Tidied true first t (t'.mapLast Bare.dropEndGap) := by
  induction h with
  | last h => exact .last h.dropEndGap
  | more h value hrest ih => exact .more h value ih

end Tidied

section Brackets

theorem flatMap_consOuter {c : Char} (hc : Text.isBlank c = false) (ps : List Part) :
    (consOuter c ps).flatMap squeezePart = c :: ps.flatMap squeezePart := by
  cases ps with
  | nil => simp [consOuter, squeezePart, squeeze, hc]
  | cons p ps =>
    cases p with
    | outer text => simp [consOuter, squeezePart, squeeze, hc]
    | inner text => simp [consOuter, squeezePart, squeeze, hc]

theorem squeezeTag_bracket (cs : List Char) : squeezeTag ('<' :: cs) = '<' :: squeezeTag cs := by
  rw [squeezeTag, parts_cons_outer (by decide), flatMap_consOuter (by decide), squeezeTag]

theorem squeeze_bracket (afterBlank : Bool) (text : List Char) :
    squeeze afterBlank (text ++ ['>']) = squeeze afterBlank text ++ ['>'] := by
  have hclose : Text.isBlank '>' = false := by decide
  induction text generalizing afterBlank with
  | nil => simp [squeeze, hclose]
  | cons c text ih =>
    rw [List.cons_append, squeeze, squeeze, ih, ih]
    split
    · split
      · rfl
      · rfl
    · rfl

theorem tightenStart_bracket (cs : List Char) : tightenStart ('<' :: cs) = '<' :: dropGap cs := by
  unfold tightenStart dropGap
  split
  · rename_i heq
    cases heq
    rfl
  · rename_i hne
    split
    · exact (hne _ rfl).elim
    · rfl

theorem dropGap_append {rest : List Char} (h : ∀ c ∈ rest.head?, c ≠ ' ') (text : List Char) :
    dropGap (text ++ rest) = dropGap text ++ rest := by
  cases text with
  | nil =>
    cases rest with
    | nil => rfl
    | cons c rest => exact dropGap_of_ne (h c rfl) rest
  | cons c text =>
    by_cases hc : c = ' '
    · rw [hc]
      rfl
    · rw [List.cons_append, dropGap_of_ne hc, dropGap_of_ne hc, List.cons_append]

end Brackets

theorem Quoted.mark_ne (q : Quoted) : q.mark ≠ ' ' ∧ q.mark ≠ '/' := by
  rcases q.isMark with h | h
  · rw [h]
    decide
  · rw [h]
    decide

namespace Tag

theorem inside_last (b : Bare) : Tag.inside (.last b) = b.1 := rfl

theorem inside_more (b : Bare) (q : Quoted) (rest : Tag) :
    Tag.inside (.more b q rest) = b.1 ++ (q.write ++ Tag.inside rest) := rfl

theorem squeezeTag_inside (t : Tag) :
    squeezeTag (t.inside ++ ['>']) = Tag.inside (t.map Bare.squeezed) ++ ['>'] := by
  induction t with
  | last b =>
    have houter : ∀ c ∈ b.1 ++ ['>'], Markup.quoteClosing c = none := by
      rw [List.forall_mem_append]
      exact ⟨b.quoteClosing, List.forall_mem_singleton.2 rfl⟩
    rw [inside_last, squeezeTag, flatMap_parts_last rfl houter, squeezePart, squeeze_bracket]
    rfl
  | more b q rest ih =>
    rw [inside_more, List.append_assoc, List.append_assoc, squeezeTag,
      flatMap_parts_more rfl b.quoteClosing q.isStretch, ← squeezeTag, ih, Row.map, inside_more]
    simp only [List.append_assoc]
    rfl

theorem tightenStart_inside (t : Tag) :
    tightenStart ('<' :: (t.inside ++ ['>'])) = '<' :: (Tag.inside (t.mapFirst Bare.dropGap) ++ ['>']) := by
  rw [tightenStart_bracket]
  cases t with
  | last b =>
    rw [inside_last, dropGap_append (by simp)]
    rfl
  | more b q rest =>
    have hmark : ∀ c ∈ (q.write ++ Tag.inside rest ++ ['>']).head?, c ≠ ' ' := by
      rintro c ⟨⟩
      exact q.mark_ne.1
    rw [inside_more, List.append_assoc, dropGap_append hmark, ← List.append_assoc]
    rfl

theorem dropEndGap_inside (t : Tag) : Markup.dropEndGap t.inside = Tag.inside (t.mapLast Bare.dropEndGap) := by
  induction t with
  | last b => rfl
  | more b q rest ih =>
    have hquoted : b.1 ++ (q.write ++ Tag.inside rest) = b.1 ++ q.mark :: q.value ++ q.mark :: Tag.inside rest := by
      simp [Quoted.write]
    rw [inside_more, hquoted, dropEndGap_append q.mark_ne.1 q.mark_ne.2, ih, Row.mapLast, inside_more]
    simp [Quoted.write]

theorem tightenEnd_inside (t : Tag) :
    tightenEnd ('<' :: (t.inside ++ ['>'])) = '<' :: (Tag.inside (t.mapLast Bare.dropEndGap) ++ ['>']) := by
  rw [← List.cons_append, tightenEnd_concat, dropEndGap_of_ne (by decide), dropEndGap_inside, List.cons_append]

/-- A collapsed tag is a tag again, with the same values and with single spaces. -/
theorem collapseTag_write (t : Tag) : ∃ t', Tidied true true t t' ∧ collapseTag t.write = Tag.write t' := by
  refine ⟨_, (Tidied.squeezed t).dropGap.dropEndGap, ?_⟩
  rw [collapseTag, ← squeezeTag, write, squeezeTag_bracket, squeezeTag_inside, tightenStart_inside, tightenEnd_inside]
  rfl

theorem mem_inside (t : Tag) : ∀ c ∈ t.inside, c ≠ '<' ∧ c ≠ '>' := by
  have hvalue (q : Quoted) : ∀ c ∈ q.write, c ≠ '<' ∧ c ≠ '>' := by
    have hmark : q.mark ≠ '<' ∧ q.mark ≠ '>' := by
      rcases q.isMark with h | h
      · rw [h]
        decide
      · rw [h]
        decide
    intro c hc
    rw [Quoted.write, List.mem_cons, List.mem_append, List.mem_singleton] at hc
    obtain rfl | hc | rfl := hc
    · exact hmark
    · exact ⟨(q.safe c hc).1, (q.safe c hc).2.1⟩
    · exact hmark
  induction t with
  | last b => exact fun c hc => ⟨(b.2 c hc).1, (b.2 c hc).2.1⟩
  | more b q rest ih =>
    rw [inside_more, List.forall_mem_append, List.forall_mem_append]
    exact ⟨fun c hc => ⟨(b.2 c hc).1, (b.2 c hc).2.1⟩, hvalue q, ih⟩

theorem isStretch (t : Tag) : IsStretch tagClosing t.write :=
  ⟨'<', '>', t.inside, rfl, fun hm => (t.mem_inside _ hm).2 rfl, rfl⟩

end Tag

namespace PlainText

theorem tagClosing (s : PlainText) : ∀ c ∈ s.1, tagClosing c = none := by
  intro c hc
  simp [Markup.tagClosing, (s.2 c hc).1]

theorem collapsePart_outer (s : PlainText) : collapsePart (.outer s.1) = s.kept.1 := by
  have htext : collapsePart (.outer s.1) = if s.1.all Text.isBlank then [] else s.1 := by
    rw [collapsePart]
    intro rest h
    exact (s.2 '<' (h ▸ List.mem_cons_self)).1 rfl
  rw [htext, kept]
  split
  · rfl
  · rfl

end PlainText

namespace Passage

theorem flatMap_collapsePart (p : Passage) :
    ∃ p', Settled p p' ∧ (parts tagClosing p.write).flatMap collapsePart = Passage.write p' := by
  induction p with
  | last s =>
    refine ⟨_, .last s, ?_⟩
    exact (flatMap_parts_last rfl s.tagClosing).trans s.collapsePart_outer
  | more s t rest ih =>
    obtain ⟨rest', hrest, hwrite⟩ := ih
    obtain ⟨t', ht, htag⟩ := t.collapseTag_write
    refine ⟨_, .more s ht hrest, ?_⟩
    have hparts := flatMap_parts_more (f := collapsePart) rfl s.tagClosing t.isStretch (Passage.write rest)
    rw [hwrite, s.collapsePart_outer, collapsePart, htag] at hparts
    exact hparts

/-- Collapsed markup has the tags of what was collapsed, in their order. In a tag every quoted value is as it was, and every
run of white space outside of quotes is one space, or nothing next to a bracket or before the slash that ends the tag. Of
the texts between tags the blank ones are gone and the others as they were, but for white space at the ends of the whole. -/
theorem collapse_render (p : Passage) : ∃ p', Settled p p' ∧ collapse p.render = Text.trim (Passage.render p') := by
  obtain ⟨p', hsettled, hwrite⟩ := flatMap_collapsePart p
  refine ⟨p', hsettled, ?_⟩
  rw [collapse, Text.trim, collapseList, render, render, String.toList_ofList, String.toList_ofList, hwrite]

/-- The space within quotes and the one before a letter stay. -/
example : collapse "<p  class=\"a  b\" >\n <b > x</b></p> " = "<p class=\"a  b\"><b> x</b></p>" := by decide +kernel

end Passage

end ConsentBanner.Markup
