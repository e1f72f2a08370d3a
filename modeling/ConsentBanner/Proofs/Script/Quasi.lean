import ConsentBanner.Proofs.Script.Reading

/-!
Where a template literal ends. Its units are single characters and the pairs of a backslash with the character it
takes; the first backtick that no backslash takes closes it.
-/

namespace ConsentBanner.Script

/-- A unit of what stands between backticks. -/
inductive Quasi where
  | bare (c : Char)
  /-- A character that a backslash takes. -/
  | taken (c : Char)
deriving DecidableEq, Repr

namespace Quasi

def char : Quasi → Char
  | bare c => c
  | taken c => c

def text : Quasi → List Char
  | bare c => [c]
  | taken c => ['\x5c', c]

/-- A unit that is scanned as itself. -/
def IsWhole : Quasi → Prop
  | bare c => c ≠ '\x60' ∧ c ≠ '\x5c'
  | taken _ => True

end Quasi

/-- The units up to the closing backtick and the text after it; nothing when no backtick closes. -/
def quasis? : List Char → Option (List Quasi × List Char)
  | [] => none
  | '\x60' :: rest => some ([], rest)
  | '\x5c' :: c :: rest => (quasis? rest).map fun (units, after) => (.taken c :: units, after)
  | c :: rest => (quasis? rest).map fun (units, after) => (.bare c :: units, after)

/-- The units of the template literal at the start of a text, and the text after it. -/
def scanTemplate? : List Char → Option (List Quasi × List Char)
  | '\x60' :: rest => quasis? rest
  | _ => none

/-- Units among which an interpolation begins. -/
def OpensInterpolation (units : List Quasi) : Prop := [.bare '$', .bare '\x7b'] <:+: units

theorem quasis?_bare {c : Char} (h : (Quasi.bare c).IsWhole) (rest : List Char) :
    quasis? (c :: rest) = (quasis? rest).map fun (units, after) => (.bare c :: units, after) := by
  rw [quasis?]
  · exact h.1
  · exact fun _ _ hc => absurd hc h.2

/-- Whole units are found again, and the backtick after them closes. -/
theorem quasis?_flatMap_text {units : List Quasi} (h : ∀ q ∈ units, q.IsWhole) (rest : List Char) :
    quasis? (units.flatMap Quasi.text ++ '\x60' :: rest) = some (units, rest) := by
  induction units with
  | nil => rfl
  | cons q units ih =>
    have ih := ih fun q hq => h q (.tail _ hq)
    cases q with
    | bare c =>
      have hc := h _ (.head _)
      rw [List.flatMap_cons, Quasi.text, List.append_assoc, List.singleton_append, quasis?_bare hc, ih]
      rfl
    | taken c =>
      rw [List.flatMap_cons, Quasi.text, List.append_assoc, List.cons_append, List.singleton_append, quasis?, ih]
      rfl

/-- How a text is spelled, by units that each stand for one of its characters. -/
structure Units (text out : List Char) (units : List Quasi) : Prop where
  text_eq : units.flatMap Quasi.text = out
  char_eq : units.map Quasi.char = text
  whole : ∀ q ∈ units, q.IsWhole
  closed : ¬ OpensInterpolation units

namespace Units

variable {text out : List Char} {units : List Quasi} {c : Char}

theorem nil : Units [] [] [] := by
  refine ⟨rfl, rfl, List.forall_mem_nil _, ?_⟩
  intro h
  cases List.infix_nil.1 h

theorem bare (h : Units text out units) (htick : c ≠ '\x60') (hslash : c ≠ '\x5c')
    (hdollar : c = '$' → out.head? ≠ some '\x7b') : Units (c :: text) (c :: out) (.bare c :: units) := by
  refine ⟨congrArg (c :: ·) h.text_eq, congrArg (c :: ·) h.char_eq, ?_, ?_⟩
  · exact List.forall_mem_cons.2 ⟨⟨htick, hslash⟩, h.whole⟩
  · intro hopens
    obtain hhere | hlater := List.infix_cons_iff.1 hopens
    · obtain ⟨heq, more, rfl⟩ := List.cons_prefix_cons.1 hhere
      cases heq
      refine hdollar rfl ?_
      rw [← h.text_eq]
      rfl
    · exact h.closed hlater

theorem taken (h : Units text out units) (c : Char) :
    Units (c :: text) ('\x5c' :: c :: out) (.taken c :: units) := by
  refine ⟨congrArg ('\x5c' :: c :: ·) h.text_eq, congrArg (c :: ·) h.char_eq, ?_, ?_⟩
  · exact List.forall_mem_cons.2 ⟨trivial, h.whole⟩
  · intro hopens
    obtain hhere | hlater := List.infix_cons_iff.1 hopens
    · cases (List.cons_prefix_cons.1 hhere).1
    · exact h.closed hlater

/-- A spelling that begins with a character other than a backslash begins with the unit of that character. -/
theorem uncons (h : Units text (c :: out) units) (hslash : c ≠ '\x5c') :
    ∃ more later, text = c :: later ∧ units = .bare c :: more ∧ Units later out more := by
  obtain ⟨htext, hchar, hwhole, hclosed⟩ := h
  cases units with
  | nil => cases htext
  | cons q more =>
    cases q with
    | bare d =>
      injection htext with hd hout
      refine ⟨more, more.map Quasi.char, ?_, by rw [hd], hout, rfl, ?_, ?_⟩
      · rw [← hchar, ← hd]
        rfl
      · exact fun q hq => hwhole q (.tail _ hq)
      · exact fun hopens => hclosed (List.infix_cons hopens)
    | taken d =>
      injection htext with hd hout
      exact absurd hd.symm hslash

end Units

/-- The spelling of a text has a unit for each of its characters. -/
theorem Spelled.exists_units {text out : List Char} (h : Spelled text out) : ∃ units, Units text out units := by
  induction h with
  | nil => exact ⟨[], .nil⟩
  | @plain c rest out hslash htick hdollar _ hspelled ih =>
    obtain ⟨units, hunits⟩ := ih
    exact ⟨_, hunits.bare htick hslash fun hc hhead => hdollar hc (hspelled.head_brace hhead)⟩
  | @escaped c rest out _ _ ih =>
    obtain ⟨units, hunits⟩ := ih
    exact ⟨_, hunits.taken c⟩
  | @tag rest out _ _ ih =>
    -- The backslash goes before the solidus, whose own unit was a bare one.
    obtain ⟨units, hunits⟩ := ih
    obtain ⟨more, later, rfl, -, hmore⟩ := hunits.uncons (by decide)
    exact ⟨_, (hmore.taken '/').bare (by decide) (by decide) fun h => absurd h (by decide)⟩

theorem toList_literal_str (s : String) :
    (literal (.str s)).toList = '\x60' :: (escapeTemplate s.toList ++ ['\x60']) := by
  rw [literal, String.toList_ofList, literalList]

theorem scanTemplate?_of_units {s : String} {units : List Quasi}
    (h : Units s.toList (escapeTemplate s.toList) units) (after : List Char) :
    scanTemplate? ((literal (.str s)).toList ++ after) = some (units, after) := by
  rw [toList_literal_str, List.cons_append, List.append_assoc, List.singleton_append, scanTemplate?, ← h.text_eq,
    quasis?_flatMap_text h.whole]

/-- The literal of a text closes at its last character and nowhere before, whatever comes after it. No interpolation
begins in it, and without the backslashes that take a character it is the text; so no two texts have one literal. -/
theorem scanTemplate?_literal :
    (∀ s : String, ∃ units : List Quasi,
      (literal (.str s)).toList = '\x60' :: (units.flatMap Quasi.text ++ ['\x60']) ∧
      (∀ after, scanTemplate? ((literal (.str s)).toList ++ after) = some (units, after)) ∧
      ¬ OpensInterpolation units ∧ String.ofList (units.map Quasi.char) = s) ∧
    Function.Injective fun s : String => literal (.str s) := by
  constructor
  · intro s
    obtain ⟨units, hunits⟩ := (spelled_escapeTemplate s.toList).exists_units
    refine ⟨units, ?_, scanTemplate?_of_units hunits, hunits.closed, ?_⟩
    · rw [toList_literal_str, hunits.text_eq]
    · rw [hunits.char_eq, String.ofList_toList]
  · intro s t heq
    obtain ⟨units, hs⟩ := (spelled_escapeTemplate s.toList).exists_units
    obtain ⟨others, ht⟩ := (spelled_escapeTemplate t.toList).exists_units
    have hscan := scanTemplate?_of_units ht []
    rw [← show literal (.str s) = literal (.str t) from heq, scanTemplate?_of_units hs] at hscan
    cases hscan
    rw [← String.toList_inj, ← hs.char_eq, ht.char_eq]

end ConsentBanner.Script
