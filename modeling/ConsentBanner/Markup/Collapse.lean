import ConsentBanner.Text.Blank

/-!
Markup without incidental white space: one space between attributes, none between tags. Text and quoted
attribute values stay as they are.
-/

namespace ConsentBanner.Markup

/-- The text up to and with the first closing character, when there is one, and the rest. -/
def cutThrough? (close : Char) : List Char → Option (List Char × List Char)
  | [] => none
  | c :: rest =>
    if c == close then some ([c], rest)
    else (cutThrough? close rest).map fun (body, after) => (c :: body, after)

theorem cutThrough?_length {close : Char} {cs body after : List Char}
    (h : cutThrough? close cs = some (body, after)) : after.length < cs.length := by
  induction cs generalizing body after with
  | nil => simp [cutThrough?] at h
  | cons c rest ih =>
    simp only [cutThrough?] at h
    split at h
    · simp only [Option.some.injEq, Prod.mk.injEq] at h
      rw [← h.2]
      simp
    · rw [Option.map_eq_some_iff] at h
      obtain ⟨⟨b, a⟩, hr, he⟩ := h
      simp only [Prod.mk.injEq] at he
      have := ih hr
      rw [← he.2]
      simp only [List.length_cons]
      omega

/-- A part of a text cut by a closing mark: what is inside a pair of marks, and what is not. -/
inductive Part where
  | outer (text : List Char)
  | inner (text : List Char)
deriving DecidableEq, Repr

/-- Puts a character in front of the outer text that opens the parts. -/
def consOuter (c : Char) : List Part → List Part
  | .outer text :: rest => .outer (c :: text) :: rest
  | rest => .outer [c] :: rest

/-- Cuts a text at marked stretches: `closing` tells for an opening character which one closes it. A
stretch that is not closed is outer text. -/
def parts (closing : Char → Option Char) (cs : List Char) : List Part :=
  match cs with
  | [] => []
  | c :: rest =>
    match closing c with
    | none => consOuter c (parts closing rest)
    | some close =>
      match _h : cutThrough? close rest with
      | some (body, after) => .inner (c :: body) :: parts closing after
      | none => consOuter c (parts closing rest)
termination_by cs.length
decreasing_by
  all_goals simp only [List.length_cons]
  all_goals try have := cutThrough?_length _h
  all_goals omega

def tagClosing (c : Char) : Option Char := if c == '<' then some '>' else none

def quoteClosing (c : Char) : Option Char := if c == '\x22' || c == '\x27' then some c else none

/-- Every run of white space becomes one space. -/
def squeeze : (afterBlank : Bool) → List Char → List Char
  | _, [] => []
  | afterBlank, c :: rest =>
    if Text.isBlank c then
      if afterBlank then squeeze true rest else ' ' :: squeeze true rest
    else c :: squeeze false rest

def squeezePart : Part → List Char
  | .outer text => squeeze false text
  | .inner text => text

/-- Drops one space before the end of a tag. -/
def tightenEnd (tag : List Char) : List Char :=
  match tag.reverse with
  | '>' :: '/' :: ' ' :: rest => rest.reverse ++ ['/', '>']
  | '>' :: ' ' :: rest => rest.reverse ++ ['>']
  | _ => tag

def tightenStart : List Char → List Char
  | '<' :: ' ' :: rest => '<' :: rest
  | tag => tag

def collapseTag (tag : List Char) : List Char :=
  tightenEnd (tightenStart ((parts quoteClosing tag).flatMap squeezePart))

/-- A tag, or a text that begins with an unclosed one, is collapsed; a blank text is dropped. -/
def collapsePart : Part → List Char
  | .inner tag => collapseTag tag
  | .outer text =>
    match text with
    | '<' :: _ => collapseTag text
    | _ => if text.all Text.isBlank then [] else text

def collapseList (markup : List Char) : List Char :=
  Text.trimList ((parts tagClosing markup).flatMap collapsePart)

/-- The markup without incidental white space. -/
def collapse (markup : String) : String := String.ofList (collapseList markup.toList)

end ConsentBanner.Markup
