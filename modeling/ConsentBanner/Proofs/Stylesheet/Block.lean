import ConsentBanner.Proofs.Outcome
import ConsentBanner.Proofs.Stylesheet.Compact

/-!
The blocks of a stylesheet: every rule, media block and animation is one, and so is every part that is made of them.
-/

namespace ConsentBanner.Stylesheet

/-- A selector or a query that does not begin with white space. -/
def begins (s : String) : Bool := s.toList.head?.any (!Text.isBlank ·)

theorem begins_ofList {c : Char} {rest : List Char} (h : Text.isBlank c = false) :
    begins (String.ofList (c :: rest)) = true := by
  rw [begins, String.toList_ofList, List.head?_cons, Option.any_some, h]
  rfl

theorem begins_append {s : String} (h : begins s = true) (t : String) : begins (s ++ t) = true := by
  rw [begins] at h ⊢
  rw [String.toList_append]
  cases hs : s.toList with
  | nil =>
    rw [hs] at h
    cases h
  | cons c rest =>
    rw [hs] at h
    exact h

theorem begins_join {s : String} (h : begins s = true) (separator : String) (rest : List String) :
    begins (Text.join separator (s :: rest)) = true := by
  cases rest with
  | nil => exact h
  | cons t rest => exact begins_append (begins_append h _) _

theorem ne_empty_of_begins {s : String} (h : begins s = true) : s ≠ "" := by
  rintro rfl
  cases h

theorem isFull_of_begins {s : String} (h : begins s = true) (hlast : ∃ body, s.toList = body ++ ['\x7d']) :
    IsFull s where
  head := by
    intro c hc
    rw [begins, Option.mem_def.1 hc] at h
    simpa using h
  last _ := hlast
  ne := ne_empty_of_begins h

theorem isFull_braces {start : String} (h : begins start = true) (body : String) :
    IsFull (start ++ " \x7b" ++ body ++ "\x7d") := by
  have hclose : "\x7d".toList = ['\x7d'] := rfl
  refine isFull_of_begins (begins_append (begins_append (begins_append h _) _) _) ?_
  rw [String.toList_append, hclose]
  exact ⟨_, rfl⟩

theorem isBlock_rule {selector : String} (h : begins selector = true) (declarations : List Declaration) :
    IsBlock (rule selector declarations) := by
  rw [rule]
  split
  · exact isBlock_empty
  · exact (isFull_braces h _).toIsBlock

theorem isBlock_media {query : String} (h : begins query = true) (rules : List String) :
    IsBlock (media query rules) := by
  rw [media]
  split
  · exact isBlock_empty
  · exact (isFull_braces h _).toIsBlock

theorem isBlock_textRule {selector : String} (h : begins selector = true) (declarations : List (String × String)) :
    IsBlock (textRule selector declarations) := isBlock_rule h _

theorem isBlock_base (theme : Theme) : IsBlock (base theme) := by
  apply isBlock_lines
  simp only [controlRules, containerRules, List.cons_append, List.nil_append, List.forall_mem_cons]
  repeat' apply And.intro
  all_goals first
    | exact isBlock_textRule (begins_ofList rfl) _
    | exact List.forall_mem_nil _

theorem begins_tabletMedia (b : Breakpoints) : begins b.tabletMedia = true :=
  begins_append (begins_append (begins_append (begins_append (begins_ofList rfl) _) _) _) _

theorem begins_mobileMedia (b : Breakpoints) : begins b.mobileMedia = true :=
  begins_append (begins_append (begins_ofList rfl) _) _

theorem begins_desktopMedia (b : Breakpoints) : begins b.desktopMedia = true :=
  begins_append (begins_append (begins_ofList rfl) _) _

theorem isBlock_layout {l : Layout} {b : Breakpoints} {text : String} (h : layout l b = .ok text) : IsBlock text := by
  obtain ⟨desktop, hdesktop, h⟩ := bind_eq_ok.1 h
  obtain ⟨tablet, htablet, h⟩ := bind_eq_ok.1 h
  obtain ⟨mobile, hmobile, h⟩ := bind_eq_ok.1 h
  cases h
  apply isBlock_lines
  simp only [List.forall_mem_cons]
  refine ⟨?_, ?_, ?_, ?_, List.forall_mem_nil _⟩
  · obtain ⟨_, -, h⟩ := bind_eq_ok.1 hdesktop
    obtain ⟨_, -, h⟩ := bind_eq_ok.1 h
    cases h
    exact isBlock_textRule (begins_append (begins_ofList rfl) _) _
  · cases l.desktop.kind <;> exact isBlock_textRule (begins_ofList rfl) _
  · cases hl : l.tablet with
    | none =>
      rw [hl] at htablet
      cases htablet
      exact isBlock_empty
    | some l =>
      rw [hl] at htablet
      obtain ⟨_, -, h⟩ := bind_eq_ok.1 htablet
      cases h
      exact isBlock_media (begins_tabletMedia b) _
  · cases hl : l.mobile with
    | none =>
      rw [hl] at hmobile
      cases hmobile
      exact isBlock_empty
    | some l =>
      rw [hl] at hmobile
      obtain ⟨_, -, h⟩ := bind_eq_ok.1 hmobile
      cases h
      exact isBlock_media (begins_mobileMedia b) _

theorem append_ne_empty {s : String} (h : s ≠ "") (t : String) : s ++ t ≠ "" := by
  intro hnil
  exact h (String.append_eq_empty_iff.1 hnil).1

theorem isFull_rule {selector name : String} {value : Json} (h : begins selector = true) (hname : name ≠ "")
    (hvalue : isGiven value = true) (more : List Declaration) : IsFull (rule selector ((name, value) :: more)) := by
  have hbody : (String.join (((name, value) :: more).map declarationText)).isEmpty = false := by
    rw [← Bool.not_eq_true, String.isEmpty_iff, List.map_cons, String.join_cons, declarationText, if_pos hvalue]
    exact append_ne_empty (append_ne_empty (append_ne_empty (append_ne_empty hname _) _) _) _
  rw [rule, hbody, if_neg Bool.false_ne_true]
  exact isFull_braces h _

theorem isFull_textRule {selector name value : String} (h : begins selector = true) (hname : name ≠ "")
    (hvalue : value ≠ "") (more : List (String × String)) : IsFull (textRule selector ((name, value) :: more)) := by
  have hgiven : isGiven (.str value) = true := bne_iff_ne.2 hvalue
  exact isFull_rule h hname hgiven _

theorem isFull_media {query text : String} (h : begins query = true) (htext : text ≠ "") (more : List String) :
    IsFull (media query (text :: more)) := by
  have hinner : (String.join (text :: more)).isEmpty = false := by
    rw [← Bool.not_eq_true, String.isEmpty_iff, String.join_cons]
    exact append_ne_empty htext _
  rw [media, hinner, if_neg Bool.false_ne_true]
  exact isFull_braces h _

theorem isFull_keyframes (name start finish : String) : IsFull (keyframes name start finish) := by
  have hclose : "\x7d\x7d".toList = ['\x7d'] ++ ['\x7d'] := rfl
  refine isFull_of_begins ?_ ?_
  · have hname : begins ("@keyframes " ++ name) = true := begins_append (begins_ofList rfl) _
    exact begins_append (begins_append (begins_append (begins_append (begins_append hname _) _) _) _) _
  · unfold keyframes
    rw [String.toList_append, hclose, ← List.append_assoc]
    exact ⟨_, rfl⟩

theorem isFull_fadeRules (duration : Int) : ∀ p ∈ fadeRules duration, IsFull p := by
  have htext (s t : String) (hs : s ≠ "") : s ++ toString duration ++ t ≠ "" :=
    append_ne_empty (append_ne_empty hs _) _
  simp only [fadeRules, List.forall_mem_cons]
  refine ⟨isFull_keyframes _ _ _, isFull_keyframes _ _ _, ?_, ?_, List.forall_mem_nil _⟩
  · exact isFull_textRule (begins_ofList rfl) (by decide) (htext _ _ (by decide)) []
  · exact isFull_textRule (begins_ofList rfl) (by decide) (htext _ _ (by decide)) []

theorem isFull_slideRules (duration : Int) : ∀ s ∈ slides, ∀ p ∈ slideRules duration s, IsFull p := by
  intro s hs
  have hanchors : ∀ s ∈ slides, s.anchors ≠ [] := by decide
  have hvalue {name : String} (hname : name ≠ "") (side ease : String) :
      name ++ side ++ " " ++ toString duration ++ ease ≠ "" :=
    append_ne_empty (append_ne_empty (append_ne_empty (append_ne_empty hname _) _) _) _
  have hselector (a : Anchor) : begins (".cmp-banner--slide[data-position=\"" ++ Named.name a ++ "\"]") = true :=
    begins_append (begins_append (begins_ofList rfl) _) _
  obtain ⟨a, more, hmore⟩ := List.exists_cons_of_ne_nil (hanchors s hs)
  simp only [slideRules, List.forall_mem_cons]
  refine ⟨isFull_keyframes _ _ _, isFull_keyframes _ _ _, ?_, ?_, List.forall_mem_nil _⟩
  · rw [hmore]
    exact isFull_textRule (begins_join (hselector a) _ _) (by decide) (hvalue (by decide) _ _) []
  · rw [hmore]
    exact isFull_textRule (begins_join (begins_append (hselector a) _) _ _) (by decide) (hvalue (by decide) _ _) []

theorem isBlock_motion {a : Option Animation} {text : String} (h : motion a = .ok text) : IsBlock text := by
  match a with
  | none =>
    cases h
    exact isBlock_empty
  | some ⟨.none, _⟩ =>
    cases h
    exact isBlock_empty
  | some ⟨.fade, duration⟩ =>
    obtain ⟨milliseconds, -, h⟩ := bind_eq_ok.1 h
    cases h
    exact isBlock_join (isFull_fadeRules milliseconds)
  | some ⟨.slide, duration⟩ =>
    obtain ⟨milliseconds, -, h⟩ := bind_eq_ok.1 h
    cases h
    apply isBlock_join
    intro p hp
    obtain ⟨s, hs, hp⟩ := List.mem_flatMap.1 hp
    exact isFull_slideRules milliseconds s hs p hp

theorem isFull_iconRules (i : FloatingIcon) : ∀ p ∈ iconRules i, IsFull p := by
  simp only [iconRules, List.forall_mem_cons]
  refine ⟨isFull_keyframes _ _ _, ?_, ?_, ?_, List.forall_mem_nil _⟩
  · exact isFull_textRule (begins_ofList rfl) (by decide) (by decide) _
  · exact isFull_textRule (begins_ofList rfl) (by decide) (by decide) _
  · refine isFull_textRule (begins_ofList rfl) (by decide) ?_ _
    intro hnil
    exact absurd (String.append_eq_empty_iff.1 hnil).2 (by decide)

theorem isBlock_icon (i : Option FloatingIcon) : IsBlock (icon i) := by
  cases i with
  | none => exact isBlock_empty
  | some i =>
    rw [icon]
    split
    · exact isBlock_join (isFull_iconRules i)
    · exact isBlock_empty

theorem isBlock_accessibility : IsBlock accessibility := by
  apply isBlock_join
  simp only [List.forall_mem_cons]
  refine ⟨?_, ?_, ?_, List.forall_mem_nil _⟩
  · exact isFull_textRule (begins_append (begins_ofList rfl) _) (by decide) (by decide) _
  · exact isFull_media (begins_ofList rfl) (isFull_textRule (begins_ofList rfl) (by decide) (by decide) _).ne _
  · exact isFull_textRule (begins_ofList rfl) (by decide) (by decide) _

theorem isBlock_responsive (b : Breakpoints) : IsBlock (responsive b) := by
  have hhide {selector : String} (h : begins selector = true) :
      textRule selector [("display", "none !important")] ≠ "" :=
    (isFull_textRule h (by decide) (by decide) []).ne
  apply isBlock_join
  simp only [List.forall_mem_cons]
  refine ⟨isFull_media (begins_mobileMedia b) (hhide (begins_ofList rfl)) _,
    isFull_media (begins_tabletMedia b) (hhide (begins_ofList rfl)) _,
    isFull_media (begins_desktopMedia b) (hhide (begins_ofList rfl)) _, ?_⟩
  repeat' apply And.intro
  all_goals first
    | exact isFull_textRule (begins_ofList rfl) (by decide) (by decide) _
    | exact List.forall_mem_nil _

end ConsentBanner.Stylesheet
