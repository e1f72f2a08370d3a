import ConsentBanner.Proofs.Json.Number
import ConsentBanner.Proofs.Stylesheet.Block
import ConsentBanner.Proofs.Stylesheet.Selector
import ConsentBanner.Proofs.Template.Mirror

/-!
The rules of components in a compact stylesheet, and the elements of the markup that they are for.
-/

namespace ConsentBanner.Stylesheet

section Blocks

theorem not_opens_join {parts : List String} (h : ∀ p ∈ parts, ¬ ['/', '*'] <:+: p.toList) :
    ¬ ['/', '*'] <:+: (Text.join "\n" parts).toList := by
  induction parts with
  | nil =>
    intro hopen
    exact absurd (List.infix_nil.1 hopen) (List.cons_ne_nil _ _)
  | cons s rest ih =>
    obtain ⟨hs, hrest⟩ := List.forall_mem_cons.1 h
    cases rest with
    | nil => exact hs
    | cons t rest =>
      rw [toList_join_cons]
      intro hopen
      obtain hopen | hopen := Text.infix_append_cons (by decide) hopen
      · exact hs hopen
      · exact ih hrest hopen

theorem not_opens_lines {parts : List String} (h : ∀ p ∈ parts, ¬ ['/', '*'] <:+: p.toList) :
    ¬ ['/', '*'] <:+: (lines parts).toList :=
  not_opens_join fun p hp => h p (List.mem_filter.1 hp).1

/-- A text with no byte of a solidus. -/
def isClear (s : String) : Bool := s.toByteArray.data.toList.all (· != 47)

theorem not_opens_of_isClear {s : String} (h : isClear s = true) : ¬ ['/', '*'] <:+: s.toList := by
  intro hopen
  have hbytes : s.toByteArray.data.toList = s.toList.flatMap String.utf8EncodeChar := by
    rw [← String.utf8Encode_toList, List.utf8Encode, List.data_toByteArray]
  have hmem : 47 ∈ s.toByteArray.data.toList := by
    rw [hbytes]
    exact List.mem_flatMap.2 ⟨'/', hopen.subset (.head _), by decide⟩
  exact absurd (List.all_eq_true.1 h 47 hmem) (by decide)

/-- The rules of one component of a template. -/
def rulesOf (t : Template) (n : ArenaNode) : List String :=
  componentRules t.settings.breakpoints
    ((n.parent.bind ((Arena.ofComponents t.components).nodes[·]?)).map (·.data)) n.data

/-- The blocks of a stylesheet before compaction: what is for the whole banner, and every rule of a component. -/
def blocks (t : Template) : Except Failure (List String) := do
  let b := t.settings.breakpoints
  let layoutRules ← layout t.layout b
  let motionRules ← motion t.animation?
  return [base t.theme, layoutRules] ++ (Arena.ofComponents t.components).nodes.flatMap (rulesOf t) ++
    [motionRules, icon (some t.settings.floatingIcon), accessibility, responsive b]

theorem begins_componentSelector (c : ComponentData) : begins (componentSelector c) = true := by
  unfold componentSelector
  exact begins_append (begins_append rfl _) _

theorem isBlock_componentRules {b : Breakpoints} {parent : Option ComponentData} {c : ComponentData} :
    ∀ r ∈ componentRules b parent c, IsBlock r := by
  have hselector := begins_componentSelector c
  simp only [componentRules, List.forall_mem_cons]
  refine ⟨isBlock_rule hselector _, ?_, ?_, isBlock_media (begins_tabletMedia b) _,
    isBlock_media (begins_mobileMedia b) _, ?_, List.forall_mem_nil _⟩
  · rw [placementRule]
    split
    · exact isBlock_empty
    · exact isBlock_rule hselector _
  · rw [containerRule]
    split
    · exact isBlock_rule hselector _
    · exact isBlock_empty
  · rw [focusRule]
    split
    · exact isBlock_textRule (begins_append hselector _) _
    · exact isBlock_empty

section OfTemplate

variable {t : Template} {layoutRules motionRules : String}

/-- The parts of a stylesheet, one a line, with the rules of all components in one of them. -/
def passes (t : Template) (layoutRules motionRules : String) : List String :=
  [base t.theme, layoutRules, components (Arena.ofComponents t.components) t.settings.breakpoints, motionRules,
    icon (some t.settings.floatingIcon), accessibility, responsive t.settings.breakpoints]

theorem ofTemplate_eq_passes (hlayout : layout t.layout t.settings.breakpoints = .ok layoutRules)
    (hmotion : motion t.animation? = .ok motionRules) :
    ofTemplate t = .ok (compact (lines (passes t layoutRules motionRules))) := by
  rw [ofTemplate, hlayout, hmotion]
  rfl

theorem isBlock_of_mem_rules : ∀ r ∈ (Arena.ofComponents t.components).nodes.flatMap (rulesOf t), IsBlock r := by
  intro r hr
  obtain ⟨n, -, hr⟩ := List.mem_flatMap.1 hr
  exact isBlock_componentRules r hr

theorem isBlock_passes (hlayout : layout t.layout t.settings.breakpoints = .ok layoutRules)
    (hmotion : motion t.animation? = .ok motionRules) : ∀ p ∈ passes t layoutRules motionRules, IsBlock p := by
  simp only [passes, List.forall_mem_cons]
  exact ⟨isBlock_base _, isBlock_layout hlayout, isBlock_lines isBlock_of_mem_rules, isBlock_motion hmotion,
    isBlock_icon _, isBlock_accessibility, isBlock_responsive _, List.forall_mem_nil _⟩

/-- A stylesheet without comments is made of its blocks, each of them compact. -/
theorem ofTemplate_eq_join {parts : List String} (hparts : blocks t = .ok parts)
    (hopen : ∀ p ∈ parts, ¬ ['/', '*'] <:+: p.toList) : ofTemplate t = .ok (String.join (parts.map compact)) := by
  obtain ⟨layoutRules, hlayout, h⟩ := bind_eq_ok.1 hparts
  obtain ⟨motionRules, hmotion, h⟩ := bind_eq_ok.1 h
  cases h
  simp only [List.forall_mem_append] at hopen
  obtain ⟨⟨hbanner, hrules⟩, hrest⟩ := hopen
  -- The rules of components are lines within one of the lines of the whole.
  have hcomponents : compactList (components (Arena.ofComponents t.components) t.settings.breakpoints).toList =
      ((Arena.ofComponents t.components).nodes.flatMap (rulesOf t)).flatMap (compactList ·.toList) :=
    compactList_lines isBlock_of_mem_rules (not_opens_lines hrules)
  have hpasses : ∀ p ∈ passes t layoutRules motionRules, ¬ ['/', '*'] <:+: p.toList := by
    simp only [passes, List.forall_mem_cons] at hbanner hrest ⊢
    exact ⟨hbanner.1, hbanner.2.1, not_opens_lines hrules, hrest⟩
  have hsheet := compactList_lines (isBlock_passes hlayout hmotion) (not_opens_lines hpasses)
  rw [ofTemplate_eq_passes hlayout hmotion, Except.ok.injEq, ← String.toList_inj, String.toList_join, List.flatMap_map,
    compact, String.toList_ofList, hsheet]
  simp only [passes, List.flatMap_cons, List.flatMap_nil, List.flatMap_append, List.append_nil, List.append_assoc,
    hcomponents, compact, String.toList_ofList]

end OfTemplate

end Blocks

section Rules

variable {b : Breakpoints} {selector : String} {declarations : List Declaration}

/-- What can stand before the selector of a rule: nothing, or the start of a media block. -/
def openings (b : Breakpoints) : List String := ["", b.tabletMedia ++ " \x7b", b.mobileMedia ++ " \x7b"]

/-- A rule for the elements of a selector, on all devices or on one, in all states or in focus. -/
def IsRuleFor (b : Breakpoints) (selector r : String) : Prop :=
  ∃ opening ∈ openings b, ∃ state ∈ ["", ":focus"], ∃ body, r = opening ++ (selector ++ (state ++ (" \x7b" ++ body)))

theorem rule_of_ne (h : rule selector declarations ≠ "") :
    ∃ body, rule selector declarations = selector ++ (" \x7b" ++ body) := by
  rw [rule] at h ⊢
  split
  · rename_i hempty
    rw [if_pos hempty] at h
    exact absurd rfl h
  · exact ⟨_, by rw [String.append_assoc, String.append_assoc]⟩

theorem media_of_ne {query r : String} (h : media query [r] ≠ "") :
    r ≠ "" ∧ media query [r] = query ++ " \x7b" ++ (r ++ "\x7d") := by
  have hinner : String.join [r] = r := by rw [String.join_cons, String.join_nil, String.append_empty]
  rw [media, hinner] at h ⊢
  split
  · rename_i hempty
    rw [if_pos hempty] at h
    exact absurd rfl h
  · rename_i hfull
    exact ⟨mt String.isEmpty_iff.2 hfull, String.append_assoc⟩

theorem isRuleFor_rule (h : rule selector declarations ≠ "") : IsRuleFor b selector (rule selector declarations) := by
  obtain ⟨body, hbody⟩ := rule_of_ne h
  exact ⟨"", .head _, "", .head _, body, by rw [hbody, String.empty_append, String.empty_append]⟩

theorem isRuleFor_focus (h : rule (selector ++ ":focus") declarations ≠ "") :
    IsRuleFor b selector (rule (selector ++ ":focus") declarations) := by
  obtain ⟨body, hbody⟩ := rule_of_ne h
  exact ⟨"", .head _, ":focus", .tail _ (.head _), body, by rw [hbody, String.empty_append, String.append_assoc]⟩

theorem isRuleFor_media {query : String} (hquery : query ++ " \x7b" ∈ openings b)
    (h : media query [rule selector declarations] ≠ "") :
    IsRuleFor b selector (media query [rule selector declarations]) := by
  obtain ⟨hrule, hmedia⟩ := media_of_ne h
  obtain ⟨body, hbody⟩ := rule_of_ne hrule
  refine ⟨_, hquery, "", .head _, body ++ "\x7d", ?_⟩
  rw [hmedia, hbody]
  simp only [String.empty_append, String.append_assoc]

theorem isRuleFor_of_mem {c : ComponentData} {parent : Option ComponentData} {r : String}
    (hr : r ∈ componentRules b parent c) (hne : r ≠ "") : IsRuleFor b (componentSelector c) r := by
  simp only [componentRules, List.mem_cons, List.not_mem_nil, or_false] at hr
  obtain rfl | rfl | rfl | rfl | rfl | rfl := hr
  · exact isRuleFor_rule hne
  · rw [placementRule] at hne ⊢
    split at hne
    · exact absurd rfl hne
    · rename_i hoffsets
      rw [if_neg hoffsets]
      exact isRuleFor_rule hne
  · rw [containerRule] at hne ⊢
    split at hne
    · rename_i hkind
      rw [if_pos hkind]
      exact isRuleFor_rule hne
    · exact absurd rfl hne
  · exact isRuleFor_media (.tail _ (.head _)) hne
  · exact isRuleFor_media (.tail _ (.tail _ (.head _))) hne
  · rw [focusRule] at hne ⊢
    split at hne
    · rename_i hkind
      rw [if_pos hkind]
      exact isRuleFor_focus hne
    · exact absurd rfl hne

end Rules

section Target

/-- A text from after the opening brace of its media block on, when it begins with one. -/
def skipQuery : List Char → List Char
  | '@' :: rest => (rest.dropWhile (· != '\x7b')).tail
  | css => css

/-- The identifier of the elements that a compact rule is for. -/
def target? (css : List Char) : Option (List Char) :=
  match readSelector? (skipQuery css) with
  | some (id, after) =>
    if ["\x7b", ":focus\x7b"].any (·.toList.isPrefixOf after) then some id else none
  | none => none

/-- The start of a media block is passed over. -/
theorem skipQuery_media {width : String} (hbrace : '\x7b' ∉ width.toList) (rest : List Char) :
    skipQuery (squash ("@media (max-width: " ++ width ++ "px)" ++ " \x7b").toList ++ rest) = rest := by
  obtain ⟨query, hquery⟩ : ∃ query, query = "media (max-width: ".toList ++ (width.toList ++ "px".toList) := ⟨_, rfl⟩
  have hopening : ("@media (max-width: " ++ width ++ "px)" ++ " \x7b").toList =
      '@' :: (query ++ [')', ' ', '\x7b']) := by
    rw [hquery, String.toList_append, String.toList_append, String.toList_append, List.append_assoc, List.append_assoc,
      List.append_assoc, List.append_assoc]
    rfl
  have hsquash : squash ('@' :: (query ++ [')', ' ', '\x7b'])) = '@' :: (squash query ++ [')', '\x7b']) := by
    rw [squash_cons (by decide), squash_append (by decide)]
    rfl
  have hclear : '\x7b' ∉ query := by
    simp only [hquery, List.mem_append, not_or]
    exact ⟨by decide, hbrace, by decide⟩
  have hkept : ∀ d ∈ squash query ++ [')'], (d != '\x7b') = true := by
    simp only [List.forall_mem_append, List.forall_mem_singleton, bne_iff_ne]
    refine ⟨?_, by decide⟩
    rintro d hd rfl
    obtain hd | hd := mem_of_mem_squash hd
    · exact hclear hd
    · exact absurd hd (by decide)
  have hsplit : squash query ++ [')', '\x7b'] ++ rest = (squash query ++ [')']) ++ '\x7b' :: rest := by simp
  rw [hopening, hsquash, List.cons_append, skipQuery, hsplit, List.dropWhile_append_of_pos hkept]
  rfl

theorem skipQuery_opening {b : Breakpoints} {opening : String} (h : opening ∈ openings b) (rest : List Char) :
    skipQuery (squash opening.toList ++ '[' :: rest) = '[' :: rest := by
  have hdigit (n : Int) : '\x7b' ∉ (toString n).toList := fun hd => absurd (Json.isNumeral_of_mem_int hd) (by decide)
  simp only [openings, List.mem_cons, List.not_mem_nil, or_false] at h
  obtain rfl | rfl | rfl := h
  · rfl
  · have htablet : b.tabletMedia = "@media (max-width: " ++
        (toString b.tablet ++ ("px) and (min-width: " ++ toString (b.mobile + 1))) ++ "px)" := by
      unfold Breakpoints.tabletMedia
      simp only [String.append_assoc]
    rw [htablet]
    apply skipQuery_media
    rw [String.toList_append, String.toList_append, List.mem_append, List.mem_append, not_or, not_or]
    exact ⟨hdigit _, by decide, hdigit _⟩
  · exact skipQuery_media (hdigit _) _

theorem squash_brace_open (cs : List Char) : ∃ rest, squash (' ' :: '\x7b' :: cs) = '\x7b' :: rest := by
  have hblank : Text.isBlank ' ' = true := by decide
  have hbrace : Text.isBlank '\x7b' = false := by decide
  have hmark : isPunctuation '\x7b' = true := by decide
  have hspace : isPunctuation ' ' = false := by decide
  have hsqueeze : Markup.squeeze false (' ' :: '\x7b' :: cs) = ' ' :: '\x7b' :: Markup.squeeze false cs := by
    rw [Markup.squeeze, hblank, if_pos rfl, if_neg Bool.false_ne_true, Markup.squeeze, hbrace,
      if_neg Bool.false_ne_true]
  have htighten (z : List Char) : tighten ' ' (tighten '\x7b' z) = '\x7b' :: z.dropWhile Text.isBlank := by
    rw [tighten, tighten, hspace, hmark, if_pos rfl, if_neg Bool.false_ne_true, if_pos]
    rw [hblank]
    exact hmark
  rw [squash, hsqueeze, List.foldr_cons, List.foldr_cons, htighten]
  exact ⟨_, dropSemicolons_cons (by decide) _⟩

theorem squash_state {state : String} (h : state ∈ ["", ":focus"]) (body : String) :
    ["\x7b", ":focus\x7b"].any (·.toList.isPrefixOf (squash (state ++ (" \x7b" ++ body)).toList)) = true := by
  obtain ⟨rest, hrest⟩ := squash_brace_open body.toList
  have hopen : (" \x7b" ++ body).toList = ' ' :: '\x7b' :: body.toList := by rw [String.toList_append]; rfl
  simp only [List.mem_cons, List.not_mem_nil, or_false] at h
  obtain rfl | rfl := h
  · rw [String.empty_append, hopen, hrest]
    rfl
  · have hfocus : (":focus" ++ (" \x7b" ++ body)).toList =
        [':'] ++ 'f' :: (['o', 'c', 'u', 's'] ++ ' ' :: '\x7b' :: body.toList) := by
      rw [String.toList_append, hopen]
      rfl
    rw [hfocus, squash_append (by decide), squash_ordinary (Text.forall_mem_of_all (by decide)), hrest]
    rfl

theorem endsLine_of_mem_settled {id : String} : ∀ d ∈ (settled id).toList, endsLine d = false := by
  intro d hd
  rw [settled, String.toList_ofList] at hd
  by_contra hline
  rw [Bool.not_eq_false, endsLine, Bool.or_eq_true, Bool.or_eq_true, beq_iff_eq, beq_iff_eq, beq_iff_eq] at hline
  obtain (rfl | rfl) | rfl := hline
  all_goals exact absurd (eq_space_of_mem_squash hd (by decide)) (by decide)

/-- A compact rule of a component is for the elements with its identifier as compaction leaves it. -/
theorem target?_compact {b : Breakpoints} {parent : Option ComponentData} {c : ComponentData} {r : String}
    (hr : r ∈ componentRules b parent c) (hne : r ≠ "") (hopen : ¬ ['/', '*'] <:+: r.toList) :
    target? (compact r).toList = some ((settled c.id).toList.map Text.shownChar) := by
  have hcompact : (compact r).toList = squash r.toList := by
    rw [compact, String.toList_ofList, (isBlock_componentRules r hr).compactList_eq hopen]
  obtain ⟨opening, hopening, state, hstate, body, rfl⟩ := isRuleFor_of_mem hr hne
  -- Wherever the rule opens, its selector is the first thing after that, and is read up to its own end.
  obtain ⟨inside, hinside⟩ := exists_toList_componentSelector { c with id := settled c.id }
  have hread := readSelector?_componentSelector (c := { c with id := settled c.id }) endsLine_of_mem_settled
    (squash (state ++ (" \x7b" ++ body)).toList)
  rw [hinside, List.cons_append] at hread
  rw [hcompact, String.toList_append, String.toList_append, squash_selector, target?, hinside, List.cons_append,
    skipQuery_opening hopening, hread]
  exact if_pos (squash_state hstate body)

/-- That is its identifier itself exactly when the identifier is settled. -/
theorem shown_settled_eq_iff {id : String} :
    (settled id).toList.map Text.shownChar = id.toList ↔ IsSettled id.toList ∧ '\x00' ∉ id.toList := by
  rw [settled, String.toList_ofList, ← squash_eq_self_iff]
  constructor
  · intro heq
    have hnull : '\x00' ∉ id.toList := heq ▸ Text.not_mem_map_shownChar _
    have hsquash : '\x00' ∉ squash id.toList := fun h => (mem_of_mem_squash h).elim hnull (by decide)
    rw [Text.map_shownChar hsquash] at heq
    exact ⟨heq, hnull⟩
  · rintro ⟨heq, hnull⟩
    rw [heq, Text.map_shownChar hnull]

end Target

section Selected

/-- The elements that a selector is for when it is read as the given identifier. -/
def selected (id : List Char) (root : Markup.Tree) : List Markup.Tree :=
  root.elements.filter fun e =>
    (e.attribute? "data-component-id").any fun value => Markup.readValue? value.toList == some id

theorem map_filter_any {α β γ : Type} {f : α → Option β} {g : γ → β} {xs : List α} {ys : List γ}
    (h : xs.filterMap f = ys.map g) (p : β → Bool) :
    (xs.filter fun x => (f x).any p).map f = (ys.filter fun y => p (g y)).map fun y => some (g y) := by
  have hgiven : (xs.filter fun x => (f x).any p).map f = ((xs.filterMap f).filter p).map some := by
    clear h
    induction xs with
    | nil => rfl
    | cons x xs ih =>
      cases hx : f x with
      | none => rw [List.filter_cons_of_neg (by simp [hx]), List.filterMap_cons_none hx, ih]
      | some b =>
        rw [List.filterMap_cons_some hx, List.filter_cons, List.filter_cons, hx, Option.any_some]
        split
        · rw [List.map_cons, List.map_cons, ih, hx]
        · exact ih
  rw [hgiven, h, List.filter_map, List.map_map]
  rfl

variable {t : Template}

/-- A selector is for the components whose identifiers a document shows as the selector says. -/
theorem exists_selected (language : String) (hne : t.components ≠ [])
    (hreturn : ∀ c ∈ Component.everyDataIn t.components, '\r' ∉ c.id.toList) :
    ∃ root, Markup.read? (Markup.ofTemplate language t) = some [root] ∧
      ∀ id, (selected id root).map (Markup.Tree.attribute? "data-component-id") =
        ((Component.everyDataIn t.components).filter (·.id.toList.map Text.shownChar == id)).map
          fun c => some (Markup.escape c.id) := by
  obtain ⟨root, hroot, hcarry⟩ := Markup.exists_read_components language hne
  refine ⟨root, hroot, fun id => ?_⟩
  have hread : ∀ c ∈ Component.everyDataIn t.components,
      (Markup.readValue? (Markup.escape c.id).toList == some id) = (c.id.toList.map Text.shownChar == id) := by
    intro c hc
    rw [Markup.escape, String.toList_ofList, Markup.readValue?_escapeList (hreturn c hc)]
    rfl
  rw [selected, map_filter_any hcarry, List.filter_congr hread]

/-- No other component is shown with the identifier of one of them when they are distinct. -/
theorem filter_shown (hnull : ∀ c ∈ Component.everyDataIn t.components, '\x00' ∉ c.id.toList)
    (hids : ((Component.everyDataIn t.components).map (·.id)).Nodup) {c : ComponentData}
    (hc : c ∈ Component.everyDataIn t.components) :
    (Component.everyDataIn t.components).filter (·.id.toList.map Text.shownChar == c.id.toList) = [c] := by
  have hshown : ∀ d ∈ Component.everyDataIn t.components,
      (d.id.toList.map Text.shownChar == c.id.toList) = (some d.id == some c.id) := by
    intro d hd
    rw [Text.map_shownChar (hnull d hd), Bool.eq_iff_iff, beq_iff_eq, beq_iff_eq, Option.some_inj, String.toList_inj]
  have hmap : (Component.everyDataIn t.components).filterMap (fun d => some d.id) =
      (Component.everyDataIn t.components).map (·.id) := congrFun List.filterMap_eq_map _
  obtain ⟨d, hd⟩ := Markup.filter_of_nodup_filterMap (f := fun d : ComponentData => some d.id) (hmap ▸ hids)
    (hmap ▸ List.mem_map_of_mem hc)
  have hmem : c ∈ [d] := hd ▸ List.mem_filter.2 ⟨hc, beq_self_eq_true _⟩
  rw [List.filter_congr hshown, hd, List.mem_singleton.1 hmem]

end Selected

/-- In a stylesheet without comments, each rule of a component is for the elements with the identifier that compaction
leaves of its own. That is its own identifier exactly when compaction has nothing to drop in it; then, in markup with
distinct identifiers, the rule is for the element of the component and for no other. -/
theorem ofTemplate_selectors {t : Template} {parts : List String} (hparts : blocks t = .ok parts)
    (hopen : ∀ p ∈ parts, ¬ ['/', '*'] <:+: p.toList) :
    ofTemplate t = .ok (String.join (parts.map compact)) ∧
      (∀ n ∈ (Arena.ofComponents t.components).nodes, ∀ r ∈ rulesOf t n, r ≠ "" →
        r ∈ parts ∧ target? (compact r).toList = some ((settled n.data.id).toList.map Text.shownChar)) ∧
      (∀ c ∈ Component.everyDataIn t.components, (settled c.id).toList.map Text.shownChar = c.id.toList ↔
        IsSettled c.id.toList ∧ '\x00' ∉ c.id.toList) ∧
      ∀ language, t.components ≠ [] → (∀ c ∈ Component.everyDataIn t.components, '\r' ∉ c.id.toList) →
        ∃ root, Markup.read? (Markup.ofTemplate language t) = some [root] ∧
          (∀ id, (selected id root).map (Markup.Tree.attribute? "data-component-id") =
            ((Component.everyDataIn t.components).filter (·.id.toList.map Text.shownChar == id)).map
              fun c => some (Markup.escape c.id)) ∧
          ((∀ c ∈ Component.everyDataIn t.components, '\x00' ∉ c.id.toList) →
            ((Component.everyDataIn t.components).map (·.id)).Nodup →
            ∀ c ∈ Component.everyDataIn t.components, IsSettled c.id.toList →
              (selected ((settled c.id).toList.map Text.shownChar) root).map
                (Markup.Tree.attribute? "data-component-id") = [some (Markup.escape c.id)]) := by
  refine ⟨ofTemplate_eq_join hparts hopen, ?_, fun c _ => shown_settled_eq_iff, ?_⟩
  · intro n hn r hr hne
    have hmem : r ∈ parts := by
      obtain ⟨_, -, h⟩ := bind_eq_ok.1 hparts
      obtain ⟨_, -, h⟩ := bind_eq_ok.1 h
      cases h
      exact List.mem_append_left _ (List.mem_append_right _ (List.mem_flatMap.2 ⟨n, hn, hr⟩))
    exact ⟨hmem, target?_compact hr hne (hopen r hmem)⟩
  · intro language hcomponents hreturn
    obtain ⟨root, hroot, hselected⟩ := exists_selected language hcomponents hreturn
    refine ⟨root, hroot, hselected, fun hnull hids c hc hsettled => ?_⟩
    rw [shown_settled_eq_iff.2 ⟨hsettled, hnull c hc⟩, hselected, filter_shown hnull hids hc]
    rfl

/-- Two buttons whose identifiers differ by one space. -/
def crowdedTemplate : Template where
  layout := { desktop := { kind := .banner, position := .bottom } }
  components := [
    .node { id := "a b", kind := .button, style := [(.desktop, [("color", .str "green")])] } [],
    .node { id := "a  b", kind := .button, style := [(.desktop, [("color", .str "red")])] } []]

/-- Both rules are for the first of them. -/
theorem ofTemplate_selectors_crowded :
    ((Component.everyDataIn crowdedTemplate.components).map (·.id)).Nodup ∧
      ∃ parts, blocks crowdedTemplate = .ok parts ∧ (∀ p ∈ parts, ¬ ['/', '*'] <:+: p.toList) ∧
        ofTemplate crowdedTemplate = .ok (String.join (parts.map compact)) ∧
        (∀ n ∈ (Arena.ofComponents crowdedTemplate.components).nodes, ∃ r ∈ rulesOf crowdedTemplate n,
          r ∈ parts ∧ target? (compact r).toList = some ['a', ' ', 'b']) ∧
        ∃ root, Markup.read? (Markup.ofTemplate "en" crowdedTemplate) = some [root] ∧
          (selected ['a', ' ', 'b'] root).map (Markup.Tree.attribute? "data-component-id") = [some "a b"] := by
  have hclear : (blocks crowdedTemplate).toOption.all (·.all isClear) = true := by decide +kernel
  obtain ⟨parts, hparts⟩ : ∃ parts, blocks crowdedTemplate = .ok parts := ⟨_, rfl⟩
  rw [hparts] at hclear
  have hopen : ∀ p ∈ parts, ¬ ['/', '*'] <:+: p.toList :=
    fun p hp => not_opens_of_isClear (List.all_eq_true.1 hclear p hp)
  have hsettled : ∀ n ∈ (Arena.ofComponents crowdedTemplate.components).nodes,
      (∃ r ∈ rulesOf crowdedTemplate n, r ≠ "") ∧
        (settled n.data.id).toList.map Text.shownChar = ['a', ' ', 'b'] := by decide +kernel
  obtain ⟨hsheet, htargets, -, hmarkup⟩ := ofTemplate_selectors hparts hopen
  obtain ⟨root, hroot, -, honly⟩ := hmarkup "en" (List.cons_ne_nil _ _) (by decide)
  have hown := honly (by decide) (by decide) _ (.head _) (by decide)
  refine ⟨by decide, parts, hparts, hopen, hsheet, ?_, root, hroot, hown⟩
  intro n hn
  obtain ⟨⟨r, hr, hne⟩, hid⟩ := hsettled n hn
  obtain ⟨hmem, htarget⟩ := htargets n hn r hr hne
  exact ⟨r, hr, hmem, htarget.trans (congrArg some hid)⟩

end ConsentBanner.Stylesheet
