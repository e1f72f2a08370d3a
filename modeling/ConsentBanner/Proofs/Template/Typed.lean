import ConsentBanner.Proofs.Json.Fields
import ConsentBanner.Proofs.Schema.Total
import ConsentBanner.Proofs.Validation.Layout
import ConsentBanner.Proofs.Validation.Outline
import ConsentBanner.Proofs.Validation.Theme
import ConsentBanner.Template.Read

/-!
Reading the parts of a template: only blocks by device can fault, those that have no parts. What the checks of a raw
template leave open, and how it decides whether layouts, themes and settings that fit can be read.
-/

namespace ConsentBanner

open Checked Reader

theorem Content.total_read : Total Content.read := by
  intro v
  unfold Content.read
  split
  · exact faultless_valid _
  · exact faultless_valid _
  · exact faultless_valid _
  · exact faultless_valid _
  · split
    · unfold readTagged
      split
      · simp only [faultless_under, faultless_map]
        exact total_string.field _ _ _
      · simp only [faultless_under, faultless_map]
        exact (total_dictionary total_string).field _ _ _
      · exact faultless_reject _
    · split
      · exact faultless_valid _
      · exact faultless_valid _
      · exact faultless_reject _
  · exact faultless_reject _

theorem Action.faultless_readFields (fields : List (String × Json)) : (Action.readFields fields).Faultless := by
  simp only [readFields, faultless_seq, faultless_map]
  exact ⟨⟨total_member.field _ _ _, (total_nullable total_string).field _ _ _⟩,
    (total_nullable total_string).field _ _ _⟩

theorem Action.total_read : Total Action.read := by
  intro v
  unfold Action.read
  split
  · exact faultless_valid _
  · exact faultless_readFields _
  · exact total_model faultless_readFields _

theorem total_readBlock : Total readBlock := by
  intro v
  unfold readBlock
  split
  · exact total_dictionary total_any v
  · exact faultless_valid _

theorem faultless_readBlocks (blocks : List (Device × Json)) : (readBlocks blocks).Faultless := by
  apply faultless_all
  rintro ⟨d, v⟩
  simp only [faultless_under, faultless_map]
  exact total_readBlock v

theorem faultless_deviceBlocks {v : Json} (h : v = .null ∨ ∃ blocks, v = .obj blocks) : (deviceBlocks v).Faultless := by
  obtain rfl | ⟨blocks, rfl⟩ := h
  · exact faultless_valid _
  · exact faultless_valid _

/-- A style faults only when it is neither null nor an object. -/
theorem faultless_readStyle {v : Json} (h : v = .null ∨ ∃ blocks, v = .obj blocks) : (readStyle v).Faultless :=
  (faultless_deviceBlocks h).andThen faultless_readBlocks

/-- An arrangement faults only when it is set and no object. -/
theorem faultless_readContainerConfig {v : Json} (h : v.isSet = true → ∃ blocks, v = .obj blocks) :
    (readContainerConfig v).Faultless := by
  refine Faultless.andThen (faultless_deviceBlocks ?_) faultless_readBlocks
  split
  · rename_i hset
    exact .inr (h hset)
  · exact .inl rfl

theorem Measure.total_read : Total Measure.read := by
  intro v
  unfold Measure.read
  split
  · exact faultless_valid _
  · exact faultless_valid _
  · exact faultless_valid _
  · exact faultless_valid _
  · split
    · exact faultless_valid _
    · exact faultless_invalid _
  · exact faultless_invalid _

theorem Spacing.total_read : Total Spacing.read := by
  intro v
  unfold Spacing.read
  split
  · exact faultless_valid _
  · rename_i e he
    exact (Measure.total_read v e he).elim
  · split
    · exact faultless_valid _
    · rename_i e he
      have hfields : ((dictionary any v).under "dict[str,any]").Faultless :=
        faultless_under.2 (total_dictionary total_any v)
      exact (hfields e he).elim
    · exact faultless_invalid _

theorem DeviceLayout.total_read : Total DeviceLayout.read := by
  apply total_model
  intro fields
  simp only [faultless_seq, faultless_map]
  exact ⟨⟨⟨⟨total_member.field _ _ _, total_member.field _ _ _⟩, (total_nullable Measure.total_read).field _ _ _⟩,
    (total_nullable Measure.total_read).field _ _ _⟩, (total_nullable total_string).field _ _ _⟩

theorem Layout.total_read : Total Layout.read := by
  apply total_model
  intro fields
  simp only [faultless_seq, faultless_map]
  exact ⟨⟨DeviceLayout.total_read.field _ _ _, (total_nullable DeviceLayout.total_read).field _ _ _⟩,
    (total_nullable DeviceLayout.total_read).field _ _ _⟩

theorem ThemeColors.total_read : Total ThemeColors.read := by
  apply total_model
  intro fields
  have hcolor (key : String) : (field fields [key] none (nullable string)).Faultless :=
    (total_nullable total_string).field _ _ _
  simp only [faultless_seq, faultless_map]
  exact ⟨⟨⟨⟨⟨hcolor _, hcolor _⟩, hcolor _⟩, hcolor _⟩, hcolor _⟩, faultless_otherFields _ _⟩

theorem ThemeFonts.total_read : Total ThemeFonts.read := by
  apply total_model
  intro fields
  simp only [faultless_seq, faultless_map]
  exact ⟨(total_nullable total_string).field _ _ _, (total_nullable total_string).field _ _ _⟩

theorem Animation.total_read : Total Animation.read := by
  apply total_model
  intro fields
  simp only [faultless_seq, faultless_map]
  exact ⟨total_member.field _ _ _, total_nonNegative.field _ _ _⟩

theorem Theme.total_read : Total Theme.read := by
  apply total_model
  intro fields
  simp only [faultless_seq, faultless_map]
  exact ⟨⟨⟨ThemeColors.total_read.field _ _ _, ThemeFonts.total_read.field _ _ _⟩,
    (total_nullable Spacing.total_read).field _ _ _⟩, (total_nullable Animation.total_read).field _ _ _⟩

theorem TimedPolicy.total_read (name key : String) : Total (TimedPolicy.read name key) := by
  apply total_model
  intro fields
  simp only [faultless_seq, faultless_map]
  exact ⟨total_bool.field _ _ _, total_nonNegative.field _ _ _⟩

theorem Behaviour.total_read : Total Behaviour.read := by
  apply total_model
  intro fields
  simp only [faultless_seq, faultless_map]
  exact ⟨(TimedPolicy.total_read _ _).field _ _ _, (TimedPolicy.total_read _ _).field _ _ _⟩

theorem total_positiveInt : Total positiveInt := by
  intro v
  apply (total_int v).andThen
  intro n
  split
  · exact faultless_valid _
  · exact faultless_reject _

theorem Breakpoints.total_read : Total Breakpoints.read := by
  apply total_model
  intro fields
  apply Faultless.andThen
  · simp only [faultless_seq, faultless_map]
    exact ⟨total_positiveInt.field _ _ _, total_positiveInt.field _ _ _⟩
  · rintro ⟨mobile, tablet⟩
    dsimp only [ofBounds]
    split
    · exact faultless_valid _
    · exact faultless_reject _

theorem total_cssColor : Total cssColor := by
  intro v
  apply (total_string v).andThen
  intro s
  dsimp only
  split
  · exact faultless_valid _
  · exact faultless_reject _

theorem FloatingIcon.total_read : Total FloatingIcon.read := by
  have hsize : Total fun v =>
      (intAtLeast 16 v).andThen fun n => if n ≤ 128 then .valid n else .reject (.above 128) := by
    intro v
    apply (total_intAtLeast 16 v).andThen
    intro n
    split
    · exact faultless_valid _
    · exact faultless_reject _
  apply total_model
  intro fields
  simp only [faultless_seq, faultless_map]
  exact ⟨⟨⟨⟨total_bool.field _ _ _, total_oneOf.field _ _ _⟩, total_cssColor.field _ _ _⟩,
    total_cssColor.field _ _ _⟩, hsize.field _ _ _⟩

theorem faultless_responsiveBreakpoints (fields : List (String × Json)) : (responsiveBreakpoints fields).Faultless := by
  have hread (v : Json) : (if v.isSet then Breakpoints.read v else .valid .standard).Faultless := by
    split
    · exact Breakpoints.total_read v
    · exact faultless_valid _
  unfold responsiveBreakpoints
  dsimp only
  split
  · exact faultless_reject _
  · exact hread _

theorem total_readResponsive : Total readResponsive := by
  intro v
  unfold readResponsive
  split
  · exact faultless_valid _
  · split
    · apply (faultless_responsiveBreakpoints _).andThen
      intro breakpoints
      exact faultless_map.2 (total_dictionary total_any _)
    · exact faultless_reject _

theorem Settings.total_read : Total Settings.read := by
  apply total_model
  intro fields
  simp only [faultless_seq, faultless_map]
  exact ⟨⟨⟨⟨⟨⟨total_bool.field _ _ _, total_bool.field _ _ _⟩, (total_nullable Animation.total_read).field _ _ _⟩,
    Behaviour.total_read.field _ _ _⟩, total_readResponsive.field _ _ _⟩, FloatingIcon.total_read.field _ _ _⟩,
    (total_dictionary (total_dictionary total_string)).field _ _ _⟩

theorem Template.total_readId : Total Template.readId := by
  intro v
  unfold readId
  split
  · exact faultless_valid _
  · exact faultless_valid _

open Validation

/-- The blocks by device of a component have parts where they are given. -/
structure BlocksShaped (fields : List (String × Json)) : Prop where
  style : ∀ v, Fields.get? "style" fields = some v → v = .null ∨ ∃ blocks, v = .obj blocks
  position : ∀ position, valueOf "position" fields = .obj position → ∀ (d : Device) block,
    Fields.get? (Named.name d) position = some block → block.isSet = true → ∃ offsets, block = .obj offsets
  config : ∀ k v, find? ["containerConfig", "container_config"] fields = some (k, v) → v.isSet = true →
    ∃ blocks, v = .obj blocks

/-- The parts of an action object besides its type. -/
structure ActionTyped (parts : List (String × Json)) : Prop where
  category : Takes parts ["category"] (nullable string)
  url : Takes parts ["url"] (nullable string)

/-- The fields of a component that checks leave open. -/
structure ComponentTyped (fields : List (String × Json)) : Prop where
  id : Takes fields ["id"] string
  content : Takes fields ["content"] Content.read
  style : Takes fields ["style"] readStyle
  action : ∀ parts, valueOf "action" fields = .obj parts → ActionTyped parts
  config : Takes fields ["containerConfig", "container_config"] readContainerConfig
  alt : Takes fields ["alt"] (nullable string)
  locked : Takes fields ["locked"] bool

/-- The parts of a layout's block that checks leave open. -/
structure BlockTyped (block : List (String × Json)) : Prop where
  width : Takes block ["width"] (nullable Measure.read)
  height : Takes block ["height"] (nullable Measure.read)
  background : Takes block ["backgroundColor", "background_color"] (nullable string)

/-- The parts of a theme, whose values checks look at only where they are set. -/
structure ThemeTyped (theme : List (String × Json)) : Prop where
  colors : Takes theme ["colors"] ThemeColors.read
  fonts : Takes theme ["fonts"] ThemeFonts.read
  spacing : Takes theme ["spacing"] (nullable Spacing.read)
  animation : Takes theme ["animation"] (nullable Animation.read)

/-- The settings that checks leave open. -/
structure SettingsTyped (settings : List (String × Json)) : Prop where
  overlay : Takes settings ["overlay"] bool
  closeButton : Takes settings ["showCloseButton", "show_close_button"] bool
  duration : ∀ animation, valueOf "animation" settings = .obj animation → Takes animation ["duration"] nonNegative
  behaviour : Takes settings ["behaviour"] Behaviour.read
  responsive : Takes settings ["responsive"] readResponsive
  icon : Takes settings ["floatingIcon", "floating_icon"] FloatingIcon.read
  texts : Takes settings ["texts"] (dictionary (dictionary string))

/-- What checks leave open in a template is of the types that are read; a theme and settings that are given are
objects. -/
structure TemplateTyped (template : List (String × Json)) : Prop where
  name : Takes template ["name"] (nullable string)
  layout : ∀ layout, valueOf "layout" template = .obj layout → ∀ (d : Device) block,
    valueOf (Named.name d) layout = .obj block → BlockTyped block
  components : ∀ roots, valueOf "components" template = .arr roots → ∀ c ∈ componentsIn 0 roots, ComponentTyped c.fields
  theme : ∀ v, Fields.get? "theme" template = some v → ∃ theme, v = .obj theme ∧ ThemeTyped theme
  settings : ∀ v, Fields.get? "settings" template = some v → ∃ settings, v = .obj settings ∧ SettingsTyped settings

namespace Reader

theorem takes_member {α : Type} [Named α] [LawfulNamed α] {fields : List (String × Json)} {key : String}
    (h : IsNameOf α (valueOf key fields)) : Takes fields [key] (member α) := by
  obtain ⟨a, ha⟩ := h
  rw [takes_singleton]
  intro v hv
  rw [valueOf, hv, Option.getD_some] at ha
  rw [ha]
  exact isValid_member a

/-- A field that is an object or null, of which an object is read under a condition. -/
theorem takes_nullable {α : Type} {fields : List (String × Json)} {key : String} {read : Reader α}
    {p : List (String × Json) → Prop}
    (h : valueOf key fields = .null ∨
      ∃ parts, valueOf key fields = .obj parts ∧ ((read (.obj parts)).IsValid ↔ p parts)) :
    Takes fields [key] (nullable read) ↔ ∀ parts, valueOf key fields = .obj parts → p parts := by
  rw [takes_singleton]
  cases hv : Fields.get? key fields with
  | none => simp [valueOf, hv]
  | some v =>
    rw [valueOf, hv, Option.getD_some] at h ⊢
    obtain rfl | ⟨parts, rfl, hp⟩ := h
    · simp [nullable]
    · simp only [Option.some.injEq, forall_eq', Json.obj.injEq]
      rw [isValid_nullable (by simp), hp]

end Reader

theorem isValid_readDeviceLayout {limits : Limits} {block : List (String × Json)} (h : BlockFits limits block) :
    (DeviceLayout.read (.obj block)).IsValid ↔ BlockTyped block := by
  simp only [DeviceLayout.read, model, isValid_seq, isValid_map, isValid_field, takes_member h.kind,
    takes_member h.anchor, true_and]
  constructor
  · rintro ⟨⟨hwidth, hheight⟩, hbackground⟩
    exact ⟨hwidth, hheight, hbackground⟩
  · rintro ⟨hwidth, hheight, hbackground⟩
    exact ⟨⟨hwidth, hheight⟩, hbackground⟩

theorem isValid_readLayout {limits : Limits} {layout : List (String × Json)} (h : LayoutFits limits layout) :
    (Layout.read (.obj layout)).IsValid ↔
      ∀ (d : Device) block, valueOf (Named.name d) layout = .obj block → BlockTyped block := by
  have hdevice (d : Device) : Takes layout [Named.name d] (nullable DeviceLayout.read) ↔
      ∀ block, valueOf (Named.name d) layout = .obj block → BlockTyped block := by
    refine takes_nullable ((h.devices d).imp_right ?_)
    rintro ⟨block, hblock, hfits⟩
    exact ⟨block, hblock, isValid_readDeviceLayout hfits⟩
  have hdesktop :
      Takes layout ["desktop"] DeviceLayout.read ↔ Takes layout ["desktop"] (nullable DeviceLayout.read) := by
    obtain ⟨block, hblock⟩ := h.desktop
    simp only [takes_singleton, hblock, Option.some.injEq, forall_eq', isValid_nullable (v := .obj block) (by simp)]
  simp only [Layout.read, model, isValid_seq, isValid_map, isValid_field, hdesktop]
  constructor
  · rintro ⟨⟨hdesktop, htablet⟩, hmobile⟩ d
    cases d with
    | desktop => exact (hdevice .desktop).1 hdesktop
    | tablet => exact (hdevice .tablet).1 htablet
    | mobile => exact (hdevice .mobile).1 hmobile
  · intro hall
    exact ⟨⟨(hdevice .desktop).2 (hall .desktop), (hdevice .tablet).2 (hall .tablet)⟩,
      (hdevice .mobile).2 (hall .mobile)⟩

theorem isValid_readTheme {theme : List (String × Json)} : (Theme.read (.obj theme)).IsValid ↔ ThemeTyped theme := by
  simp only [Theme.read, model, isValid_seq, isValid_map, isValid_field]
  constructor
  · rintro ⟨⟨⟨hcolors, hfonts⟩, hspacing⟩, hanimation⟩
    exact ⟨hcolors, hfonts, hspacing, hanimation⟩
  · rintro ⟨hcolors, hfonts, hspacing, hanimation⟩
    exact ⟨⟨⟨hcolors, hfonts⟩, hspacing⟩, hanimation⟩

theorem isValid_readSettings {settings : List (String × Json)} (h : SettingsFit settings) :
    (Settings.read (.obj settings)).IsValid ↔ SettingsTyped settings := by
  have hanimation : Takes settings ["animation"] (nullable Animation.read) ↔
      ∀ animation, valueOf "animation" settings = .obj animation → Takes animation ["duration"] nonNegative := by
    refine takes_nullable (h.animation.imp_right ?_)
    rintro ⟨animation, hanimation, hfits⟩
    refine ⟨animation, hanimation, ?_⟩
    simp only [Animation.read, model, isValid_seq, isValid_map, isValid_field, takes_member hfits.kind, true_and]
  simp only [Settings.read, model, isValid_seq, isValid_map, isValid_field, hanimation]
  constructor
  · rintro ⟨⟨⟨⟨⟨⟨hoverlay, hclose⟩, hduration⟩, hbehaviour⟩, hresponsive⟩, hicon⟩, htexts⟩
    exact ⟨hoverlay, hclose, hduration, hbehaviour, hresponsive, hicon, htexts⟩
  · rintro ⟨hoverlay, hclose, hduration, hbehaviour, hresponsive, hicon, htexts⟩
    exact ⟨⟨⟨⟨⟨⟨hoverlay, hclose⟩, hduration⟩, hbehaviour⟩, hresponsive⟩, hicon⟩, htexts⟩

end ConsentBanner
