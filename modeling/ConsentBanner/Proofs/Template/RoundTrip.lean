import ConsentBanner.Client.Config
import ConsentBanner.Proofs.Template.Written

/-!
A template that was read from a document, written and read again, is the template that it was: only blocks of positions
without an offset and colours that are null are gone, and times are floating point numbers.
-/

namespace ConsentBanner

open Checked Reader Json

namespace Number

/-- A time as it is read: as a floating point number it is the same number, and is read again. -/
structure IsTime (x : Number) : Prop where
  read : nonNegative (.float x.toDouble) = .valid (.float x.toDouble)
  same : x.compare? (.float x.toDouble) = some .eq

theorem nonNegative_float {x : Double} (h : x.compareInt? 0 = some .eq ∨ x.compareInt? 0 = some .gt) :
    nonNegative (.float x) = .valid (.float x) := by
  rw [nonNegative, number, andThen]
  obtain h | h := h
  · rw [h]
  · rw [h]

theorem isTime_300 : IsTime (.int 300) where
  read := nonNegative_float (by decide +kernel)
  same := by decide +kernel

theorem isTime_zero : IsTime (.int 0) where
  read := nonNegative_float (by decide +kernel)
  same := by decide +kernel

theorem isTime_of_nonNegative {v : Json} {x : Number} (h : nonNegative v = .valid x) : IsTime x := by
  obtain ⟨y, -, h⟩ := andThen_eq_valid.1 h
  have hnumber : y.compareInt? 0 = some .eq ∨ y.compareInt? 0 = some .gt := by
    split at h
    · exact .inl ‹_›
    · exact .inr ‹_›
    · cases h
  have hx : x = .float y := by
    obtain hy | hy := hnumber
    · simpa [hy, eq_comm] using h
    · simpa [hy, eq_comm] using h
  subst hx
  refine ⟨nonNegative_float hnumber, ?_⟩
  cases y with
  | nan => simp [Double.compareInt?] at hnumber
  | infinite negative => simp [compare?, toDouble, Double.compare?]
  | finite negative m q => simp [compare?, toDouble, Double.compare?]

theorem isTime_of_field {fields : List (String × Json)} {keys : List String} {default x : Number}
    (hfields : (Json.obj fields).IsFinite) (hdefault : IsTime default)
    (h : field fields keys default nonNegative = .valid x) : IsTime x := by
  obtain rfl | ⟨v, -, hread⟩ := reads_of_field hfields h
  · exact hdefault
  · exact isTime_of_nonNegative hread

end Number

theorem Reader.reads_empty {α : Type} {read : Reader α} {a : α} (h : read (.obj []) = .valid a) : Reads read a :=
  ⟨.obj [], ⟨⟨List.nodup_nil, trivial⟩, rfl⟩, h⟩

/-- The animation with its duration as a floating point number. -/
def Animation.exact (a : Animation) : Animation := { a with duration := .float a.duration.toDouble }

theorem Animation.isTime_of_reads {a : Animation} (h : Reads read a) : a.duration.IsTime := by
  obtain ⟨fields, hv, hread⟩ := h.of_model
  simp only [seq_eq_valid, map_eq_valid] at hread
  obtain ⟨_, duration, ⟨kind, -, rfl⟩, hduration, rfl⟩ := hread
  exact Number.isTime_of_field hv Number.isTime_300 hduration

theorem Animation.read_json {a : Animation} (h : a.duration.IsTime) : read a.json = .valid a.exact := by
  have hkind : field a.fields ["type"] .fade (member AnimationKind) = .valid a.kind :=
    field_of_get? rfl (member_name a.kind)
  have hduration : field a.fields ["duration"] (.int 300) nonNegative = .valid a.exact.duration :=
    field_of_get? rfl h.read
  rw [json, read, model, hkind, hduration]
  rfl

theorem TimedPolicy.isTime_of_reads {name key : String} {p : TimedPolicy} (h : Reads (read name key) p) :
    p.seconds.IsTime := by
  obtain ⟨fields, hv, hread⟩ := h.of_model
  simp only [seq_eq_valid, map_eq_valid] at hread
  obtain ⟨_, seconds, ⟨enabled, -, rfl⟩, hseconds, rfl⟩ := hread
  exact Number.isTime_of_field hv Number.isTime_zero hseconds

theorem TimedPolicy.read_json {name key : String} (hkey : "enabled" ≠ key) {p : TimedPolicy} (h : p.seconds.IsTime) :
    read name key (p.json key) = .valid p.exact := by
  have henabled : field (p.fields key) ["enabled"] false bool = .valid p.enabled := field_of_get? rfl rfl
  have hseconds : field (p.fields key) [key] (.int 0) nonNegative = .valid p.exact.seconds :=
    field_of_get? (by rw [fields, Fields.get?_cons_of_ne hkey, Fields.get?_cons_self]) h.read
  rw [json, read, model, henabled, hseconds]
  rfl

/-- The policies with their times as floating point numbers. -/
def Behaviour.exact (b : Behaviour) : Behaviour := ⟨b.autoHide.exact, b.reshow.exact⟩

theorem Behaviour.isTime_of_reads {b : Behaviour} (h : Reads read b) :
    b.autoHide.seconds.IsTime ∧ b.reshow.seconds.IsTime := by
  obtain ⟨fields, hv, hread⟩ := h.of_model
  simp only [seq_eq_valid, map_eq_valid] at hread
  obtain ⟨_, reshow, ⟨autoHide, hhide, rfl⟩, hreshow, rfl⟩ := hread
  exact ⟨TimedPolicy.isTime_of_reads (.of_field hv (reads_empty rfl) hhide),
    TimedPolicy.isTime_of_reads (.of_field hv (reads_empty rfl) hreshow)⟩

theorem Behaviour.read_json {b : Behaviour} (hhide : b.autoHide.seconds.IsTime) (hreshow : b.reshow.seconds.IsTime) :
    read b.json = .valid b.exact := by
  have hhide : field b.fields ["autoHide", "auto_hide"] {} (TimedPolicy.read "AutoHideSettings" "delay") =
      .valid b.autoHide.exact :=
    field_of_get? rfl (TimedPolicy.read_json (by decide) hhide)
  have hreshow : field b.fields ["reshow"] {} (TimedPolicy.read "ReshowSettings" "interval") =
      .valid b.reshow.exact :=
    field_of_get? rfl (TimedPolicy.read_json (by decide) hreshow)
  rw [json, read, model, hhide, hreshow]
  rfl

section Colors

/-- The colours without those of other names that are null. -/
def ThemeColors.trimmed (c : ThemeColors) : ThemeColors := { c with others := givenFields c.others }

theorem otherFields_of_plain {fields : List (String × Json)} (names : List String) (h : FieldsArePlain fields) :
    otherFields names fields = .valid (fields.filter fun f => !names.contains f.1) := by
  induction fields with
  | nil => rfl
  | cons f rest ih =>
    obtain ⟨k, v⟩ := f
    rw [otherFields, ih h.2]
    · simp only [List.filter_cons]
      cases names.contains k with
      | true => rfl
      | false => rfl
    · exact fun bs w => unkeyed_of_isPlain h.1 (.bytes bs) w
    · exact unkeyed_of_isPlain h.1

/-- The names of the colours that every theme has. -/
def ThemeColors.names : List String := ["primary", "secondary", "background", "text", "border"]

/-- Colours of other names stand under these names once, and are JSON values. -/
structure ThemeColors.IsRead (c : ThemeColors) : Prop where
  other : ∀ f ∈ c.others, f.1 ∉ names
  finite : (Json.obj c.others).IsFinite

theorem ThemeColors.isRead_of_reads {c : ThemeColors} (h : Reads read c) : c.IsRead := by
  obtain ⟨fields, hv, hread⟩ := h.of_model
  simp only [seq_eq_valid, map_eq_valid] at hread
  obtain ⟨_, others, ⟨_, border, ⟨_, text, ⟨_, background, ⟨_, secondary, ⟨primary, -, rfl⟩, -, rfl⟩, -, rfl⟩, -, rfl⟩,
    -, rfl⟩, hothers, rfl⟩ := hread
  rw [otherFields_of_plain _ hv.plain.2] at hothers
  cases hothers
  refine ⟨fun f hf => ?_, hv.filter _⟩
  simpa [names] using (List.mem_filter.1 hf).2

/-- All colours, under their names. -/
def ThemeColors.allFields (c : ThemeColors) : List (String × Json) := c.fields ++ c.others

theorem ThemeColors.IsRead.givenJson_eq {c : ThemeColors} (h : c.IsRead) :
    c.givenJson = .obj (givenFields c.allFields) := by
  rw [givenJson, givenFields, givenFields, (h.finite.filter _).portableBlock, allFields, givenFields,
    List.filter_append]

theorem ThemeColors.read_givenJson {c : ThemeColors} (h : c.IsRead) : read c.givenJson = .valid c.trimmed := by
  have hkeys : (c.allFields.map (·.1)).Nodup := by
    rw [allFields, fields, List.map_append, List.nodup_append]
    refine ⟨by simp, h.finite.plain.1, ?_⟩
    rintro name hname _ hother rfl
    obtain ⟨f, hf, rfl⟩ := List.mem_map.1 hother
    exact h.other f hf hname
  have hprimary : field (givenFields c.allFields) ["primary"] none (nullable string) = .valid c.primary :=
    field_text hkeys rfl (List.forall_mem_nil _)
  have hsecondary : field (givenFields c.allFields) ["secondary"] none (nullable string) = .valid c.secondary :=
    field_text hkeys rfl (List.forall_mem_nil _)
  have hbackground : field (givenFields c.allFields) ["background"] none (nullable string) = .valid c.background :=
    field_text hkeys rfl (List.forall_mem_nil _)
  have htext : field (givenFields c.allFields) ["text"] none (nullable string) = .valid c.text :=
    field_text hkeys rfl (List.forall_mem_nil _)
  have hborder : field (givenFields c.allFields) ["border"] none (nullable string) = .valid c.border :=
    field_text hkeys rfl (List.forall_mem_nil _)
  have hplain : FieldsArePlain (givenFields c.allFields) := by
    rw [fieldsArePlain_iff]
    intro f hf
    obtain hf | hf := List.mem_append.1 (List.mem_filter.1 hf).1
    · simp only [fields, List.mem_cons, List.not_mem_nil, or_false] at hf
      have hoptional : ∀ s : Option String, (optional s).IsPlain := by
        rintro (- | s) <;> trivial
      obtain rfl | rfl | rfl | rfl | rfl := hf <;> exact hoptional _
    · exact (h.finite.values f hf).plain
  have hothers : otherFields names (givenFields c.allFields) = .valid (givenFields c.others) := by
    have hkept : (c.others.filter fun f => !names.contains f.1) = c.others :=
      List.filter_eq_self.2 fun f hf => by simpa using h.other f hf
    rw [otherFields_of_plain _ hplain, givenFields, List.filter_comm, allFields, List.filter_append, hkept]
    rfl
  rw [names] at hothers
  rw [h.givenJson_eq, read, model, hprimary, hsecondary, hbackground, htext, hborder, hothers]
  rfl

end Colors

theorem ThemeFonts.read_givenFields (f : ThemeFonts) : read (.obj (givenFields f.fields)) = .valid f := by
  have hkeys : (f.fields.map (·.1)).Nodup := by simp [fields]
  have hprimary : field (givenFields f.fields) ["primary"] none (nullable string) = .valid f.primary :=
    field_text hkeys rfl (List.forall_mem_nil _)
  have hsecondary : field (givenFields f.fields) ["secondary"] none (nullable string) = .valid f.secondary :=
    field_text hkeys rfl (List.forall_mem_nil _)
  rw [read, model, hprimary, hsecondary]
  rfl

/-- Spacing that was read is read back. -/
theorem Spacing.read_json {s : Spacing} (h : Reads read s) : s.json.isNull = false ∧ read s.json = .valid s := by
  cases s with
  | measure m =>
    obtain ⟨hnull, hread⟩ := m.read_json
    refine ⟨hnull, ?_⟩
    rw [json, read, hread]
  | sides fields =>
    refine ⟨rfl, ?_⟩
    obtain ⟨v, hv, hread⟩ := h
    rw [read] at hread
    split at hread
    · cases hread
    · cases hread
    · split at hread
      · rename_i given hgiven
        cases hread
        rw [under_eq_valid] at hgiven
        cases v with
        | obj values =>
          rw [dictionary_plain hv.plain] at hgiven
          cases hgiven
          rw [json, freeFields, hv.portableBlock, read, dictionary_plain hv.plain]
          rfl
        | _ => cases hgiven
      · cases hread
      · cases hread

/-- The theme without other colours that are null. -/
def Theme.trimmed (t : Theme) : Theme := { t with colors := t.colors.trimmed }

def Theme.exact (t : Theme) : Theme := { t with animation := t.animation.map .exact }

/-- What is read in a theme. -/
structure Theme.IsRead (t : Theme) : Prop where
  colors : t.colors.IsRead
  spacing : ∀ s ∈ t.spacing, Reads Spacing.read s
  animation : ∀ a ∈ t.animation, a.duration.IsTime

theorem Theme.isRead_of_reads {t : Theme} (h : Reads read t) : t.IsRead := by
  obtain ⟨fields, hv, hread⟩ := h.of_model
  simp only [seq_eq_valid, map_eq_valid] at hread
  obtain ⟨_, animation, ⟨_, spacing, ⟨_, fonts, ⟨colors, hcolors, rfl⟩, -, rfl⟩, hspacing, rfl⟩, hanimation,
    rfl⟩ := hread
  exact ⟨ThemeColors.isRead_of_reads (.of_field hv (reads_empty rfl) hcolors), .of_nullable hv hspacing,
    fun a ha => Animation.isTime_of_reads (.of_nullable hv hanimation a ha)⟩

theorem field_animation {fields : List (String × Json)} (hkeys : (fields.map (·.1)).Nodup) {a : Option Animation}
    (hv : Fields.get? "animation" fields = some (nullableJson Animation.json a))
    (h : ∀ b ∈ a, b.duration.IsTime) :
    field (givenFields fields) ["animation"] none (nullable Animation.read) = .valid (a.map .exact) :=
  field_nullable_map hkeys hv (List.forall_mem_nil _) fun b hb => ⟨rfl, Animation.read_json (h b hb)⟩

theorem Theme.read_givenJson {t : Theme} (h : t.IsRead) : read t.givenJson = .valid t.trimmed.exact := by
  have hkeys : (t.fields.map (·.1)).Nodup := by simp [fields]
  have hcolors : field (givenFields t.fields) ["colors"] {} ThemeColors.read = .valid t.colors.trimmed :=
    field_given hkeys rfl rfl (ThemeColors.read_givenJson h.colors)
  have hfonts : field (givenFields t.fields) ["fonts"] {} ThemeFonts.read = .valid t.fonts :=
    field_given hkeys rfl rfl t.fonts.read_givenFields
  have hspacing : field (givenFields t.fields) ["spacing"] none (nullable Spacing.read) = .valid t.spacing :=
    field_nullable hkeys rfl (List.forall_mem_nil _) fun s hs => Spacing.read_json (h.spacing s hs)
  have hanimation : field (givenFields t.fields) ["animation"] none (nullable Animation.read) =
      .valid (t.animation.map .exact) := field_animation hkeys rfl h.animation
  rw [givenJson, read, model, hcolors, hfonts, hspacing, hanimation]
  rfl

section Icon

theorem cssColor_of_reads {s : String} (h : Reads cssColor s) : cssColor (.str s) = .valid s := by
  obtain ⟨v, -, h⟩ := h
  obtain ⟨given, -, h⟩ := andThen_eq_valid.1 h
  dsimp only at h
  split at h
  · rename_i hcolor
    cases h
    have htrim : Text.trim (Text.trim given) = Text.trim given := by
      rw [Text.trim, Text.trim, String.toList_ofList, Text.trimList_trimList]
    rw [cssColor, string, andThen]
    dsimp only
    rw [htrim, if_pos hcolor]
  · cases h

/-- A size in pixels. -/
def iconSize : Reader Int := fun v =>
  (intAtLeast 16 v).andThen fun n => if n ≤ 128 then .valid n else .reject (.above 128)

theorem iconSize_of_reads {n : Int} (h : Reads iconSize n) : iconSize (.int n) = .valid n := by
  obtain ⟨v, -, h⟩ := h
  obtain ⟨m, hm, h⟩ := andThen_eq_valid.1 h
  obtain ⟨k, -, hk⟩ := andThen_eq_valid.1 hm
  split at hk
  · rename_i hleast
    cases hk
    split at h
    · rename_i hgreatest
      cases h
      rw [iconSize, intAtLeast, Reader.int, andThen, if_pos hleast, andThen, if_pos hgreatest]
    · cases h
  · cases hk

/-- What is checked in an icon. -/
structure FloatingIcon.IsRead (i : FloatingIcon) : Prop where
  color : cssColor (.str i.color) = .valid i.color
  backgroundColor : cssColor (.str i.backgroundColor) = .valid i.backgroundColor
  size : iconSize (.int i.size) = .valid i.size

theorem FloatingIcon.isRead_of_reads {i : FloatingIcon} (h : Reads read i) : i.IsRead := by
  obtain ⟨fields, hv, hread⟩ := h.of_model
  simp only [seq_eq_valid, map_eq_valid] at hread
  obtain ⟨_, size, ⟨_, backgroundColor, ⟨_, color, ⟨_, position, ⟨enabled, -, rfl⟩, -, rfl⟩, hcolor, rfl⟩, hbackground,
    rfl⟩, hsize, rfl⟩ := hread
  exact ⟨cssColor_of_reads (.of_field hv ⟨.str "#007bff", ⟨trivial, rfl⟩, rfl⟩ hcolor),
    cssColor_of_reads (.of_field hv ⟨.str "transparent", ⟨trivial, rfl⟩, rfl⟩ hbackground),
    iconSize_of_reads (.of_field hv ⟨.int 40, ⟨by decide, rfl⟩, rfl⟩ hsize)⟩

theorem FloatingIcon.read_json {i : FloatingIcon} (h : i.IsRead) : read i.json = .valid i := by
  have henabled : field i.fields ["enabled"] true bool = .valid i.enabled := field_of_get? rfl rfl
  have hposition : field i.fields ["position"] .bottomRight (oneOf Corner) = .valid i.position :=
    field_of_get? rfl (oneOf_name i.position)
  have hcolor : field i.fields ["color"] "#007bff" cssColor = .valid i.color := field_of_get? rfl h.color
  have hbackground : field i.fields ["backgroundColor", "background_color"] "transparent" cssColor =
      .valid i.backgroundColor := field_of_get? rfl h.backgroundColor
  have hsize : field i.fields ["size"] 40 iconSize = .valid i.size := field_of_get? rfl h.size
  unfold iconSize at hsize
  rw [json, read, model, henabled, hposition, hcolor, hbackground, hsize]
  rfl

end Icon

/-- A responsive block is kept as it was given, with the breakpoints that it asks for. -/
theorem readResponsive_freeFields {fields : List (String × Json)} {b : Breakpoints}
    (h : Reads readResponsive (fields, b)) : readResponsive (freeFields fields) = .valid (fields, b) := by
  obtain ⟨v, hv, hread⟩ := h
  by_cases hset : v.isSet = true
  · cases v with
    | obj given =>
      have hgiven : given = fields := by
        rw [readResponsive, if_neg (by simp [hset])] at hread
        obtain ⟨_, -, hmap⟩ := andThen_eq_valid.1 hread
        rw [dictionary_plain hv.plain] at hmap
        cases hmap
        rfl
      subst hgiven
      rwa [freeFields, hv.portableBlock]
    | _ =>
      unfold readResponsive at hread
      rw [if_neg (by simp [hset])] at hread
      cases hread
  · unfold readResponsive at hread
    rw [if_pos (by simpa using hset)] at hread
    cases hread
    rfl

/-- What is read in settings. -/
structure Settings.IsRead (s : Settings) : Prop where
  animation : ∀ a ∈ s.animation, a.duration.IsTime
  autoHide : s.behaviour.autoHide.seconds.IsTime
  reshow : s.behaviour.reshow.seconds.IsTime
  responsive : readResponsive (freeFields s.responsive) = .valid (s.responsive, s.breakpoints)
  floatingIcon : s.floatingIcon.IsRead
  /-- Texts stand once under each language and name. -/
  languages : (s.texts.map (·.1)).Nodup
  texts : ∀ f ∈ s.texts, (f.2.map (·.1)).Nodup

theorem Settings.isRead_of_reads {s : Settings} (h : Reads read s) : s.IsRead := by
  obtain ⟨fields, hv, hread⟩ := h.of_model
  simp only [seq_eq_valid, map_eq_valid] at hread
  obtain ⟨_, texts, ⟨_, icon, ⟨_, ⟨responsive, breakpoints⟩, ⟨_, behaviour, ⟨_, animation, ⟨_, closeButton,
    ⟨overlay, -, rfl⟩, -, rfl⟩, hanimation, rfl⟩, hbehaviour, rfl⟩, hresponsive, rfl⟩, hicon, rfl⟩, htexts,
    rfl⟩ := hread
  obtain ⟨hhide, hreshow⟩ := Behaviour.isTime_of_reads (.of_field hv (reads_empty rfl) hbehaviour)
  have honce : (texts.map (·.1)).Nodup ∧ ∀ f ∈ texts, (f.2.map (·.1)).Nodup := by
    obtain rfl | ⟨_, -, w, -, hw⟩ := exists_of_field htexts
    · exact ⟨List.nodup_nil, List.forall_mem_nil _⟩
    · refine ⟨nodup_dictionary hw, fun f hf => ?_⟩
      obtain ⟨_, htext⟩ := exists_of_mem_dictionary hw f hf
      exact nodup_dictionary htext
  exact ⟨fun a ha => Animation.isTime_of_reads (.of_nullable hv hanimation a ha), hhide, hreshow,
    readResponsive_freeFields (.of_field hv (reads_empty rfl) hresponsive),
    FloatingIcon.isRead_of_reads (.of_field hv (reads_empty rfl) hicon), honce.1, honce.2⟩

def Settings.exact (s : Settings) : Settings :=
  { s with animation := s.animation.map .exact, behaviour := s.behaviour.exact }

theorem Settings.read_givenJson {s : Settings} (h : s.IsRead) : read s.givenJson = .valid s.exact := by
  have hkeys : (s.fields.map (·.1)).Nodup := by simp [fields]
  have hoverlay : field (givenFields s.fields) ["overlay"] false bool = .valid s.overlay :=
    field_given hkeys rfl rfl rfl
  have hclose : field (givenFields s.fields) ["showCloseButton", "show_close_button"] false bool =
      .valid s.showCloseButton := field_given hkeys rfl rfl rfl
  have hanimation : field (givenFields s.fields) ["animation"] none (nullable Animation.read) =
      .valid (s.animation.map .exact) := field_animation hkeys rfl h.animation
  have hbehaviour : field (givenFields s.fields) ["behaviour"] {} Behaviour.read = .valid s.behaviour.exact :=
    field_given hkeys rfl rfl (Behaviour.read_json h.autoHide h.reshow)
  have hresponsive : field (givenFields s.fields) ["responsive"] ([], .standard) readResponsive =
      .valid (s.responsive, s.breakpoints) := field_given hkeys rfl rfl h.responsive
  have hicon : field (givenFields s.fields) ["floatingIcon", "floating_icon"] {} FloatingIcon.read =
      .valid s.floatingIcon := field_given hkeys rfl rfl (FloatingIcon.read_json h.floatingIcon)
  have hwritten : dictionary (dictionary string) (.obj (s.texts.map fun f => (f.1, .obj (textFields f.2)))) =
      .valid s.texts :=
    @dictionary_map _ _ (fun texts => .obj (textFields texts)) _ h.languages fun f hf =>
      ⟨nofun, dictionary_textFields (h.texts f hf)⟩
  have htexts : field (givenFields s.fields) ["texts"] [] (dictionary (dictionary string)) = .valid s.texts :=
    field_given hkeys rfl rfl hwritten
  rw [givenJson, read, model, hoverlay, hclose, hanimation, hbehaviour, hresponsive, hicon, htexts]
  rfl

theorem Component.readList_taggedJsonAll {cs : List Component} (h : Reads readList cs) :
    readList (.arr (taggedJsonAll cs)) = .valid (trimmedAll cs) := by
  obtain ⟨v, hv, hread⟩ := h
  cases v with
  | arr items =>
    have hread' : readList (.arr (taggedJsonAll cs)) = .valid (trimmedAll (portableAll cs)) :=
      readAll_taggedJsonAll cs (keysOnce_of_readAll hread)
    rwa [portableAll_of_readAll cs hv hread] at hread'
  | _ => cases hread

namespace Template

/-- The template without blocks of positions that hold no offset and other colours that are null. -/
def trimmed (t : Template) : Template :=
  { t with components := Component.trimmedAll t.components, theme := t.theme.trimmed }

/-- The template with its times as floating point numbers. -/
def exact (t : Template) : Template := { t with theme := t.theme.exact, settings := t.settings.exact }

/-- The durations of animations and the delays of policies. -/
def times (t : Template) : List Number :=
  (t.theme.animation.toList ++ t.settings.animation.toList).map (·.duration) ++
    [t.settings.behaviour.autoHide.seconds, t.settings.behaviour.reshow.seconds]

/-- What is read in a template. -/
structure IsRead (t : Template) : Prop where
  components : Component.readList (.arr (Component.taggedJsonAll t.components)) =
    .valid (Component.trimmedAll t.components)
  theme : t.theme.IsRead
  settings : t.settings.IsRead

theorem isRead_of_reads {t : Template} (h : Reads read t) : t.IsRead := by
  obtain ⟨fields, hv, hread⟩ := h.of_model
  simp only [seq_eq_valid, map_eq_valid] at hread
  obtain ⟨_, settings, ⟨_, theme, ⟨_, components, ⟨_, layout, ⟨_, name, ⟨id, -, rfl⟩, -, rfl⟩, -, rfl⟩, hcomponents,
    rfl⟩, htheme, rfl⟩, hsettings, rfl⟩ := hread
  exact ⟨Component.readList_taggedJsonAll (.of_field hv ⟨.arr [], ⟨trivial, rfl⟩, rfl⟩ hcomponents),
    Theme.isRead_of_reads (.of_field hv (reads_empty rfl) htheme),
    Settings.isRead_of_reads (.of_field hv (reads_empty rfl) hsettings)⟩

theorem isTime_of_isRead {t : Template} (h : t.IsRead) : ∀ x ∈ t.times, x.IsTime := by
  intro x hx
  simp only [times, List.mem_append, List.mem_map, Option.mem_toList, List.mem_cons, List.not_mem_nil, or_false] at hx
  obtain ⟨a, ha | ha, rfl⟩ | rfl | rfl := hx
  · exact h.theme.animation a ha
  · exact h.settings.animation a ha
  · exact h.settings.autoHide
  · exact h.settings.reshow

/-- A template that was read from a JSON document with finite numbers is read again from what is written of it, as it
was: it only loses blocks of positions without an offset and other colours that are null, and each of its times is the
same number, now a floating point number. -/
theorem read_written {v : Json} {t : Template} (hv : v.IsFinite) (h : read v = .valid t) :
    read t.json = .valid t.trimmed.exact ∧ ∀ x ∈ t.times, x.compare? (.float x.toDouble) = some .eq := by
  have ht : t.IsRead := isRead_of_reads ⟨v, hv, h⟩
  refine ⟨?_, fun x hx => (isTime_of_isRead ht x hx).same⟩
  have hkeys : (t.fields.map (·.1)).Nodup := by simp [fields]
  have hid : field (givenFields t.fields) ["_id", "id"] none readId = .valid t.id := by
    refine field_optional hkeys rfl (List.forall_mem_singleton.2 rfl) ?_
    rintro id hid
    rw [Option.mem_def.1 hid]
    exact ⟨rfl, rfl⟩
  have hname : field (givenFields t.fields) ["name"] none (nullable string) = .valid t.name :=
    field_text hkeys rfl (List.forall_mem_nil _)
  have hlayout : field (givenFields t.fields) ["layout"] {} Layout.read = .valid t.layout :=
    field_given hkeys rfl rfl t.layout.read_givenJson
  have hcomponents : field (givenFields t.fields) ["components"] [] Component.readList =
      .valid (Component.trimmedAll t.components) := field_given hkeys rfl rfl ht.components
  have htheme : field (givenFields t.fields) ["theme"] {} Theme.read = .valid t.theme.trimmed.exact :=
    field_given hkeys rfl rfl (Theme.read_givenJson ht.theme)
  have hsettings : field (givenFields t.fields) ["settings"] {} Settings.read = .valid t.settings.exact :=
    field_given hkeys rfl rfl (Settings.read_givenJson ht.settings)
  rw [json, read, model, hid, hname, hlayout, hcomponents, htheme, hsettings]
  rfl

/-- A container with a button in it, whose position has no offset on the desktop, and a colour that is null. -/
def nestedDocument : Json := .obj [
  ("_id", .int 7),
  ("components", .arr [.obj [
    ("id", .str "box"), ("type", .str "container"),
    ("position", .obj [("desktop", .obj [("zIndex", .int 2)]), ("mobile", .obj [("top", .int 5)])]),
    ("children", .arr [.obj [
      ("id", .str "accept"), ("type", .str "button"), ("action", .str "accept_all"),
      ("content", .obj [("texts", .obj [("en", .str "Accept"), ("fr", .null)])])]])]]),
  ("theme", .obj [("colors", .obj [("primary", .str "#fff"), ("link", .null), ("accent", .str "red")]),
    ("animation", .obj [("type", .str "slide")])])]

def nestedTemplate : Template where
  id := some "7"
  components := [.node { id := "box", kind := .container, position := [(.desktop, []), (.mobile, [(.top, "5%")])] }
    [.node { id := "accept", kind := .button, content := .localized [("en", "Accept")],
             action := { kind := .acceptAll } } []]]
  theme := { colors := { primary := some "#fff", others := [("link", .null), ("accent", .str "red")] },
             animation := some { kind := .slide } }

theorem read_written_nested : nestedDocument.IsFinite ∧ read nestedDocument = .valid nestedTemplate ∧
    read nestedTemplate.json = .valid nestedTemplate.trimmed.exact ∧
    ∀ x ∈ nestedTemplate.times, x.compare? (.float x.toDouble) = some .eq :=
  ⟨⟨by decide +kernel, rfl⟩, rfl, read_written (v := nestedDocument) ⟨by decide +kernel, rfl⟩ rfl⟩

end Template

end ConsentBanner
