import ConsentBanner.Proofs.Validation.Component
import ConsentBanner.Validation.Layout
import ConsentBanner.Validation.Theme

/-!
The parts of a template whose checks come to a result, with whatever complaints.
-/

namespace ConsentBanner.Validation

/-- A value that can be looked up among names: one without parts, or a set. -/
def IsNameable (v : Json) : Prop := v.isScalar = true ∨ ∃ items, v = .set items

theorem isOk_isNameOf {α : Type} [Named α] {v : Json} : (∃ known, isNameOf α v = .ok known) ↔ IsNameable v := by
  unfold isNameOf IsNameable
  split
  · simp [Json.isScalar]
  · simp
  · rename_i hset
    have hno : ¬ ∃ items, v = .set items := fun ⟨items, h⟩ => hset items h
    cases v.isScalar with
    | true => simp
    | false => simp [hno]

/-- The digits at the start of a text, after white space and a minus. -/
def leadingDigits (cs : List Char) : List Char :=
  let rest := cs.dropWhile Text.isBlank
  (if rest.head? = some '-' then rest.tail else rest).takeWhile Text.isDecimalDigit

/-- A length whose integer part can be looked for: a number has to be finite, and a text to begin with few digits. -/
def IsTellable : Json → Prop
  | .float x => x.isFinite = true
  | .str s => (leadingDigits s.toList).length ≤ Text.maxDigits
  | _ => True

theorem isOk_leadingNatural? {cs : List Char} :
    (∃ n, leadingNatural? cs = .ok n) ↔ (cs.takeWhile Text.isDecimalDigit).length ≤ Text.maxDigits := by
  unfold leadingNatural?
  dsimp only
  split
  · rename_i h
    simpa using h
  · rename_i h
    simpa using h

theorem isOk_leadingLength? {v : Json} : (∃ n, leadingLength? v = .ok n) ↔ IsTellable v := by
  cases v with
  | str s =>
    change (∃ n, leadingInteger? s.toList = .ok n) ↔ (leadingDigits s.toList).length ≤ Text.maxDigits
    have hmap {x : Except Fault (Option Nat)} {g : Option Nat → Option Int} :
        (∃ n, x.map g = .ok n) ↔ ∃ n, x = .ok n := by
      cases x with
      | error f => simp [Except.map]
      | ok n => simp [Except.map]
    unfold leadingInteger? leadingDigits
    dsimp only
    split
    · rename_i rest hrest
      rw [hmap, isOk_leadingNatural?, hrest, List.head?_cons, if_pos rfl, List.tail_cons]
    · rename_i hminus
      have hhead : ¬ (s.toList.dropWhile Text.isBlank).head? = some '-' := by
        intro h
        obtain ⟨rest, hrest⟩ := List.head?_eq_some_iff.1 h
        exact hminus rest hrest
      rw [hmap, isOk_leadingNatural?, if_neg hhead]
  | float x =>
    cases x with
    | _ => simp [leadingLength?, IsTellable, Double.isFinite]
  | _ => simp [leadingLength?, IsTellable]

/-- A block of a layout that can be checked. -/
structure BlockCheckable (block : List (String × Json)) : Prop where
  kind : IsNameable (valueOf "type" block)
  anchor : IsNameable (valueOf "position" block)
  width : IsTellable (valueOf "width" block)
  height : IsTellable (valueOf "height" block)

theorem isOk_checkDevice {limits : Limits} {d : Device} {block : List (String × Json)} :
    (∃ cs, checkDevice limits d block = .ok cs) ↔ BlockCheckable block := by
  unfold checkDevice
  rw [isOk_bind fun _ => isOk_bind fun _ => isOk_bind fun _ => isOk_bind_pure, isOk_isNameOf, isOk_isNameOf,
    isOk_leadingLength?, isOk_leadingLength?]
  constructor
  · rintro ⟨hkind, hanchor, hwidth, hheight⟩
    exact ⟨hkind, hanchor, hwidth, hheight⟩
  · rintro ⟨hkind, hanchor, hwidth, hheight⟩
    exact ⟨hkind, hanchor, hwidth, hheight⟩

/-- The blocks of a layout for some devices can be checked. -/
def BlocksCheckable (devices : List Device) (layout : List (String × Json)) : Prop :=
  ∀ d ∈ devices, ∀ block, valueOf (Named.name d) layout = .obj block → BlockCheckable block

theorem isOk_checkDevices {limits : Limits} {layout : List (String × Json)} (devices : List Device) :
    (∃ cs, checkDevices limits layout devices = .ok cs) ↔ BlocksCheckable devices layout := by
  induction devices with
  | nil => simp [checkDevices, BlocksCheckable]
  | cons d rest ih =>
    have hrest (here : List Complaint) :
        (∃ cs, (checkDevices limits layout rest >>= fun more => pure (here ++ more)) = Except.ok cs) ↔
          BlocksCheckable rest layout := by
      rw [isOk_bind_pure, ih]
    unfold checkDevices
    dsimp only
    rw [BlocksCheckable, List.forall_mem_cons]
    split
    · rename_i hnull
      simp only [isOk_bind hrest, valueOf, hnull]
      simp [pure, Except.pure, BlocksCheckable]
    · rename_i block hblock
      simp only [isOk_bind hrest, valueOf, hblock, isOk_checkDevice]
      simp [BlocksCheckable]
    · rename_i hobj
      simp only [isOk_bind hrest]
      refine and_congr (iff_of_true ⟨_, rfl⟩ fun block hblock => ?_) Iff.rfl
      exact (hobj block hblock).elim

/-- A layout without a desktop is not looked into; otherwise the blocks of all devices have to be checkable. -/
def LayoutCheckable (v : Json) : Prop :=
  ∀ layout, v = .obj layout → (∃ desktop, Fields.get? "desktop" layout = some (.obj desktop)) →
    ∀ (d : Device) block, valueOf (Named.name d) layout = .obj block → BlockCheckable block

theorem isOk_checkLayout {limits : Limits} {v : Json} : (∃ cs, checkLayout limits v = .ok cs) ↔ LayoutCheckable v := by
  unfold checkLayout LayoutCheckable
  split
  · rename_i layout
    split
    · rename_i desktop hdesktop
      rw [isOk_checkDevices]
      constructor
      · rintro h _ ⟨⟩ - d block hblock
        exact h d (by cases d <;> decide) block hblock
      · intro h d _ block hblock
        exact h layout rfl ⟨desktop, hdesktop⟩ d block hblock
    · rename_i hdesktop
      constructor
      · rintro - _ ⟨⟩ ⟨desktop, h⟩
        exact (hdesktop desktop h).elim
      · exact fun _ => ⟨_, rfl⟩
  · rename_i hobj
    constructor
    · intro _ layout h
      exact (hobj layout h).elim
    · exact fun _ => ⟨_, rfl⟩

/-- Settings without an animation are not looked into; the kind of an animation has to be one that can be looked up. -/
def SettingsCheckable (v : Json) : Prop :=
  ∀ settings animation, v = .obj settings → valueOf "animation" settings = .obj animation →
    IsNameable (valueOf "type" animation)

theorem isOk_checkAnimation {v : Json} :
    (∃ cs, checkAnimation v = .ok cs) ↔ ∀ animation, v = .obj animation → IsNameable (valueOf "type" animation) := by
  unfold checkAnimation
  split
  · simp
  · rename_i animation
    rw [isOk_bind_pure, isOk_isNameOf]
    constructor
    · rintro h _ ⟨⟩
      exact h
    · intro h
      exact h animation rfl
  · rename_i hobj
    constructor
    · intro _ animation h
      exact (hobj animation h).elim
    · exact fun _ => ⟨_, rfl⟩

theorem isOk_checkSettings {v : Json} : (∃ cs, checkSettings v = .ok cs) ↔ SettingsCheckable v := by
  unfold checkSettings SettingsCheckable
  split
  · simp
  · rename_i settings
    rw [isOk_bind_pure, isOk_checkAnimation]
    constructor
    · rintro h _ animation ⟨⟩ hanimation
      exact h animation hanimation
    · intro h animation hanimation
      exact h settings animation rfl hanimation
  · rename_i hobj
    constructor
    · intro _ settings _ h
      exact (hobj settings h).elim
    · exact fun _ => ⟨_, rfl⟩

/-- Content whose text can be measured: there is none, or it is a text or bytes. -/
def IsMeasurable (content : Json) : Prop :=
  ∃ t, rawText content = .ok t ∧ (t.isSet = true → (∃ s, t = .str s) ∨ ∃ bs, t = .bytes bs)

/-- The fields of a component that can be checked, whatever is inside it. -/
structure FieldsCheckable (fields : List (String × Json)) : Prop where
  id : (valueOf "id" fields).isSet = true → (valueOf "id" fields).isScalar = true
  kind : IsNameable (valueOf "type" fields)
  action : (actionOf fields).isScalar = true
  text : ∀ kind : ComponentKind, valueOf "type" fields = .str (Named.name kind) → kind.bearsText = true →
    ¬ Bypasses (actionOf fields) → IsMeasurable (valueOf "content" fields)

section Component

variable {limits : Limits} {path : Path} {seen : List Json} {fields : List (String × Json)}

theorem isOk_checkId :
    (∃ r, checkId path seen fields = .ok r) ↔
      ((valueOf "id" fields).isSet = true → (valueOf "id" fields).isScalar = true) := by
  unfold checkId
  dsimp only
  split
  · rename_i hset
    simp only [Bool.not_eq_true'] at hset
    simp [hset]
  · rename_i hset
    simp only [Bool.not_eq_true', Bool.not_eq_false] at hset
    split
    · rename_i hscalar
      simpa [hset] using hscalar
    · rename_i hscalar
      split
      · simpa [hset] using hscalar
      · simpa [hset] using hscalar

theorem isOk_checkKind : (∃ cs, checkKind path fields = .ok cs) ↔ IsNameable (valueOf "type" fields) := by
  unfold checkKind
  rw [isOk_bind_pure, isOk_isNameOf]

theorem isOk_checkAction (h : (actionOf fields).isScalar = true) : ∃ cs, checkAction path fields = .ok cs := by
  unfold checkAction
  split
  · exact ⟨_, rfl⟩
  · exact isOk_bind_pure.2 (isOk_isNameOf.2 (.inl h))

theorem isOk_checkLength {kind : ComponentKind} {t : Json} :
    (∃ cs, checkLength limits kind path t = .ok cs) ↔
      (t.isSet = true → (∃ s, t = .str s) ∨ ∃ bs, t = .bytes bs) := by
  unfold checkLength
  split
  · rename_i hset
    simp only [Bool.not_eq_true'] at hset
    simp [hset]
  · rename_i hset
    simp only [Bool.not_eq_true', Bool.not_eq_false] at hset
    split
    · split
      · simp
      · split
        · simp
        · simp
    · split
      · simp
      · split
        · simp
        · simp
    · rename_i hstr hbytes
      simp only [reduceCtorEq, exists_false, false_iff]
      intro h
      obtain ⟨s, hs⟩ | ⟨bs, hbs⟩ := h hset
      · exact hstr s hs
      · exact hbytes bs hbs

theorem isOk_checkText :
    (∃ cs, checkText limits path fields = .ok cs) ↔
      ∀ kind : ComponentKind, valueOf "type" fields = .str (Named.name kind) → kind.bearsText = true →
        ¬ Bypasses (actionOf fields) → IsMeasurable (valueOf "content" fields) := by
  unfold checkText
  split
  · rename_i kind hk
    have hn := kindOf_eq_some_iff.1 hk
    have hu : ∀ k : ComponentKind, valueOf "type" fields = .str (Named.name k) → k = kind := fun k hk' =>
      Option.some.inj ((kindOf_eq_some_iff.2 hk').symm.trans hk)
    split
    · rename_i hb
      simp only [Bool.or_eq_true, Bool.not_eq_true', bypassesText_iff] at hb
      constructor
      · intro _ k hk' ht hp
        cases hu k hk'
        rcases hb with hb | hb
        · simp [hb] at ht
        · exact (hp hb).elim
      · exact fun _ => ⟨_, rfl⟩
    · rename_i hb
      simp only [Bool.or_eq_true, Bool.not_eq_true', bypassesText_iff, not_or, Bool.not_eq_false] at hb
      have hmeasurable : (∃ cs, (rawText (valueOf "content" fields) >>= checkLength limits kind path) = .ok cs) ↔
          IsMeasurable (valueOf "content" fields) := by
        simp only [bind_eq_ok, IsMeasurable]
        rw [exists_comm]
        simp only [exists_and_left, isOk_checkLength]
      refine hmeasurable.trans ⟨fun h _ _ _ _ => h, fun h => h kind hn hb.1 hb.2⟩
  · rename_i hk
    constructor
    · intro _ kind hn
      exact (hk kind (kindOf_eq_some_iff.2 hn)).elim
    · exact fun _ => ⟨_, rfl⟩

/-- Apart from the action, which is looked up among the actions of all components once more. -/
theorem isOk_checkComponent (hseen : (actionOf fields).isScalar = true) :
    (∃ r, checkComponent limits path seen fields = .ok r) ↔ FieldsCheckable fields := by
  unfold checkComponent
  rw [isOk_bind fun _ => isOk_bind fun _ => isOk_bind fun _ => isOk_bind_pure, isOk_checkId, isOk_checkKind,
    isOk_checkText]
  constructor
  · rintro ⟨hid, hkind, -, htext⟩
    exact ⟨hid, hkind, hseen, htext⟩
  · rintro ⟨hid, hkind, haction, htext⟩
    exact ⟨hid, hkind, isOk_checkAction haction, htext⟩

end Component

end ConsentBanner.Validation
