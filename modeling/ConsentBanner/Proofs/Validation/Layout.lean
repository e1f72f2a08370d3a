import ConsentBanner.Proofs.Text
import ConsentBanner.Proofs.Validation.Component
import ConsentBanner.Validation.Layout

/-!
Layouts that fit: the desktop is laid out, and every device that is laid out has a known kind and a known
anchor and keeps to the limits.
-/

namespace ConsentBanner.Validation

/-- A text begins with a natural number, to which all digits at its start belong. -/
def LeadingNatural (cs : List Char) (n : Nat) : Prop :=
  ∃ digits rest, cs = digits ++ rest ∧ (∀ c ∈ digits, Text.isDecimalDigit c = true) ∧
    (∀ c ∈ rest.head?, Text.isDecimalDigit c = false) ∧ Text.numeralValue? 10 digits = some n

/-- The integer part of a length: that of a number, or the integer with which a text begins after white
space. -/
inductive LeadingInteger : Json → Int → Prop where
  | int (n : Int) : LeadingInteger (.int n) n
  | float {x : Double} {n : Int} (h : x.truncate? = some n) : LeadingInteger (.float x) n
  | natural {s : String} {blanks cs : List Char} {n : Nat} (hs : s.toList = blanks ++ cs)
      (hb : ∀ c ∈ blanks, Text.isBlank c = true) (hn : LeadingNatural cs n) : LeadingInteger (.str s) n
  | negative {s : String} {blanks cs : List Char} {n : Nat} (hs : s.toList = blanks ++ '-' :: cs)
      (hb : ∀ c ∈ blanks, Text.isBlank c = true) (hn : LeadingNatural cs n) : LeadingInteger (.str s) (-n)

theorem leadingNatural?_iff {cs : List Char} {r : Option Nat} (h : leadingNatural? cs = .ok r) (n : Nat) :
    r = some n ↔ LeadingNatural cs n := by
  simp only [leadingNatural?] at h
  split at h
  · cases h
  · cases h
    constructor
    · intro hn
      exact ⟨_, _, (List.takeWhile_append_dropWhile (p := Text.isDecimalDigit) (l := cs)).symm,
        fun c hc => Text.of_mem_takeWhile hc, Text.head?_dropWhile_false cs, hn⟩
    · rintro ⟨digits, rest, rfl, hd, hr, hn⟩
      rw [Text.takeWhile_append_of_end hd hr]
      exact hn

theorem LeadingNatural.head_digit {cs : List Char} {n : Nat} (h : LeadingNatural cs n) :
    ∃ c rest, cs = c :: rest ∧ Text.isDecimalDigit c = true := by
  obtain ⟨digits, rest, rfl, hd, -, hn⟩ := h
  cases digits with
  | nil => cases hn
  | cons c digits => exact ⟨c, digits ++ rest, rfl, hd c (by simp)⟩

theorem dropWhile_leading {blanks cs : List Char} (hb : ∀ c ∈ blanks, Text.isBlank c = true)
    (hc : ∃ c rest, cs = c :: rest ∧ (c = '-' ∨ Text.isDecimalDigit c = true)) :
    (blanks ++ cs).dropWhile Text.isBlank = cs := by
  apply Text.dropWhile_append_of_end hb
  obtain ⟨c, rest, rfl, rfl | hc⟩ := hc
  · simp [Text.isBlank]
  · simp [Text.isBlank_of_isDecimalDigit hc]

theorem leadingInteger?_iff {s : String} {r : Option Int} (h : leadingInteger? s.toList = .ok r) (n : Int) :
    r = some n ↔ LeadingInteger (.str s) n := by
  have hs := (List.takeWhile_append_dropWhile (p := Text.isBlank) (l := s.toList)).symm
  have hb : ∀ c ∈ s.toList.takeWhile Text.isBlank, Text.isBlank c = true := fun c hc => Text.of_mem_takeWhile hc
  constructor
  · rintro rfl
    unfold leadingInteger? at h
    split at h
    · rename_i rest hd
      obtain ⟨r, hr, he⟩ := map_eq_ok.1 h
      obtain ⟨m, rfl, rfl⟩ := Option.map_eq_some_iff.1 he
      rw [hd] at hs
      exact .negative hs hb ((leadingNatural?_iff hr m).1 rfl)
    · obtain ⟨r, hr, he⟩ := map_eq_ok.1 h
      obtain ⟨m, rfl, rfl⟩ := Option.map_eq_some_iff.1 he
      exact .natural hs hb ((leadingNatural?_iff hr m).1 rfl)
  · intro hi
    cases hi with
    | natural hs hb hn =>
      obtain ⟨c, rest, rfl, hc⟩ := hn.head_digit
      have hm : c ≠ '-' := by
        rintro rfl
        simp [Text.isDecimalDigit, Text.digitValue?, Text.digitZeros] at hc
      rw [hs, leadingInteger?, dropWhile_leading hb ⟨c, rest, rfl, .inr hc⟩] at h
      split at h
      · rename_i he
        cases he
        exact (hm rfl).elim
      · obtain ⟨r, hr, rfl⟩ := map_eq_ok.1 h
        rw [(leadingNatural?_iff hr _).2 hn]
        rfl
    | negative hs hb hn =>
      rw [hs, leadingInteger?, dropWhile_leading hb ⟨'-', _, rfl, .inl rfl⟩] at h
      obtain ⟨r, hr, rfl⟩ := map_eq_ok.1 h
      rw [(leadingNatural?_iff hr _).2 hn]
      rfl

theorem leadingLength?_iff {v : Json} {r : Option Int} (h : leadingLength? v = .ok r) (n : Int) :
    r = some n ↔ LeadingInteger v n := by
  cases v with
  | str s => exact leadingInteger?_iff h n
  | int m =>
    cases h
    constructor
    · rintro ⟨⟩
      exact .int n
    · rintro ⟨⟩
      rfl
  | float x =>
    cases x with
    | nan => cases h
    | infinite negative => cases h
    | finite negative m q =>
      cases h
      constructor
      · exact .float
      · rintro ⟨⟩
        assumption
  | _ =>
    cases h
    constructor
    · rintro ⟨⟩
    · rintro ⟨⟩

theorem exceeds_eq_false_iff {limit : Int} {r : Option Int} {v : Json} (h : leadingLength? v = .ok r) :
    exceeds limit r = false ↔ ∀ n, LeadingInteger v n → n ≤ limit := by
  cases r with
  | none =>
    constructor
    · intro _ n hn
      cases (leadingLength?_iff h n).2 hn
    · intro _
      rfl
  | some m =>
    constructor
    · intro he n hn
      cases (leadingLength?_iff h n).2 hn
      simpa [exceeds] using he
    · intro hl
      simpa [exceeds] using hl m ((leadingLength?_iff h m).1 rfl)

/-- The layout of a device that may be laid out so. -/
structure BlockFits (limits : Limits) (block : List (String × Json)) : Prop where
  kind : IsNameOf LayoutKind (valueOf "type" block)
  anchor : IsNameOf Anchor (valueOf "position" block)
  width : ∀ n, LeadingInteger (valueOf "width" block) n → n ≤ limits.maxWidth
  height : ∀ n, LeadingInteger (valueOf "height" block) n → n ≤ limits.maxHeight

/-- A layout as a template may have it. -/
structure LayoutFits (limits : Limits) (layout : List (String × Json)) : Prop where
  desktop : ∃ block, Fields.get? "desktop" layout = some (.obj block)
  devices : ∀ d : Device, valueOf (Named.name d) layout = .null ∨
    ∃ block, valueOf (Named.name d) layout = .obj block ∧ BlockFits limits block

theorem checkDevice_eq_nil_iff {limits : Limits} {d : Device} {block : List (String × Json)}
    {cs : List Complaint} (h : checkDevice limits d block = .ok cs) : cs = [] ↔ BlockFits limits block := by
  simp only [checkDevice, bind_eq_ok] at h
  obtain ⟨kind, hk, anchor, ha, width, hw, height, hh, h⟩ := h
  cases h
  simp only [List.append_eq_nil_iff, unless_eq_nil_iff, when_eq_nil_iff, isNameOf_iff hk, isNameOf_iff ha,
    exceeds_eq_false_iff hw, exceeds_eq_false_iff hh]
  constructor
  · rintro ⟨⟨⟨hk, ha⟩, hw⟩, hh⟩
    exact ⟨hk, ha, hw, hh⟩
  · rintro ⟨hk, ha, hw, hh⟩
    exact ⟨⟨⟨hk, ha⟩, hw⟩, hh⟩

theorem checkDevices_eq_nil_iff {limits : Limits} {layout : List (String × Json)} {devices : List Device}
    {cs : List Complaint} (h : checkDevices limits layout devices = .ok cs) :
    cs = [] ↔ ∀ d ∈ devices, valueOf (Named.name d) layout = .null ∨
      ∃ block, valueOf (Named.name d) layout = .obj block ∧ BlockFits limits block := by
  induction devices generalizing cs with
  | nil =>
    cases h
    simp
  | cons d devices ih =>
    simp only [checkDevices] at h
    rw [List.forall_mem_cons]
    split at h
    · rename_i hv
      simp only [bind_eq_ok] at h
      obtain ⟨_, ⟨⟩, rest, hr, h⟩ := h
      cases h
      rw [List.nil_append, ih hr]
      simp [hv]
    · rename_i block hv
      simp only [bind_eq_ok] at h
      obtain ⟨here, hd, rest, hr, h⟩ := h
      cases h
      rw [List.append_eq_nil_iff, ih hr, checkDevice_eq_nil_iff hd]
      simp [hv]
    · rename_i hn ho
      simp only [bind_eq_ok] at h
      obtain ⟨_, ⟨⟩, rest, hr, h⟩ := h
      cases h
      constructor
      · intro he
        cases he
      · rintro ⟨hv | ⟨block, hv, -⟩, -⟩
        · exact (hn hv).elim
        · exact (ho block hv).elim

theorem checkLayout_eq_nil_iff {limits : Limits} {v : Json} {cs : List Complaint}
    (h : checkLayout limits v = .ok cs) : cs = [] ↔ ∃ layout, v = .obj layout ∧ LayoutFits limits layout := by
  cases v with
  | obj layout =>
    simp only [checkLayout] at h
    split at h
    · rename_i block hd
      rw [checkDevices_eq_nil_iff h]
      constructor
      · intro hf
        exact ⟨layout, rfl, ⟨block, hd⟩, fun d => hf d (by cases d <;> decide)⟩
      · rintro ⟨_, ⟨⟩, hf⟩ d _
        exact hf.devices d
    · rename_i hd
      cases h
      simp only [reduceCtorEq, false_iff]
      rintro ⟨_, ⟨⟩, hf⟩
      obtain ⟨block, hb⟩ := hf.desktop
      exact hd block hb
  | _ =>
    cases h
    simp

end ConsentBanner.Validation
