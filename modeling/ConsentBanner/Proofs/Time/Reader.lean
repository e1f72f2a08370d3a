import ConsentBanner.Proofs.Outcome
import ConsentBanner.Proofs.Text.Integer
import ConsentBanner.Time.Clock
import ConsentBanner.Time.Reader

/-!
Moments are read as they were written.
-/

namespace ConsentBanner

theorem Text.plainValue_eq (ds : List Char) : Text.plainValue ds = Nat.ofDigitChars 10 ds 0 := by
  have hstep : (fun n (c : Char) => n * 10 + (c.toNat - '0'.toNat)) =
      fun n (c : Char) => 10 * n + (c.toNat - '0'.toNat) := by
    funext n c
    rw [Nat.mul_comm]
  rw [Text.plainValue, Nat.ofDigitChars, hstep]

theorem length_le_utf8ByteSize (cs : List Char) : cs.length ≤ (String.ofList cs).utf8ByteSize := by
  induction cs with
  | nil => exact Nat.zero_le _
  | cons c rest ih =>
    have hcons : String.ofList (c :: rest) = String.singleton c ++ String.ofList rest := by
      rw [String.singleton_eq_ofList, ← String.ofList_append]
      rfl
    have hpos := Char.utf8Size_pos c
    rw [hcons, String.utf8ByteSize_append, String.utf8ByteSize_singleton, List.length_cons]
    omega

section Padded

variable {width n : Nat}

theorem toList_paddedNat (width n : Nat) :
    (paddedNat width n).toList =
      List.replicate (width - (Nat.toDigits 10 n).length) '0' ++ Nat.toDigits 10 n := by
  rw [paddedNat, String.toList_ofList, Nat.toString_eq_repr, Nat.toList_repr]

theorem isDigit_of_mem_paddedNat {c : Char} (h : c ∈ (paddedNat width n).toList) : c.isDigit := by
  rw [toList_paddedNat, List.mem_append] at h
  obtain h | h := h
  · rw [List.eq_of_mem_replicate h]
    rfl
  · exact Nat.isDigit_of_mem_toDigits (by decide) (by decide) h

theorem length_paddedNat (hwidth : 0 < width) (h : n < Nat.pow 10 width) :
    (paddedNat width n).toList.length = width := by
  have hle := (Nat.length_toDigits_le_iff (by decide : 1 < 10) hwidth).2 h
  rw [toList_paddedNat, List.length_append, List.length_replicate]
  omega

theorem plainValue_paddedNat (width n : Nat) : Text.plainValue (paddedNat width n).toList = n := by
  rw [Text.plainValue_eq, toList_paddedNat, Nat.ofDigitChars_append, Nat.ofDigitChars_replicate_zero, Nat.mul_zero,
    Nat.ofDigitChars_ten_toDigits]

theorem fixed?_paddedNat (hwidth : 0 < width) (h : n < Nat.pow 10 width) (rest : List Char) :
    Moment.fixed? width ((paddedNat width n).toList ++ rest) = some (n, rest) := by
  have hlength := length_paddedNat hwidth h
  have htake : ((paddedNat width n).toList ++ rest).take width = (paddedNat width n).toList :=
    List.take_left' hlength
  have hdrop : ((paddedNat width n).toList ++ rest).drop width = rest := List.drop_left' hlength
  have hne : (paddedNat width n).toList ≠ [] := by
    apply List.ne_nil_of_length_pos
    rw [hlength]
    exact hwidth
  have hdigits : Moment.digits? (paddedNat width n).toList = some n := by
    rw [Moment.digits?, plainValue_paddedNat, if_pos]
    rw [Bool.and_eq_true, Bool.not_eq_true', List.isEmpty_eq_false_iff, List.all_eq_true]
    exact ⟨hne, fun c hc => isDigit_of_mem_paddedNat hc⟩
  unfold Moment.fixed?
  rw [htake, hdrop]
  dsimp only
  rw [if_pos hlength, hdigits, Option.map_some]

theorem fixed?_two (h : n < 100) (rest : List Char) :
    Moment.fixed? 2 ((paddedNat 2 n).toList ++ rest) = some (n, rest) := fixed?_paddedNat (by decide) h rest

end Padded

namespace Moment

theorem daysInMonth_le (year month : Nat) : daysInMonth year month ≤ 31 := by
  rw [daysInMonth]
  split
  · split
    · decide
    · decide
  split
  · decide
  · decide

theorem toList_dateText (d : Date) (rest : List Char) :
    d.text.toList ++ rest = (paddedNat 4 d.year).toList ++ ('-' :: ((paddedNat 2 d.month).toList ++
      ('-' :: ((paddedNat 2 d.day).toList ++ rest)))) := by
  simp [Date.text]

theorem datePart_text (d : Date) (rest : List Char) :
    datePart (d.text.toList ++ rest) = .ok (⟨d.year, d.month, d.day⟩, rest) := by
  have hyear : d.year < Nat.pow 10 4 := Nat.lt_succ_of_le d.year_bounds.2
  have hmonth : d.month < 100 := Nat.lt_of_le_of_lt d.month_bounds.2 (by decide)
  have hday : d.day < 100 := by
    have h := d.day_bounds
    have hle := daysInMonth_le d.year d.month
    omega
  have hlength {n : Nat} (h : n < 100) : (paddedNat 2 n).toList.length = 2 := length_paddedNat (by decide) h
  have hfour : (paddedNat 4 d.year).toList.length = 4 := length_paddedNat (by decide) hyear
  have hbytes : ¬ (String.ofList (d.text.toList ++ rest)).utf8ByteSize < 10 := by
    have hle := length_le_utf8ByteSize (d.text.toList ++ rest)
    rw [toList_dateText] at hle ⊢
    simp only [List.length_append, List.length_cons, hfour, hlength hmonth, hlength hday] at hle
    omega
  have hmonths : (d.month < 1 || 12 < d.month) = false := by
    have := d.month_bounds
    simp
    omega
  have hdays : (d.day < 1 || daysInMonth d.year d.month < d.day) = false := by
    have := d.day_bounds
    simp
    omega
  unfold datePart
  rw [if_neg hbytes, toList_dateText]
  simp only [fixed?_paddedNat (by decide) hyear, fixed?_two hmonth, fixed?_two hday]
  rw [hmonths, hdays]
  rfl

/-- The offset of a clock is less than a day. -/
def IsZoned (m : Moment) : Prop := ∀ z ∈ m.zone, z.natAbs < 1440

def zoneList (zone : Option Int) : List Char := ((zone.map zoneText).getD "").toList

theorem toList_zoneText (z : Int) :
    (zoneText z).toList = (if z < 0 then '-' else '+') :: ((paddedNat 2 (z.natAbs / 60)).toList ++
      ':' :: ((paddedNat 2 (z.natAbs % 60)).toList ++ [])) := by
  rw [zoneText]
  split
  · simp
  · simp

theorem zonePart?_signed {sign : Char} (hsign : sign = '+' ∨ sign = '-') {hours minutes : Nat}
    (hhours : hours < 24) (hminutes : minutes < 60) :
    zonePart? (sign :: ((paddedNat 2 hours).toList ++ ':' :: ((paddedNat 2 minutes).toList ++ []))) =
      some (some (if sign == '+' then (hours * 60 + minutes : Int) else -(hours * 60 + minutes : Int))) := by
  have hsigned : (sign == '+' || sign == '-' || sign == '\u2212') = true := by
    obtain rfl | rfl := hsign
    · rfl
    · rfl
  have hletter (letter : Char) (hne : letter = 'Z' ∨ letter = 'z') (h : sign = letter) : False := by
    obtain rfl | rfl := hsign
    · obtain rfl | rfl := hne
      · cases h
      · cases h
    · obtain rfl | rfl := hne
      · cases h
      · cases h
  rw [zonePart?, if_pos hsigned, fixed?_two (by omega)]
  · dsimp only
    rw [afterColon, fixed?_two (by omega)]
    dsimp only
    rw [if_pos (by simpa using ⟨hminutes, hhours⟩)]
  · exact fun h _ => hletter 'Z' (.inl rfl) h
  · exact fun h _ => hletter 'z' (.inr rfl) h

theorem zonePart?_zoneList {zone : Option Int} (h : ∀ z ∈ zone, z.natAbs < 1440) :
    zonePart? (zoneList zone) = some zone := by
  cases zone with
  | none => rfl
  | some z =>
    have hz : z.natAbs < 1440 := h z rfl
    have hlist : zoneList (some z) = (zoneText z).toList := rfl
    rw [hlist, toList_zoneText]
    by_cases hneg : z < 0
    · rw [if_pos hneg, zonePart?_signed (.inr rfl) (by omega) (by omega), if_neg (by decide)]
      congr
      omega
    · rw [if_neg hneg, zonePart?_signed (.inl rfl) (by omega) (by omega), if_pos (by decide)]
      congr
      omega

theorem zoneList_head {zone : Option Int} {c : Char} {cs : List Char} (h : zoneList zone = c :: cs) :
    c = '+' ∨ c = '-' := by
  cases zone with
  | none => cases h
  | some z =>
    have hlist : zoneList (some z) = (zoneText z).toList := rfl
    rw [hlist, toList_zoneText] at h
    split at h
    · cases h
      exact .inr rfl
    · cases h
      exact .inl rfl

def fractionList (micro : Nat) : List Char := (if micro = 0 then "" else "." ++ paddedNat 6 micro).toList

theorem fractionMicros_paddedNat {micro : Nat} (h : micro < 1000000) :
    fractionMicros (paddedNat 6 micro).toList = micro := by
  have hlength : (paddedNat 6 micro).toList.length = 6 := length_paddedNat (by decide) h
  rw [fractionMicros, List.take_of_length_le (Nat.le_of_eq hlength), hlength, Nat.sub_self, List.replicate_zero,
    List.append_nil, plainValue_paddedNat]

theorem secondsPart?_text {second micro : Nat} (hsecond : second < 60) (hmicro : micro < 1000000)
    (zone : Option Int) :
    secondsPart? (':' :: ((paddedNat 2 second).toList ++ (fractionList micro ++ zoneList zone))) =
      some (second, micro, zoneList zone) := by
  rw [secondsPart?, fixed?_two (by omega)]
  by_cases hzero : micro = 0
  · subst hzero
    have hnone : fractionList 0 ++ zoneList zone = zoneList zone := rfl
    rw [hnone]
    cases hcs : zoneList zone with
    | nil => rfl
    | cons c cs =>
      obtain rfl | rfl := zoneList_head hcs
      · rfl
      · rfl
  · have hsome : fractionList micro ++ zoneList zone = '.' :: ((paddedNat 6 micro).toList ++ zoneList zone) := by
      rw [fractionList, if_neg hzero]
      simp
    have hdigits : ∀ c ∈ (paddedNat 6 micro).toList, c.isDigit := fun c hc => isDigit_of_mem_paddedNat hc
    have hstop : (zoneList zone).takeWhile Char.isDigit = [] ∧
        (zoneList zone).dropWhile Char.isDigit = zoneList zone := by
      cases hcs : zoneList zone with
      | nil => exact ⟨rfl, rfl⟩
      | cons c cs =>
        obtain rfl | rfl := zoneList_head hcs
        · exact ⟨rfl, rfl⟩
        · exact ⟨rfl, rfl⟩
    have hne : ¬ (paddedNat 6 micro).toList.isEmpty := by
      rw [List.isEmpty_iff_length_eq_zero, length_paddedNat (by decide) hmicro]
      decide
    rw [hsome]
    dsimp only
    rw [List.takeWhile_append_of_pos hdigits, List.dropWhile_append_of_pos hdigits, hstop.1, hstop.2,
      List.append_nil, fractionMicros_paddedNat hmicro, if_pos (by decide), if_neg hne]

theorem timePart?_text (t : TimeOfDay) {zone : Option Int} (h : ∀ z ∈ zone, z.natAbs < 1440) :
    timePart? ((paddedNat 2 t.hour).toList ++ ':' :: ((paddedNat 2 t.minute).toList ++
      ':' :: ((paddedNat 2 t.second).toList ++ (fractionList t.micro ++ zoneList zone)))) = some (t, zone) := by
  have hhour : t.hour < 100 := Nat.lt_trans t.hour_lt (by decide)
  have hminute : t.minute < 100 := Nat.lt_trans t.minute_lt (by decide)
  have hrange : t.hour < 24 ∧ t.minute < 60 ∧ t.second < 60 ∧ t.micro < 1000000 :=
    ⟨t.hour_lt, t.minute_lt, t.second_lt, t.micro_lt⟩
  unfold timePart?
  simp only [fixed?_two hhour, fixed?_two hminute, Option.bind_eq_bind, Option.bind_some]
  rw [secondsPart?_text t.second_lt t.micro_lt, Option.bind_some, zonePart?_zoneList h, Option.bind_some,
    dif_pos hrange]
  rfl

theorem toList_text (m : Moment) :
    m.text.toList = m.date.text.toList ++ 'T' :: ((paddedNat 2 m.time.hour).toList ++
      ':' :: ((paddedNat 2 m.time.minute).toList ++ ':' :: ((paddedNat 2 m.time.second).toList ++
        (fractionList m.time.micro ++ zoneList m.zone)))) := by
  obtain ⟨date, time, zone⟩ := m
  rw [text, textWith, zoneList, fractionList]
  cases zone with
  | none => simp
  | some z => simp

theorem read_text {m : Moment} (h : m.IsZoned) : read (.str m.text) = .valid m := by
  have hdate : (⟨m.date.year, m.date.month, m.date.day⟩ : RawDate).date = .ok m.date := by
    rw [RawDate.date, Date.ofParts?, dif_pos ⟨m.date.year_bounds, m.date.month_bounds, m.date.day_bounds⟩]
  have hofDateTime : ofDateTime? m.text.toList = some (.ok m) := by
    rw [ofDateTime?, toList_text, datePart_text]
    simp only [Except.toOption, Option.bind_eq_bind, Option.bind_some]
    rw [if_neg (by decide), timePart?_text m.time h, Option.bind_some, hdate]
    rfl
  rw [read, ofText, hofDateTime]

theorem bound_of_zonePart? {cs : List Char} {zone : Option Int} (h : zonePart? cs = some zone) :
    ∀ z ∈ zone, z.natAbs < 1440 := by
  intro z hz
  rw [hz] at h
  unfold zonePart? at h
  split at h
  · cases h
  · cases h
    decide
  · cases h
    decide
  split at h
  · split at h
    · cases h
    · split at h
      · rename_i hours _ _ _ minutes _
        split at h
        · rename_i hrange
          have hbounds : minutes < 60 ∧ hours < 24 := by simpa using hrange
          split at h
          all_goals
            cases h
            omega
        · cases h
      · cases h
  · cases h

theorem bound_of_timePart? {cs : List Char} {t : TimeOfDay} {zone : Option Int}
    (h : timePart? cs = some (t, zone)) : ∀ z ∈ zone, z.natAbs < 1440 := by
  obtain ⟨⟨hour, cs⟩, -, h⟩ := Option.bind_eq_some_iff.1 h
  dsimp only at h
  split at h
  · obtain ⟨⟨minute, cs⟩, -, h⟩ := Option.bind_eq_some_iff.1 h
    obtain ⟨⟨second, micro, cs⟩, -, h⟩ := Option.bind_eq_some_iff.1 h
    obtain ⟨zone', hzone, h⟩ := Option.bind_eq_some_iff.1 h
    split at h
    · cases h
      exact bound_of_zonePart? hzone
    · cases h
  · cases h

theorem isZoned_of_ofDateTime? {cs : List Char} {m : Moment} (h : ofDateTime? cs = some (.ok m)) : m.IsZoned := by
  obtain ⟨⟨d, rest⟩, -, h⟩ := Option.bind_eq_some_iff.1 h
  dsimp only at h
  split at h
  · split at h
    · cases h
    · obtain ⟨⟨t, zone⟩, ht, h⟩ := Option.bind_eq_some_iff.1 h
      have hzone : m.zone = zone := by
        rcases hd : d.date with e | date
        · rw [hd] at h
          cases h
        · rw [hd] at h
          cases h
          rfl
      intro z hz
      rw [hzone] at hz
      exact bound_of_timePart? ht z hz
  · cases h

theorem isZoned_of_ofEpochMicros? {n : Int} {m : Moment} (h : ofEpochMicros? n = some m) : m.IsZoned := by
  obtain ⟨d, -, rfl⟩ := Option.map_eq_some_iff.1 h
  intro z hz
  cases hz
  decide

theorem exists_micros_of_ofMillis {ms : Number} {m : Moment} (h : ofMillis ms = .ok m) :
    ∃ micros, ofEpochMicros? micros = some m := by
  rw [ofMillis] at h
  split at h
  · cases h
  · split at h
    · cases h
    · split at h
      · cases h
      · split at h
        · rename_i heq
          cases h
          exact ⟨_, heq⟩
        · cases h

theorem isZoned_of_ofMillis {ms : Number} {m : Moment} (h : ofMillis ms = .ok m) : m.IsZoned := by
  obtain ⟨micros, hmicros⟩ := exists_micros_of_ofMillis h
  exact isZoned_of_ofEpochMicros? hmicros

theorem isZoned_of_ofMicros {n : Int} {m : Moment} (h : ofMicros n = .ok m) : m.IsZoned := by
  rw [ofMicros] at h
  split at h
  · cases h
  · split at h
    · cases h
    · split at h
      · rename_i heq
        cases h
        exact isZoned_of_ofEpochMicros? heq
      · cases h

theorem isZoned_of_ofDouble {x : Double} {m : Moment} (h : ofDouble x = .ok m) : m.IsZoned := by
  unfold ofDouble at h
  split at h
  · cases h
  · cases h
  · exact isZoned_of_ofMicros h

theorem isZoned_of_ofDate {cs : List Char} {m : Moment} (h : ofDate cs = .ok m) : m.IsZoned := by
  obtain ⟨⟨d, rest⟩, -, h⟩ := bind_eq_ok.1 h
  dsimp only at h
  split at h
  · obtain ⟨date, -, h⟩ := bind_eq_ok.1 h
    cases h
    intro z hz
    cases hz
  · cases h

theorem isZoned_of_ofText {cs : List Char} {m : Moment} (h : ofText cs = .ok m) : m.IsZoned := by
  unfold ofText at h
  split at h
  · rename_i heq
    exact isZoned_of_ofDateTime? (h ▸ heq)
  · split at h
    · exact isZoned_of_ofMicros h
    · split at h
      · exact isZoned_of_ofDate h
      · exact isZoned_of_ofDate h
      · exact isZoned_of_ofDouble h
    · exact isZoned_of_ofDate h

theorem eq_ok_of_checkedNumber {x : Except Unreadable Moment} {m : Moment} (h : checkedNumber x = .valid m) :
    x = .ok m := by
  cases x with
  | ok m' =>
    cases h
    rfl
  | error e => cases h

/-- The offsets of moments that were read are less than a day. -/
theorem isZoned_of_read {v : Json} {m : Moment} (h : read v = .valid m) : m.IsZoned := by
  unfold read at h
  split at h
  · split at h
    · rename_i heq
      cases h
      exact isZoned_of_ofText heq
    · cases h
    · cases h
  · split at h
    · exact isZoned_of_ofMicros (eq_ok_of_checkedNumber h)
    · split at h
      · exact isZoned_of_ofDouble (eq_ok_of_checkedNumber h)
      · cases h
  · exact isZoned_of_ofDouble (eq_ok_of_checkedNumber h)
  · cases h

end Moment

end ConsentBanner
