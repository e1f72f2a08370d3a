import ConsentBanner.Proofs.Number.Error
import ConsentBanner.Proofs.Time.Reader
import ConsentBanner.Time.Clock

/-!
Where the calendar ends for a clock that is set forward, and how far the whole milliseconds of a moment, told by way
of a number of seconds, are from the moment.
-/

namespace ConsentBanner

namespace Date

theorem neg_le_dayNumber (d : Date) : -719468 ≤ d.dayNumber := by
  obtain ⟨hyear, -⟩ := d.year_bounds
  obtain ⟨hmonth, -⟩ := d.month_bounds
  obtain ⟨hday, -⟩ := d.day_bounds
  rw [dayNumber]
  split
  · omega
  · omega

theorem ofParts?_of_late {year month day : Nat} (h : 9999 < year) : ofParts? year month day = none :=
  dif_neg fun hparts => absurd hparts.1.2 (Nat.not_le_of_lt h)

/-- The calendar ends. -/
theorem ofDayNumber?_of_late {n : Int} (h : 2932957 ≤ n) : ofDayNumber? n = none := by
  unfold ofDayNumber?
  extract_lets z era dayOfEra yearOfEra dayOfYear m day month year
  have hera : era = (n + 719468) / 146097 := rfl
  have hdayOfEra : dayOfEra = (n + 719468) % 146097 := rfl
  have hyearOfEra : yearOfEra =
      (dayOfEra - dayOfEra / 1460 + dayOfEra / 36524 - dayOfEra / 146096) / 365 := rfl
  have hyear : year = yearOfEra + era * 400 + (if month ≤ 2 then 1 else 0) := rfl
  have hlate : 9999 < year.toNat := by
    split at hyear
    · omega
    · omega
  rw [ofParts?_of_late hlate, ite_self]

end Date

namespace Moment

theorem addDays_int (m : Moment) (days : Int) :
    (∃ later, m.addDays (.int days) = .ok later) ∨ m.addDays (.int days) = .error .overflow := by
  rw [addDays, microsOfDays]
  dsimp only [bind, Except.bind]
  split
  · exact .inl ⟨_, rfl⟩
  · exact .inr rfl

/-- A clock that is set forward by more years than the calendar has shows no day of it. -/
theorem addDays_of_far (m : Moment) {days : Int} (h : 3652425 ≤ days) : m.addDays (.int days) = .error .overflow := by
  have hday := m.date.neg_le_dayNumber
  have hlate : 2932957 ≤ (m.date.dayNumber * TimeOfDay.microsPerDay + m.time.toMicros +
      days * TimeOfDay.microsPerDay) / TimeOfDay.microsPerDay := by
    rw [TimeOfDay.microsPerDay]
    omega
  rw [addDays, microsOfDays]
  dsimp only [bind, Except.bind]
  rw [Date.ofDayNumber?_of_late hlate]

end Moment

namespace Double

theorem ofInt_thousand : ofInt 1000 = finite false 8796093022208000 (-43) := by decide +kernel

theorem thousand_eq : ((8796093022208000 : Nat) : ℚ) * unit (-43) = 1000 := by norm_num [unit]

theorem unit_fiftyThree : unit (-53) = 1 / 2 ^ 53 := by norm_num [unit]

theorem unit_least : unit (-1075) ≤ 1 / 2 ^ 40 :=
  (unit_le_iff.2 (by decide : (-1075 : Int) ≤ -40)).trans (by norm_num [unit])

theorem lt_unit_thousand : (2 : ℚ) ^ 49 < unit 1000 :=
  (by norm_num [unit] : (2 : ℚ) ^ 49 < unit 50).trans_le (unit_le_iff.2 (by decide))

theorem near_ofIntRatio {n : Int} {den : Nat} (hden : 0 < den) {bound : ℚ} (hn : |(n : ℚ) / den| ≤ bound)
    (hbound : bound ≤ 2 ^ 49) : Near (n / den) (bound / 2 ^ 53 + 1 / 2 ^ 40) (ofIntRatio n den) := by
  refine (Near.ofIntRatio n hden ((hn.trans hbound).trans_lt lt_unit_thousand)).mono ?_
  rw [unit_fiftyThree]
  have hleast := unit_least
  linarith

theorem abs_cast_lt {n : Int} {bound : Nat} (h : n.natAbs < bound) : |(n : ℚ)| < bound := by
  rw [← Int.cast_abs, ← Nat.cast_natAbs]
  exact_mod_cast h

theorem abs_micros_le {n : Int} (h : n.natAbs < 2 ^ 58) : |(n : ℚ) / 1000000| ≤ 2 ^ 39 := by
  have hbits := abs_cast_lt h
  push_cast at hbits
  obtain ⟨hlow, hhigh⟩ := abs_lt.1 hbits
  rw [abs_le]
  constructor
  · linarith
  · linarith

/-- Seconds by one division are off by less than a tenth of a millisecond, -/
theorem near_seconds {n : Int} (h : n.natAbs < 2 ^ 58) : Near (n / 1000000) (1 / 10000) (ofIntRatio n 1000000) := by
  have hnear := @near_ofIntRatio n 1000000 (by decide) _ (abs_micros_le h) (by norm_num)
  exact hnear.mono (by norm_num)

/-- and so are whole seconds with a fraction added to them. -/
theorem near_seconds_add {seconds : Int} {micro : Nat} (hseconds : seconds.natAbs < 300000000000) (hmicro : micro < 1000000) :
    Near (seconds + micro / 1000000) (1 / 10000) ((ofInt seconds).add (ofIntRatio micro 1000000)) := by
  have hsize := (abs_cast_lt hseconds).le
  have hfraction : |((micro : Int) : ℚ) / (1000000 : Nat)| ≤ 1 := by
    have hlt : (micro : ℚ) < 1000000 := by exact_mod_cast hmicro
    rw [Int.cast_natCast, abs_of_nonneg (div_nonneg (Nat.cast_nonneg _) (Nat.cast_nonneg _))]
    push_cast
    linarith
  have hwhole : |(seconds : ℚ) / (1 : Nat)| ≤ 300000000000 := by
    push_cast at hsize ⊢
    rwa [div_one]
  have hx := near_ofIntRatio one_pos hwhole (by norm_num)
  have hw := near_ofIntRatio (by decide) hfraction (by norm_num)
  have hbound : |(seconds : ℚ) / (1 : Nat)| + (300000000000 / 2 ^ 53 + 1 / 2 ^ 40) +
      (|((micro : Int) : ℚ) / (1000000 : Nat)| + (1 / 2 ^ 53 + 1 / 2 ^ 40)) ≤ 300000000002 := by linarith
  have hsum := hx.add hw hbound (lt_trans (by norm_num) lt_unit_thousand)
  push_cast at hsum
  rw [div_one] at hsum
  refine hsum.mono ?_
  rw [unit_fiftyThree]
  have hleast := unit_least
  linarith

/-- A number of seconds that is near to so many microseconds tells their whole milliseconds, off by at most one. -/
theorem Near.millis {x : Double} {n : Int} (hx : Near (n / 1000000) (1 / 10000) x) (hn : n.natAbs < 2 ^ 58) :
    ∃ k, (x.mul (ofInt 1000)).truncate? = some k ∧ (k - n.tdiv 1000).natAbs ≤ 1 := by
  have hsize := abs_micros_le hn
  have hbound : (|(n : ℚ) / 1000000| + 1 / 10000) * 1000 ≤ 2 ^ 49 := by linarith
  have hproduct := hx.mul_exact thousand_eq hbound lt_unit_thousand
  rw [ofInt_thousand]
  refine hproduct.truncate? (by ring) ?_
  rw [unit_fiftyThree]
  have hleast := unit_least
  linarith

end Double

theorem Date.dayNumber_lt (d : Date) : d.dayNumber < 2932957 := by
  obtain ⟨-, hyear⟩ := d.year_bounds
  obtain ⟨-, hmonth⟩ := d.month_bounds
  have hday := d.day_bounds.2.trans (Moment.daysInMonth_le d.year d.month)
  rw [dayNumber]
  split
  · omega
  · omega

theorem TimeOfDay.toMicros_lt (t : TimeOfDay) : t.toMicros < microsPerDay := by
  have hhour := t.hour_lt
  have hminute := t.minute_lt
  have hsecond := t.second_lt
  have hmicro := t.micro_lt
  rw [toMicros, microsPerDay]
  omega

namespace Moment

theorem epochMicros_lt {m : Moment} (h : m.IsZoned) : m.epochMicros.natAbs < 2 ^ 58 := by
  have hzone : (m.zone.getD 0).natAbs < 1440 := by
    cases hm : m.zone with
    | none => decide
    | some zone => exact h zone hm
  have hlow := m.date.neg_le_dayNumber
  have hhigh := m.date.dayNumber_lt
  have htime := m.time.toMicros_lt
  rw [epochMicros]
  rw [TimeOfDay.microsPerDay] at htime ⊢
  omega

theorem epochMicros_local {m : Moment} (h : m.zone = none) :
    m.epochMicros = m.epochMicros / 1000000 * 1000000 + m.time.micro := by
  have hmicro := m.time.micro_lt
  rw [epochMicros, h, Option.getD_none, TimeOfDay.toMicros, TimeOfDay.microsPerDay]
  omega

theorem epochSeconds_near {m : Moment} (h : m.IsZoned) {x : Double} (hx : m.epochSeconds = .ok x) :
    Double.Near (m.epochMicros / 1000000) (1 / 10000) x := by
  have hbits := epochMicros_lt h
  rw [epochSeconds] at hx
  split at hx
  · cases hx
    exact Double.near_seconds hbits
  · rename_i hzone
    split at hx
    · cases hx
    · cases hx
      have hparts := epochMicros_local hzone
      have hmicro := m.time.micro_lt
      generalize m.epochMicros = n at *
      have hvalue : (n : ℚ) / 1000000 = (n / 1000000 : Int) + m.time.micro / 1000000 := by
        nth_rewrite 1 [hparts]
        push_cast
        ring
      rw [hvalue]
      exact Double.near_seconds_add (by omega) hmicro

theorem near_of_epochMillis {m : Moment} (h : m.IsZoned) {epoch : Int} (hepoch : m.epochMillis = .ok epoch) :
    (epoch - m.epochMicros.tdiv 1000).natAbs ≤ 1 := by
  obtain ⟨x, hx, hepoch⟩ := bind_eq_ok.1 hepoch
  obtain ⟨k, hk, hnear⟩ := (epochSeconds_near h hx).millis (epochMicros_lt h)
  rw [hk] at hepoch
  cases hepoch
  exact hnear

theorem epochMillis_near {m : Moment} {zone : Int} (hzone : m.zone = some zone) (h : m.IsZoned) :
    ∃ epoch, m.epochMillis = .ok epoch ∧ (epoch - m.epochMicros.tdiv 1000).natAbs ≤ 1 := by
  obtain ⟨epoch, hepoch⟩ : ∃ epoch, m.epochMillis = .ok epoch := by
    rw [epochMillis, epochSeconds, hzone]
    exact ⟨_, rfl⟩
  exact ⟨epoch, hepoch, near_of_epochMillis h hepoch⟩

theorem zone_of_ofMillis {ms : Number} {m : Moment} (h : ofMillis ms = .ok m) : m.zone = some 0 := by
  obtain ⟨micros, hmicros⟩ := exists_micros_of_ofMillis h
  obtain ⟨d, -, rfl⟩ := Option.map_eq_some_iff.1 hmicros
  rfl

end Moment

end ConsentBanner
