import QueryJournal.Proofs.Number.Digits
import QueryJournal.Proofs.Time.Calendar
import QueryJournal.Time.Parts

/-!
# Moments and microseconds

Moments in universal time and their microseconds from 1970-01-01T00:00 determine
each other, as far as the calendar's years reach.  The text to the millisecond
has a fixed layout, in which every field has its own digits, so it determines
the millisecond.
-/

namespace QueryJournal.Moment

/-! ## Moments that exist -/

theorem isReal_iff (t : Moment) :
    t.isReal = true ↔ (1 ≤ t.date.year ∧ t.date.year ≤ 9999) ∧
      t.date.isReal = true ∧
      t.hour < 24 ∧ t.minute < 60 ∧ t.second < 60 ∧
      t.microsecond < 1000000 := by
  simp [isReal, and_assoc]

/-- The moment exists, and its clock is less than a day ahead of universal time
or behind. -/
structure IsValid (t : Moment) : Prop where
  real : t.isReal = true
  offset_lt : ∀ minutes ∈ t.offset, -1440 < minutes ∧ minutes < 1440

theorem clock_range {t : Moment} (h : t.isReal = true) :
    0 ≤ t.clock ∧ t.clock < dayLength := by
  obtain ⟨-, -, hhour, hminute, hsecond, hmicrosecond⟩ := (isReal_iff t).mp h
  rw [clock, dayLength]
  omega

theorem days_range {t : Moment} (h : t.isReal = true) :
    -719162 ≤ t.date.toDays ∧ t.date.toDays ≤ 2932896 := by
  obtain ⟨hyear, hdate, -⟩ := (isReal_iff t).mp h
  exact (Calendar.year_range_iff hdate).mp hyear

/-! ## Moments in universal time -/

theorem toMicros_ofMicros (n : ℤ) : (ofMicros n).toMicros = n := by
  have hclock : (ofMicros n).clock = n % dayLength := by
    rw [clock, ofMicros, dayLength]
    dsimp only
    omega
  have hdays : (ofMicros n).date.toDays = n / dayLength :=
    Calendar.toDays_ofDays _
  have hoffset : (ofMicros n).offset.getD 0 = 0 := rfl
  rw [toMicros, hclock, hdays, hoffset, dayLength]
  omega

theorem ofMicros_toMicros {t : Moment}
    (h : t.isReal = true) (hzone : t.offset = some 0) :
    ofMicros t.toMicros = t := by
  have hclock := clock_range h
  obtain ⟨-, hdate, hhour, hminute, hsecond, hmicrosecond⟩ :=
    (isReal_iff t).mp h
  have hmicros : t.toMicros = t.date.toDays * dayLength + t.clock := by
    rw [toMicros, hzone, Option.getD_some, zero_mul, sub_zero]
  have hdays : t.toMicros / dayLength = t.date.toDays := by
    rw [dayLength] at *
    omega
  have hrest : (t.toMicros % dayLength).toNat =
      ((t.hour * 60 + t.minute) * 60 + t.second) * 1000000 + t.microsecond := by
    rw [clock, dayLength] at *
    omega
  rw [ofMicros, hdays, hrest, Calendar.ofDays_toDays_of_isReal hdate]
  obtain ⟨date, hour, minute, second, microsecond, offset⟩ := t
  dsimp only at *
  congr 1
  · omega
  · omega
  · omega
  · omega
  · exact hzone.symm

theorem isReal_ofMicros_iff (n : ℤ) :
    (ofMicros n).isReal = true ↔
      -719162 * dayLength ≤ n ∧ n < 2932897 * dayLength := by
  have hdate := Calendar.isReal_ofDays (n / dayLength)
  have hyear := Calendar.year_range_iff hdate
  rw [Calendar.toDays_ofDays] at hyear
  rw [isReal_iff]
  change ((1 ≤ (Calendar.Date.ofDays (n / dayLength)).year ∧
    (Calendar.Date.ofDays (n / dayLength)).year ≤ 9999) ∧ _) ↔ _
  rw [hyear]
  constructor
  · rintro ⟨hdays, -⟩
    rw [dayLength] at *
    omega
  · intro hrange
    refine ⟨?_, hdate, ?_, ?_, ?_, ?_⟩
    · rw [dayLength] at *
      omega
    all_goals
      rw [ofMicros, dayLength]
      dsimp only
      omega

/-- A number of milliseconds is a moment in universal time if there is one. -/
theorem ofMillis?_eq_some_iff {n : ℤ} {t : Moment} :
    ofMillis? n = some t ↔
      t.isReal = true ∧ t.offset = some 0 ∧ t.toMicros = n * 1000 := by
  have hreal := isReal_ofMicros_iff (n * 1000)
  have hrange : (-719162 * dayLength ≤ n * 1000 ∧
      n * 1000 < 2932897 * dayLength) ↔
      (firstMillis ≤ n ∧ n ≤ lastMillis) := by
    rw [dayLength, firstMillis, lastMillis]
    omega
  rw [hrange] at hreal
  rw [ofMillis?]
  constructor
  · intro h
    split at h
    next hmoment =>
      cases h
      exact ⟨hreal.mpr hmoment, rfl, toMicros_ofMicros _⟩
    next => cases h
  · rintro ⟨hmoment, hzone, hmicros⟩
    rw [← hmicros, ofMicros_toMicros hmoment hzone] at hreal ⊢
    rw [if_pos (hreal.mp hmoment)]

theorem exists_ofMillis?_iff (n : ℤ) :
    (∃ t, ofMillis? n = some t) ↔
      -62135596800000 ≤ n ∧ n ≤ 253402300799999 := by
  rw [ofMillis?]
  change _ ↔ firstMillis ≤ n ∧ n ≤ lastMillis
  split
  next h => exact iff_of_true ⟨_, rfl⟩ h
  next h => exact iff_of_false (by simp) h

/-- A moment of any offset is some milliseconds from the years that have four
digits. -/
theorem IsValid.toMillis_range {t : Moment} (h : t.IsValid) :
    -62135683140000 ≤ t.toMillis ∧ t.toMillis < 253402387140000 := by
  have hdays := days_range h.real
  have hclock := clock_range h.real
  have hoffset : -1440 < t.offset.getD 0 ∧ t.offset.getD 0 < 1440 := by
    cases hzone : t.offset with
    | none => decide
    | some minutes => exact h.offset_lt minutes hzone
  rw [toMillis, toMicros, dayLength] at *
  omega

/-! ## Texts -/

/-- The layout of the text to the millisecond in universal time. -/
def isoText (t : Moment) : String :=
  String.ofList (Number.lastDigits 4 t.date.year.toNat ++ '-' ::
    (Number.lastDigits 2 t.date.month ++ '-' ::
      (Number.lastDigits 2 t.date.day ++ 'T' ::
      (Number.lastDigits 2 t.hour ++ ':' ::
        (Number.lastDigits 2 t.minute ++ ':' ::
        (Number.lastDigits 2 t.second ++ '.' ::
          (Number.lastDigits 3 (t.microsecond / 1000) ++
          ['+', '0', '0', ':', '0', '0'])))))))

/-- The fields of an existing moment have no more digits than the layout. -/
theorem digits_range {t : Moment} (h : t.isReal = true) :
    t.date.year.toNat < 10 ^ 4 ∧ t.date.month < 10 ^ 2 ∧ t.date.day < 10 ^ 2 ∧
      t.hour < 10 ^ 2 ∧ t.minute < 10 ^ 2 ∧ t.second < 10 ^ 2 ∧
        t.microsecond / 1000 < 10 ^ 3 := by
  obtain ⟨hyear, hdate, hhour, hminute, hsecond, hmicrosecond⟩ :=
    (isReal_iff t).mp h
  obtain ⟨-, hmonth, -, hday⟩ := (Calendar.isReal_iff t.date).mp hdate
  have hlength : Calendar.monthLength t.date.year t.date.month ≤ 31 := by
    rw [Calendar.monthLength]
    split
    · split <;> decide
    · split <;> decide
  omega

theorem millisText_eq_isoText {t : Moment}
    (h : t.isReal = true) (hzone : t.offset = some 0) :
    t.millisText = t.isoText := by
  obtain ⟨hyear, hmonth, hday, hhour, hminute, hsecond, hmilli⟩ :=
    digits_range h
  have hyearText : Number.paddedText 4 t.date.year =
      Number.padded 4 t.date.year.toNat := by
    obtain ⟨⟨hfirst, -⟩, -⟩ := (isReal_iff t).mp h
    rw [← Int.toNat_of_nonneg (by omega : 0 ≤ t.date.year)]
    rfl
  have hzoneText : t.zoneText.toList = ['+', '0', '0', ':', '0', '0'] := by
    rw [zoneText, hzone]
    decide
  rw [← String.toList_inj, isoText, String.toList_ofList, millisText, dateText,
    timeText, hyearText]
  simp only [String.toList_append,
    Number.toList_padded_of_lt (by decide : 0 < 4) hyear,
    Number.toList_padded_of_lt (by decide : 0 < 2) hmonth,
    Number.toList_padded_of_lt (by decide : 0 < 2) hday,
    Number.toList_padded_of_lt (by decide : 0 < 2) hhour,
    Number.toList_padded_of_lt (by decide : 0 < 2) hminute,
    Number.toList_padded_of_lt (by decide : 0 < 2) hsecond,
    Number.toList_padded_of_lt (by decide : 0 < 3) hmilli, hzoneText,
    List.append_assoc]
  rfl

theorem toMillis_eq_of_isoText_eq {t u : Moment}
    (ht : t.isReal = true) (hu : u.isReal = true)
    (hzone : t.offset = u.offset) (h : t.isoText = u.isoText) :
    t.toMillis = u.toMillis := by
  obtain ⟨htYear, htMonth, htDay, htHour, htMinute, htSecond, htMilli⟩ :=
    digits_range ht
  obtain ⟨huYear, huMonth, huDay, huHour, huMinute, huSecond, huMilli⟩ :=
    digits_range hu
  rw [isoText, isoText, String.ofList_inj] at h
  obtain ⟨hyear, h⟩ := Number.lastDigits_append_inj htYear huYear h
  obtain ⟨hmonth, h⟩ :=
    Number.lastDigits_append_inj htMonth huMonth (List.tail_eq_of_cons_eq h)
  obtain ⟨hday, h⟩ :=
    Number.lastDigits_append_inj htDay huDay (List.tail_eq_of_cons_eq h)
  obtain ⟨hhour, h⟩ :=
    Number.lastDigits_append_inj htHour huHour (List.tail_eq_of_cons_eq h)
  obtain ⟨hminute, h⟩ :=
    Number.lastDigits_append_inj htMinute huMinute (List.tail_eq_of_cons_eq h)
  obtain ⟨hsecond, h⟩ :=
    Number.lastDigits_append_inj htSecond huSecond (List.tail_eq_of_cons_eq h)
  obtain ⟨hmilli, -⟩ :=
    Number.lastDigits_append_inj htMilli huMilli (List.tail_eq_of_cons_eq h)
  have hdate : t.date = u.date := by
    obtain ⟨⟨htFirst, -⟩, -⟩ := (isReal_iff t).mp ht
    obtain ⟨⟨huFirst, -⟩, -⟩ := (isReal_iff u).mp hu
    have hyear' : t.date.year = u.date.year := by omega
    calc
      t.date = ⟨u.date.year, u.date.month, u.date.day⟩ := by
        rw [← hyear', ← hmonth, ← hday]
      _ = u.date := rfl
  rw [toMillis, toMillis, toMicros, toMicros, hdate, hzone, clock, clock, hhour,
    hminute, hsecond, dayLength]
  omega

end QueryJournal.Moment
