import Mathlib.Tactic.IntervalCases
import Mathlib.Tactic.Ring
import QueryJournal.Time.Calendar

/-!
# Days and dates

The days from 1970-01-01 number the dates of the calendar one after the other,
and every day has exactly one date.  Both are shown with years that start in
March, where the leap day comes last.
-/

namespace QueryJournal.Calendar

theorem isLeap_iff (y : ℤ) :
    isLeap y = true ↔ y % 4 = 0 ∧ (y % 100 ≠ 0 ∨ y % 400 = 0) := by
  simp [isLeap]

theorem isReal_iff (d : Date) :
    d.isReal = true ↔
      1 ≤ d.month ∧ d.month ≤ 12 ∧ 1 ≤ d.day ∧
      d.day ≤ monthLength d.year d.month := by
  simp [Date.isReal, and_assoc]

/-! ## Years from March -/

/-- A date in a year that starts in March. -/
structure MarchDate where
  /-- The year in which March comes first. -/
  year : ℤ
  /-- The month, from zero for March to eleven for February. -/
  month : ℤ
  /-- The day of the month, from one. -/
  day : ℤ

namespace MarchDate

/-- The days of the month. -/
def length (p : MarchDate) : ℤ :=
  if p.month = 11 then (if isLeap (p.year + 1) then 29 else 28)
  else daysBeforeMonth (p.month + 1) - daysBeforeMonth p.month

/-- The calendar has the date. -/
structure IsReal (p : MarchDate) : Prop where
  first : 0 ≤ p.month
  last : p.month ≤ 11
  positive : 1 ≤ p.day
  short : p.day ≤ p.length

/-- The same date in a year that starts in January. -/
def toDate (p : MarchDate) : Date :=
  if p.month < 10 then ⟨p.year, (p.month + 3).toNat, p.day.toNat⟩
  else ⟨p.year + 1, (p.month - 9).toNat, p.day.toNat⟩

/-- The date in a year that starts in March. -/
def ofDate (d : Date) : MarchDate :=
  if d.month ≤ 2 then ⟨d.year - 1, d.month + 9, d.day⟩
  else ⟨d.year, d.month - 3, d.day⟩

/-- Days from 1970-01-01, with a leap day in every fourth year but not in every
hundredth, and yet in every four hundredth. -/
def toDays (p : MarchDate) : ℤ :=
  365 * p.year + p.year / 4 - p.year / 100 + p.year / 400 +
  daysBeforeMonth p.month + p.day -
    1 - epochShift

theorem toDate_ofDate {d : Date} (h : d.isReal = true) :
    (ofDate d).toDate = d := by
  obtain ⟨hfirst, hlast, -, -⟩ := (isReal_iff d).mp h
  by_cases hearly : d.month ≤ 2
  · simp only [ofDate, if_pos hearly, toDate]
    rw [if_neg (by omega)]
    congr 1
    · omega
    · omega
  · simp only [ofDate, if_neg hearly, toDate]
    rw [if_pos (by omega)]
    congr 1
    omega

theorem ofDate_toDate {p : MarchDate} (h : p.IsReal) : ofDate p.toDate = p := by
  have hfirst := h.first
  have hlast := h.last
  have hday := h.positive
  by_cases hlate : p.month < 10
  · simp only [toDate, if_pos hlate, ofDate]
    rw [if_neg (by omega)]
    congr 1
    · omega
    · omega
  · simp only [toDate, if_neg hlate, ofDate]
    rw [if_pos (by omega)]
    congr 1
    · omega
    · omega
    · omega

theorem length_ofDate {d : Date} (hfirst : 1 ≤ d.month) (hlast : d.month ≤ 12) :
    (ofDate d).length = monthLength d.year d.month := by
  obtain ⟨year, month, day⟩ := d
  dsimp only at hfirst hlast
  interval_cases month <;> simp [ofDate, length, monthLength, daysBeforeMonth]

theorem month_ofDate (d : Date) :
    (ofDate d).month =
      if d.month ≤ 2 then (d.month + 9 : ℤ) else d.month - 3 := by
  rw [ofDate]
  split
  · rfl
  · rfl

theorem day_ofDate (d : Date) : (ofDate d).day = d.day := by
  rw [ofDate]
  split
  · rfl
  · rfl

theorem isReal_ofDate {d : Date} (h : d.isReal = true) : (ofDate d).IsReal := by
  obtain ⟨hfirst, hlast, hpositive, hlength⟩ := (isReal_iff d).mp h
  constructor
  · rw [month_ofDate]
    split <;> omega
  · rw [month_ofDate]
    split <;> omega
  · rw [day_ofDate]
    exact_mod_cast hpositive
  · rw [length_ofDate hfirst hlast, day_ofDate]
    exact_mod_cast hlength

theorem isReal_toDate {p : MarchDate} (h : p.IsReal) :
    p.toDate.isReal = true := by
  have hfirst := h.first
  have hlast := h.last
  have hday := h.positive
  have hmonth : 1 ≤ p.toDate.month ∧ p.toDate.month ≤ 12 ∧
      (p.toDate.day : ℤ) = p.day := by
    rw [toDate]
    split
    · dsimp only
      omega
    · dsimp only
      omega
  have hlength := length_ofDate hmonth.1 hmonth.2.1
  rw [ofDate_toDate h] at hlength
  have hshort := h.short
  rw [hlength] at hshort
  rw [isReal_iff]
  omega

/-- A date of the calendar is within its month and within its year. -/
theorem IsReal.dayOfYear {p : MarchDate} (h : p.IsReal) :
    daysBeforeMonth p.month + p.day ≤ daysBeforeMonth (p.month + 1) ∧
      daysBeforeMonth p.month + p.day ≤ 366 ∧
      (daysBeforeMonth p.month + p.day = 366 → isLeap (p.year + 1) = true) := by
  have hfirst := h.first
  have hlast := h.last
  have hshort := h.short
  rw [length] at hshort
  simp only [daysBeforeMonth] at hshort ⊢
  split at hshort
  next hfebruary =>
    rw [hfebruary]
    split at hshort
    next hleap => exact ⟨by omega, by omega, fun _ => hleap⟩
    next => omega
  next => omega

/-- A day of a year of 365 or 366 days is a date in one of its months. -/
theorem exists_isReal {year day : ℤ} (hfirst : 0 ≤ day) (hlast : day ≤ 365)
    (hleap : day = 365 → isLeap (year + 1) = true) :
    ∃ p : MarchDate, p.IsReal ∧ p.year = year ∧
      daysBeforeMonth p.month + p.day = day + 1 := by
  refine ⟨⟨year, (5 * day + 2) / 153,
      day - daysBeforeMonth ((5 * day + 2) / 153) + 1⟩,
    ⟨?_, ?_, ?_, ?_⟩, rfl, ?_⟩
  · dsimp only
    omega
  · dsimp only
    omega
  · simp only [daysBeforeMonth]
    omega
  · simp only [length, daysBeforeMonth]
    split
    next hfebruary =>
      rw [hfebruary]
      split
      next => omega
      next hshort =>
        have hnot : day ≠ 365 := mt hleap hshort
        omega
    next => omega
  · dsimp only
    omega

end MarchDate

/-! ## Eras -/

/-- The days of an era before its year with a number. -/
def daysBeforeYear (year : ℤ) : ℤ :=
  365 * year + year / 4 - year / 100

theorem div_centuries {c r day : ℤ}
    (hc : 0 ≤ c) (hc' : c ≤ 3) (hr : 0 ≤ r) (hr' : r ≤ 36524)
    (hlast : r = 36524 → c = 3) (h : day = 36524 * c + r) :
    day / 36524 = c + day / 146096 := by
  rcases lt_or_ge r 36524 with hlt | hge
  · have hcentury : day / 36524 = c := by omega
    have hera : day / 146096 = 0 := by omega
    omega
  · omega

/-- The days of the longer periods cancel out, so that each year takes 365
days. -/
theorem yearOfEra_eq {n : ℤ}
    (year day : ℤ) (hyear : 0 ≤ year) (hyear' : year < 400) (hday : 0 ≤ day)
    (hday' : day ≤ 365) (hleap : day = 365 → isLeap (year + 1) = true)
    (hn : n = daysBeforeYear year + day) :
    (n - n / 1460 + n / 36524 - n / 146096) / 365 = year ∧ 0 ≤ n ∧
    n < 146097 := by
  rw [isLeap_iff] at hleap
  rw [daysBeforeYear] at hn
  obtain ⟨c, q, k, rfl, hc, hc', hq, hq', hk, hk'⟩ : ∃ c q k : ℤ,
      year = 100 * c + 4 * q + k ∧
      0 ≤ c ∧ c ≤ 3 ∧ 0 ≤ q ∧ q ≤ 24 ∧ 0 ≤ k ∧ k ≤ 3 :=
    ⟨year / 100, year % 100 / 4, year % 4, by omega⟩
  have hn' : n = 36524 * c + 1461 * q + 365 * k + day := by omega
  have hlast : day = 365 → k = 3 ∧ (q ≤ 23 ∨ c = 3) := by omega
  clear hleap hn
  have hcenturies : n / 36524 = c + n / 146096 :=
    div_centuries (r := 1461 * q + 365 * k + day) hc hc' (by omega) (by omega)
      (by omega) (by omega)
  refine ⟨?_, by omega, by omega⟩
  by_cases hquarter : 1460 ≤ 24 * c + q + 365 * k + day
  · have hquarters : n / 1460 = 25 * c + q + 1 := by omega
    rw [hquarters, hcenturies]
    omega
  · have hquarters : n / 1460 = 25 * c + q := by omega
    rw [hquarters, hcenturies]
    omega

theorem exists_yearOfEra {n : ℤ} (hn : 0 ≤ n) (hn' : n < 146097) :
    ∃ year day, 0 ≤ year ∧ year < 400 ∧ 0 ≤ day ∧ day ≤ 365 ∧
      (day = 365 → isLeap (year + 1) = true) ∧
      n = daysBeforeYear year + day := by
  obtain ⟨c, r, hc, hc', hr, hr', hlast, rfl⟩ : ∃ c r : ℤ, 0 ≤ c ∧ c ≤ 3 ∧
      0 ≤ r ∧ r ≤ 36524 ∧
      (r = 36524 → c = 3) ∧ n = 36524 * c + r :=
    ⟨min (n / 36524) 3, n - 36524 * min (n / 36524) 3, by omega⟩
  obtain ⟨k, day, hk, hk', hday, hday', hlast', hrest⟩ : ∃ k day : ℤ, 0 ≤ k ∧
      k ≤ 3 ∧ 0 ≤ day ∧
      day ≤ 365 ∧ (day = 365 → k = 3) ∧ r % 1461 = 365 * k + day :=
    ⟨min (r % 1461 / 365) 3, r % 1461 - 365 * min (r % 1461 / 365) 3, by omega⟩
  obtain ⟨q, hq⟩ : ∃ q, q = r / 1461 := ⟨_, rfl⟩
  have hquarters : (100 * c + 4 * q + k) / 4 = 25 * c + q := by omega
  have hcenturies : (100 * c + 4 * q + k) / 100 = c := by omega
  refine ⟨100 * c + 4 * q + k, day, ?_⟩
  rw [isLeap_iff, daysBeforeYear, hquarters, hcenturies]
  omega

theorem toDays_eq (d : Date) : d.toDays = (MarchDate.ofDate d).toDays := by
  unfold Date.toDays eraDays MarchDate.toDays MarchDate.ofDate
  by_cases hearly : d.month ≤ 2
  · simp only [hearly, if_true]
    omega
  · simp only [hearly, if_false]
    simp
    omega

/-- The days of a date are its place in its year, after the years of its era. -/
theorem toDays_eq_eraDays (p : MarchDate) :
    p.toDays + epochShift = p.year / 400 * eraDays +
      (daysBeforeYear (p.year % 400) +
        (daysBeforeMonth p.month + p.day - 1)) := by
  rw [MarchDate.toDays, daysBeforeYear, eraDays]
  omega

/-- Every date is found from its days. -/
theorem ofDays_toDays {p : MarchDate} (h : p.IsReal) :
    Date.ofDays p.toDays = p.toDate := by
  obtain ⟨hmonth, hyear, hleap⟩ := h.dayOfYear
  have hfirst := h.first
  have hlast := h.last
  have hpositive := h.positive
  have hleap' : daysBeforeMonth p.month + p.day - 1 = 365 →
      isLeap (p.year % 400 + 1) = true := by
    intro hday
    have hreal := hleap (by omega)
    rw [isLeap_iff] at hreal ⊢
    omega
  obtain ⟨hyearOfEra, hlow, hhigh⟩ := yearOfEra_eq (p.year % 400)
    (daysBeforeMonth p.month + p.day - 1) (by omega) (by omega)
    (by rw [daysBeforeMonth]; omega) (by omega) hleap' rfl
  have hdays := toDays_eq_eraDays p
  rw [eraDays] at hdays
  have hquotient : (p.toDays + epochShift) / eraDays = p.year / 400 := by
    rw [eraDays]
    omega
  have hremainder : (p.toDays + epochShift) % eraDays =
      daysBeforeYear (p.year % 400) +
      (daysBeforeMonth p.month + p.day - 1) := by
    rw [eraDays]
    omega
  have hdayOfYear : daysBeforeYear (p.year % 400) +
      (daysBeforeMonth p.month + p.day - 1) -
      (365 * (p.year % 400) + p.year % 400 / 4 - p.year % 400 / 100) =
      daysBeforeMonth p.month + p.day - 1 := by
    rw [daysBeforeYear]
    omega
  have hindex : (5 * (daysBeforeMonth p.month + p.day - 1) + 2) /
      153 = p.month := by
    rw [daysBeforeMonth] at hmonth ⊢
    rw [daysBeforeMonth] at hmonth
    omega
  simp only [Date.ofDays]
  rw [hquotient, hremainder, hyearOfEra, hdayOfYear, hindex, MarchDate.toDate]
  by_cases hlate : p.month < 10
  · simp only [if_pos hlate]
    rw [if_neg (by omega)]
    congr 1
    · omega
    · omega
  · simp only [if_neg hlate]
    rw [if_pos (by omega)]
    congr 1
    · omega
    · omega

/-- Every day has a date. -/
theorem exists_toDays_eq (n : ℤ) :
    ∃ p : MarchDate, p.IsReal ∧ p.toDays = n := by
  obtain ⟨year, day, hyear, hyear', hday, hday', hleap, hn⟩ :=
    exists_yearOfEra (n := (n + epochShift) % 146097) (by omega) (by omega)
  have hleap' : day = 365 →
      isLeap (year + (n + epochShift) / 146097 * 400 + 1) = true := by
    rw [isLeap_iff] at hleap ⊢
    omega
  obtain ⟨p, hp, hpyear, hpday⟩ := MarchDate.exists_isReal hday hday' hleap'
  refine ⟨p, hp, ?_⟩
  have hera : p.year / 400 = (n + epochShift) / 146097 := by omega
  have hrest : p.year % 400 = year := by omega
  have hdays := toDays_eq_eraDays p
  rw [hera, hrest, eraDays, hpday] at hdays
  omega

/-! ## Dates and days -/

theorem ofDays_toDays_of_isReal {d : Date} (h : d.isReal = true) :
    Date.ofDays d.toDays = d := by
  rw [toDays_eq, ofDays_toDays (MarchDate.isReal_ofDate h),
    MarchDate.toDate_ofDate h]

theorem toDays_ofDays (n : ℤ) : (Date.ofDays n).toDays = n := by
  obtain ⟨p, hp, rfl⟩ := exists_toDays_eq n
  rw [ofDays_toDays hp, toDays_eq, MarchDate.ofDate_toDate hp]

theorem isReal_ofDays (n : ℤ) : (Date.ofDays n).isReal = true := by
  obtain ⟨p, hp, rfl⟩ := exists_toDays_eq n
  rw [ofDays_toDays hp]
  exact MarchDate.isReal_toDate hp

/-- The date that follows in the calendar. -/
def Date.next (d : Date) : Date :=
  if d.day < monthLength d.year d.month then ⟨d.year, d.month, d.day + 1⟩
  else if d.month < 12 then ⟨d.year, d.month + 1, 1⟩
  else ⟨d.year + 1, 1, 1⟩

theorem toDays_next_day (year : ℤ) (month day : ℕ) :
    (Date.mk year month (day + 1)).toDays =
      (Date.mk year month day).toDays + 1 := by
  rw [toDays_eq, toDays_eq, MarchDate.ofDate, MarchDate.ofDate]
  dsimp only
  split
  · simp only [MarchDate.toDays]
    omega
  · simp only [MarchDate.toDays]
    omega

/-- The first day of a month follows the last day of the month before. -/
theorem toDays_next_month {year : ℤ} {month : ℕ}
    (hfirst : 1 ≤ month) (hlast : month < 12) :
    (Date.mk year (month + 1) 1).toDays =
      (Date.mk year month (monthLength year month)).toDays + 1 := by
  rw [toDays_eq, toDays_eq]
  interval_cases month
  case «2» =>
    simp only [MarchDate.ofDate, MarchDate.toDays, daysBeforeMonth, monthLength]
    by_cases hleap : isLeap year = true
    · have hyear := (isLeap_iff year).mp hleap
      simp [hleap]
      omega
    · have hyear := mt (isLeap_iff year).mpr hleap
      simp [hleap]
      omega
  all_goals simp [MarchDate.ofDate, MarchDate.toDays, daysBeforeMonth,
    monthLength]; omega

theorem toDays_next_year (year : ℤ) :
    (Date.mk (year + 1) 1 1).toDays = (Date.mk year 12 31).toDays + 1 := by
  rw [toDays_eq, toDays_eq]
  simp [MarchDate.ofDate, MarchDate.toDays, daysBeforeMonth]
  ring

/-- The days count the dates of the calendar. -/
theorem toDays_next {d : Date} (h : d.isReal = true) :
    d.next.toDays = d.toDays + 1 := by
  obtain ⟨hfirst, hlast, hpositive, hlength⟩ := (isReal_iff d).mp h
  obtain ⟨year, month, day⟩ := d
  dsimp only at hfirst hlast hpositive hlength
  rw [Date.next]
  split
  next => exact toDays_next_day year month day
  next hday =>
    have hend : day = monthLength year month := by
      dsimp only at hday
      omega
    rw [hend]
    split
    next hmonth => exact toDays_next_month hfirst hmonth
    next hmonth =>
      have hdecember : month = 12 := by
        dsimp only at hmonth
        omega
      rw [hdecember]
      exact toDays_next_year year

/-! ## Years -/

theorem toDays_newYear (y : ℤ) :
    (Date.mk y 1 1).toDays =
      365 * (y - 1) + (y - 1) / 4 - (y - 1) / 100 + (y - 1) / 400 - 719162 := by
  rw [toDays_eq]
  simp [MarchDate.ofDate, MarchDate.toDays, daysBeforeMonth, epochShift]
  ring

theorem toDays_newYear_le {y z : ℤ} (h : y ≤ z) :
    (Date.mk y 1 1).toDays ≤ (Date.mk z 1 1).toDays := by
  have hmono : Monotone fun y : ℤ => (Date.mk y 1 1).toDays := by
    apply monotone_int_of_le_succ
    intro y
    rw [toDays_newYear, toDays_newYear]
    omega
  exact hmono h

/-- The days of a year are those from its first day to the first day of the next
one. -/
theorem toDays_within_year {d : Date} (h : d.isReal = true) :
    (Date.mk d.year 1 1).toDays ≤ d.toDays ∧
    d.toDays < (Date.mk (d.year + 1) 1 1).toDays := by
  have hp := MarchDate.isReal_ofDate h
  obtain ⟨hmonth, hday, -⟩ := hp.dayOfYear
  have hfirst := hp.first
  have hpositive := hp.positive
  have hdate := congrArg Date.year (MarchDate.toDate_ofDate h)
  rw [toDays_newYear, toDays_newYear, toDays_eq, ← hdate, MarchDate.toDate,
    MarchDate.toDays, epochShift]
  generalize MarchDate.ofDate d = p at *
  rw [daysBeforeMonth] at *
  split
  next hlate =>
    have hbefore : daysBeforeMonth (p.month + 1) ≤ 306 := by
      rw [daysBeforeMonth]
      omega
    dsimp only
    omega
  next hlate =>
    dsimp only
    omega

theorem le_year_iff {d : Date} (h : d.isReal = true) (y : ℤ) :
    y ≤ d.year ↔ (Date.mk y 1 1).toDays ≤ d.toDays := by
  obtain ⟨hlow, hhigh⟩ := toDays_within_year h
  constructor
  · intro hle
    exact (toDays_newYear_le hle).trans hlow
  · intro hle
    by_contra hlt
    have hnext := toDays_newYear_le (Int.add_one_le_iff.mpr (not_le.mp hlt))
    exact absurd (hhigh.trans_le hnext) (not_lt.mpr hle)

/-- The days of the years that are written with up to four digits. -/
theorem year_range_iff {d : Date} (h : d.isReal = true) :
    1 ≤ d.year ∧ d.year ≤ 9999 ↔ -719162 ≤ d.toDays ∧ d.toDays ≤ 2932896 := by
  have hleast := le_year_iff h 1
  have hgreatest := le_year_iff h 10000
  rw [toDays_newYear] at hleast hgreatest
  omega

end QueryJournal.Calendar
