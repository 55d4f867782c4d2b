import Mathlib.Tactic

/-! # The proleptic Gregorian calendar

Days are numbered from 1970-01-01 (`civil 0`), and `civil` gives the date of a day in closed form:
years start in March, so that the leap day comes last, and a day is split into blocks of 400, 100,
4 and 1 years.

That this is the calendar is `civil_succ`: the date of the next day is the next date
(`Date.next`), by the lengths of the months and the rule for leap years.  Dates grow with days
(`key_civil_strictMono`), where a date is ordered by the number `yyyymmdd`.

A number in fixed width (`padded`) is ordered by its text (`padded_lt`). -/

namespace SharpOauth.Calendar

/-- A date of the calendar; the month and day count from one. -/
structure Date where
  year : ℤ
  month : ℤ
  day : ℤ
deriving DecidableEq, Repr

/-- Every fourth year is a leap year, but of the centuries only every fourth. -/
def IsLeap (year : ℤ) : Prop := year % 4 = 0 ∧ (year % 100 ≠ 0 ∨ year % 400 = 0)

instance (year : ℤ) : Decidable (IsLeap year) := inferInstanceAs (Decidable (_ ∧ _))

def monthLength (year month : ℤ) : ℤ :=
  if month = 2 then if IsLeap year then 29 else 28
  else if month = 4 ∨ month = 6 ∨ month = 9 ∨ month = 11 then 30
  else 31

/-- The day after. -/
def Date.next (d : Date) : Date :=
  if d.day < monthLength d.year d.month then { d with day := d.day + 1 }
  else if d.month < 12 then ⟨d.year, d.month + 1, 1⟩
  else ⟨d.year + 1, 1, 1⟩

/-- The number `yyyymmdd`. -/
def Date.key (d : Date) : ℤ := d.year * 10000 + d.month * 100 + d.day

/-! ### Years that start in March -/

/-- Days before the year that starts in March of `year`. -/
def yearStart (year : ℤ) : ℤ := 365 * year + year / 4 - year / 100 + year / 400

/-- A year from March, and the day in it. -/
def yearDay (day : ℤ) : ℤ × ℤ :=
  let era := day / 146097
  let dayOfEra := day % 146097
  let century := min 3 (dayOfEra / 36524)
  let dayOfCentury := dayOfEra - 36524 * century
  let quad := dayOfCentury / 1461
  let dayOfQuad := dayOfCentury % 1461
  let year := min 3 (dayOfQuad / 365)
  (400 * era + 100 * century + 4 * quad + year, dayOfQuad - 365 * year)

/-- A day is in the year from March that `yearDay` gives. -/
theorem yearDay_spec (day : ℤ) : day = yearStart (yearDay day).1 + (yearDay day).2 ∧
    0 ≤ (yearDay day).2 ∧ (yearDay day).2 < yearStart ((yearDay day).1 + 1) - yearStart (yearDay day).1 := by
  unfold yearDay
  dsimp only
  have hera : day = 146097 * (day / 146097) + day % 146097 := by omega
  have hdoe : 0 ≤ day % 146097 ∧ day % 146097 < 146097 := by omega
  generalize day / 146097 = era at *
  generalize day % 146097 = doe at *
  have hcentury : 0 ≤ min 3 (doe / 36524) ∧ min 3 (doe / 36524) ≤ 3 ∧
      0 ≤ doe - 36524 * min 3 (doe / 36524) ∧
      (doe - 36524 * min 3 (doe / 36524) < 36524 ∨
        min 3 (doe / 36524) = 3 ∧ doe - 36524 * min 3 (doe / 36524) = 36524) := by omega
  generalize min 3 (doe / 36524) = century at *
  generalize hdoc : doe - 36524 * century = doc at *
  have hquad : doc = 1461 * (doc / 1461) + doc % 1461 ∧ 0 ≤ doc % 1461 ∧ doc % 1461 < 1461 ∧
      0 ≤ doc / 1461 ∧ doc / 1461 ≤ 24 ∧ (doc / 1461 = 24 → doc % 1461 < 1460 ∨ century = 3) := by
    omega
  generalize doc / 1461 = quad at *
  generalize doc % 1461 = doq at *
  have hyear : 0 ≤ min 3 (doq / 365) ∧ min 3 (doq / 365) ≤ 3 ∧
      0 ≤ doq - 365 * min 3 (doq / 365) ∧
      (doq - 365 * min 3 (doq / 365) < 365 ∨
        min 3 (doq / 365) = 3 ∧ doq - 365 * min 3 (doq / 365) = 365) := by omega
  generalize min 3 (doq / 365) = year at *
  have hthis : (400 * era + 100 * century + 4 * quad + year) / 4 = 100 * era + 25 * century + quad ∧
      (400 * era + 100 * century + 4 * quad + year) / 100 = 4 * era + century ∧
      (400 * era + 100 * century + 4 * quad + year) / 400 = era := by omega
  unfold yearStart
  refine ⟨by omega, by omega, ?_⟩
  by_cases hlast : year = 3 ∧ quad = 24
  · -- The year before a century.
    have hnext : (400 * era + 100 * century + 4 * quad + year + 1) / 4 = 100 * era + 25 * century + 25 ∧
        (400 * era + 100 * century + 4 * quad + year + 1) / 100 = 4 * era + century + 1 ∧
        (century = 3 → (400 * era + 100 * century + 4 * quad + year + 1) / 400 = era + 1) ∧
        (century < 3 → (400 * era + 100 * century + 4 * quad + year + 1) / 400 = era) := by omega
    omega
  · have hnext : (400 * era + 100 * century + 4 * quad + year + 1) / 100 = 4 * era + century ∧
        (400 * era + 100 * century + 4 * quad + year + 1) / 400 = era ∧
        (year = 3 → (400 * era + 100 * century + 4 * quad + year + 1) / 4 =
          100 * era + 25 * century + quad + 1) ∧
        (year < 3 → (400 * era + 100 * century + 4 * quad + year + 1) / 4 =
          100 * era + 25 * century + quad) := by omega
    omega

theorem yearStart_lt_succ (year : ℤ) : yearStart year < yearStart (year + 1) := by
  unfold yearStart
  omega

theorem yearStart_strictMono : StrictMono yearStart := strictMono_int_of_lt_succ yearStart_lt_succ

/-- The year and the day in it are determined. -/
theorem yearDay_eq {day year dayOfYear : ℤ} (h : day = yearStart year + dayOfYear) (hnonneg : 0 ≤ dayOfYear)
    (hlt : dayOfYear < yearStart (year + 1) - yearStart year) : yearDay day = (year, dayOfYear) := by
  obtain ⟨hday, hnonneg', hlt'⟩ := yearDay_spec day
  have hyear : (yearDay day).1 = year := by
    rcases lt_trichotomy (yearDay day).1 year with hcmp | hcmp | hcmp
    · have hmono := yearStart_strictMono.monotone (show (yearDay day).1 + 1 ≤ year by omega)
      omega
    · exact hcmp
    · have hmono := yearStart_strictMono.monotone (show year + 1 ≤ (yearDay day).1 by omega)
      omega
  refine Prod.ext hyear ?_
  rw [hyear] at hday
  show (yearDay day).2 = dayOfYear
  omega

/-! ### Dates -/

/-- The month, counted from March, and the day in it. -/
def monthDay (dayOfYear : ℤ) : ℤ × ℤ :=
  let month := (5 * dayOfYear + 2) / 153
  (month, dayOfYear - (153 * month + 2) / 5 + 1)

/-- The date of a day in a year and month from March. -/
def dateOf (year month day : ℤ) : Date :=
  if month < 10 then ⟨year, month + 3, day⟩ else ⟨year + 1, month - 9, day⟩

/-- The date of a day. -/
def civil (day : ℤ) : Date :=
  let y := yearDay (day + 719468)
  let m := monthDay y.2
  dateOf y.1 m.1 m.2

example : civil 0 = ⟨1970, 1, 1⟩ := by decide

example : civil 19782 = ⟨2024, 2, 29⟩ := by decide

/-- The years from March are as long as the leap years say. -/
theorem yearLength (year : ℤ) : yearStart (year + 1) - yearStart year =
    if IsLeap (year + 1) then 366 else 365 := by
  unfold yearStart IsLeap
  split_ifs with h <;> omega

theorem yearDay_succ (day : ℤ) : yearDay (day + 1) =
    if (yearDay day).2 + 1 < yearStart ((yearDay day).1 + 1) - yearStart (yearDay day).1 then
      ((yearDay day).1, (yearDay day).2 + 1)
    else ((yearDay day).1 + 1, 0) := by
  obtain ⟨hday, hnonneg, hlt⟩ := yearDay_spec day
  split_ifs with h
  · exact yearDay_eq (by omega) (by omega) h
  · exact yearDay_eq (by omega) le_rfl (by have := yearStart_lt_succ ((yearDay day).1 + 1); omega)

/-- The days of a month. -/
theorem monthDay_spec {dayOfYear : ℤ} (h : 0 ≤ dayOfYear ∧ dayOfYear < 366) :
    0 ≤ (monthDay dayOfYear).1 ∧ (monthDay dayOfYear).1 ≤ 11 ∧ 1 ≤ (monthDay dayOfYear).2 ∧
      dayOfYear = (153 * (monthDay dayOfYear).1 + 2) / 5 + (monthDay dayOfYear).2 - 1 ∧
      dayOfYear < (153 * ((monthDay dayOfYear).1 + 1) + 2) / 5 := by
  unfold monthDay
  dsimp only
  omega

theorem monthDay_eq {dayOfYear m d : ℤ} (hday : 1 ≤ d) (h : dayOfYear = (153 * m + 2) / 5 + d - 1)
    (hlt : dayOfYear < (153 * (m + 1) + 2) / 5) : monthDay dayOfYear = (m, d) := by
  have hmonth : (5 * dayOfYear + 2) / 153 = m := by omega
  unfold monthDay
  dsimp only
  rw [hmonth]
  refine Prod.ext rfl ?_
  dsimp only
  omega

/-- The day after a day before February ends. -/
theorem next_dateOf {year month day : ℤ} (hmonth : 0 ≤ month ∧ month ≤ 10) :
    (dateOf year month day).next =
      if day < (153 * (month + 1) + 2) / 5 - (153 * month + 2) / 5 then dateOf year month (day + 1)
      else dateOf year (month + 1) 1 := by
  obtain ⟨hlow, hhigh⟩ := hmonth
  interval_cases month <;> simp [dateOf, Date.next, monthLength]

/-- The day after a day of February. -/
theorem next_dateOf_february (year day : ℤ) : (dateOf year 11 day).next =
    if day < (if IsLeap (year + 1) then 29 else 28) then dateOf year 11 (day + 1)
    else dateOf (year + 1) 0 1 := by
  simp [dateOf, Date.next, monthLength]

/-- **The date of the next day is the next date.** -/
theorem civil_succ (day : ℤ) : civil (day + 1) = (civil day).next := by
  have hshift : day + 1 + 719468 = (day + 719468) + 1 := by omega
  obtain ⟨-, hnonneg, hlt⟩ := yearDay_spec (day + 719468)
  have hlength := yearLength (yearDay (day + 719468)).1
  unfold civil
  dsimp only
  rw [hshift, yearDay_succ]
  generalize (yearDay (day + 719468)).1 = year at *
  generalize (yearDay (day + 719468)).2 = doy at *
  have hbound : doy < 366 := by split_ifs at hlength <;> omega
  obtain ⟨hmonth, hmonth', hday, hdoy, hend⟩ := monthDay_spec ⟨hnonneg, hbound⟩
  generalize (monthDay doy).1 = month at *
  generalize (monthDay doy).2 = d at *
  rcases eq_or_lt_of_le hmonth' with rfl | hmonth'
  · -- February, the last month of the year.
    rw [next_dateOf_february]
    have hiff : doy + 1 < yearStart (year + 1) - yearStart year ↔
        d < (if IsLeap (year + 1) then 29 else 28) := by
      rw [hlength]
      split_ifs <;> omega
    by_cases hnext : d < (if IsLeap (year + 1) then 29 else 28)
    · rw [if_pos hnext, if_pos (hiff.2 hnext)]
      dsimp only
      rw [monthDay_eq (d := d + 1) (m := 11) (by omega) (by omega) (by omega)]
    · rw [if_neg hnext, if_neg fun h => hnext (hiff.1 h)]
      dsimp only
      rw [monthDay_eq (d := 1) (m := 0) le_rfl (by omega) (by omega)]
  · rw [next_dateOf ⟨hmonth, by omega⟩]
    have hin : doy + 1 < yearStart (year + 1) - yearStart year := by
      split_ifs at hlength <;> omega
    rw [if_pos hin]
    by_cases hnext : d < (153 * (month + 1) + 2) / 5 - (153 * month + 2) / 5
    · rw [if_pos hnext]
      dsimp only
      rw [monthDay_eq (d := d + 1) (m := month) (by omega) (by omega) (by omega)]
    · rw [if_neg hnext]
      dsimp only
      rw [monthDay_eq (d := 1) (m := month + 1) le_rfl (by omega) (by omega)]

/-- A date has a month and a day of that month. -/
def Date.Valid (d : Date) : Prop :=
  1 ≤ d.month ∧ d.month ≤ 12 ∧ 1 ≤ d.day ∧ d.day ≤ monthLength d.year d.month

theorem monthLength_le (year month : ℤ) : monthLength year month ≤ 31 := by
  unfold monthLength
  split_ifs <;> omega

theorem civil_valid (day : ℤ) : (civil day).Valid := by
  obtain ⟨-, hnonneg, hlt⟩ := yearDay_spec (day + 719468)
  have hlength := yearLength (yearDay (day + 719468)).1
  unfold civil
  dsimp only
  generalize (yearDay (day + 719468)).1 = year at *
  generalize (yearDay (day + 719468)).2 = doy at *
  have hbound : doy < 366 := by split_ifs at hlength <;> omega
  obtain ⟨hmonth, hmonth', hday, hdoy, hend⟩ := monthDay_spec ⟨hnonneg, hbound⟩
  generalize (monthDay doy).1 = month at *
  generalize (monthDay doy).2 = d at *
  rcases eq_or_lt_of_le hmonth' with rfl | hmonth'
  · have hfebruary : d ≤ if IsLeap (year + 1) then 29 else 28 := by
      split_ifs at hlength ⊢ <;> omega
    refine ⟨by simp [dateOf], by simp [dateOf], by simpa [dateOf] using hday, ?_⟩
    simpa [dateOf, monthLength] using hfebruary
  · have hmonths : d ≤ (153 * (month + 1) + 2) / 5 - (153 * month + 2) / 5 := by omega
    clear hdoy hend hlength hlt
    interval_cases month <;> simp [dateOf, Date.Valid, monthLength] <;> omega

theorem Date.Valid.key_lt_next {d : Date} (h : d.Valid) : d.key < d.next.key := by
  obtain ⟨hmonth, hmonth', hday, hday'⟩ := h
  have hlength := monthLength_le d.year d.month
  unfold Date.next Date.key
  split_ifs <;> dsimp only <;> omega

/-- **Dates grow with days.** -/
theorem key_civil_strictMono : StrictMono fun day => (civil day).key :=
  strictMono_int_of_lt_succ fun day => by
    rw [civil_succ]
    exact (civil_valid day).key_lt_next

/-! ### Numbers in fixed width -/

/-- The last `width` decimal digits of a number. -/
def padded : ℕ → ℕ → List Char
  | 0, _ => []
  | width + 1, n => padded width (n / 10) ++ [Nat.digitChar (n % 10)]

theorem padded_append (w v n m : ℕ) (h : m < 10 ^ v) :
    padded w n ++ padded v m = padded (w + v) (n * 10 ^ v + m) := by
  induction v generalizing m with
  | zero => simp [padded, show m = 0 by simpa using h]
  | succ v ih =>
      have hten : n * 10 ^ (v + 1) = 10 * (n * 10 ^ v) := by ring
      have hdiv : (n * 10 ^ (v + 1) + m) / 10 = n * 10 ^ v + m / 10 := by omega
      have hmod : (n * 10 ^ (v + 1) + m) % 10 = m % 10 := by omega
      have hm : m / 10 < 10 ^ v := by
        rw [pow_succ] at h
        omega
      rw [padded, ← List.append_assoc, ih _ hm, ← Nat.add_assoc, padded, hdiv, hmod]

theorem digitChar_lt {a b : ℕ} (h : a < b) (hb : b < 10) : Nat.digitChar a < Nat.digitChar b := by
  interval_cases b <;> interval_cases a <;> decide

/-- **The order of numbers is the order of their texts**, whatever follows the greater one. -/
theorem padded_lt {width : ℕ} : ∀ {n m : ℕ}, n < m → m < 10 ^ width → ∀ tail tail',
    padded width n ++ tail < padded width m ++ tail' := by
  induction width with
  | zero =>
      intro n m hlt hm
      rw [pow_zero] at hm
      omega
  | succ width ih =>
      intro n m hlt hm tail tail'
      rw [pow_succ] at hm
      rw [padded, padded, List.append_assoc, List.append_assoc]
      by_cases hdiv : n / 10 = m / 10
      · -- The last digits differ.
        rw [hdiv]
        refine List.append_left_lt (List.cons_lt_cons_iff.2 (.inl ?_))
        exact digitChar_lt (by omega) (by omega)
      · exact ih (by omega) (by omega) _ _

end SharpOauth.Calendar
