/-
# Dates and day numbers

Counting the days of the calendar loses nothing and keeps the order.

* `dayNumber_ofDayNumber` — the date with a number has that number.
* `isValid_ofDayNumber` — the calendar has the date with a number.
* `CivilDate.Before`, `ofDayNumber_before` — later numbers belong to later dates.
* `le_year_ofDayNumber` — a year is reached with the number of its first day.

The years of a cycle are found by taking the leap days away from the days before a date. What is left
grows with the days, so it is enough to know it on the first and the last day of each year.
-/
import Mathlib.Order.Monotone.Basic
import Mathlib.Order.Nat
import Mathlib.Tactic.IntervalCases
import Quarry.Date.Calendar

namespace Quarry.Date

/-! ## Years of a cycle -/

/-- The days of a cycle up to a day, without the leap days among them. -/
def ordinaryDays (c : Nat) : Nat := c - c / 1460 + c / 36524 - c / 146096

theorem ordinaryDays_mono : Monotone ordinaryDays := by
  refine monotone_nat_of_le_succ fun c => ?_
  unfold ordinaryDays
  omega

/-- The first day of a year of a cycle. -/
def yearStart (y : Nat) : Nat := 365 * y + y / 4 - y / 100 + y / 400

theorem ordinaryDays_yearStart : ∀ y ≤ 400,
    365 * y ≤ ordinaryDays (yearStart y) ∧
      (0 < y → ordinaryDays (yearStart y - 1) < 365 * y) := by
  decide +kernel

/-- A day of a cycle lies in the year that is found for it. -/
theorem yearStart_bounds {c : Nat} (h : c < 146097) :
    ordinaryDays c / 365 ≤ 399 ∧ yearStart (ordinaryDays c / 365) ≤ c ∧
      c < yearStart (ordinaryDays c / 365 + 1) := by
  have hyear : ordinaryDays c / 365 ≤ 399 := by
    have hmono := ordinaryDays_mono (show c ≤ 146096 by omega)
    have hlast : ordinaryDays 146096 = 145999 := rfl
    omega
  refine ⟨hyear, ?_, ?_⟩
  · by_contra hlt
    have hmono := ordinaryDays_mono (show c ≤ yearStart (ordinaryDays c / 365) - 1 by omega)
    have hbefore := (ordinaryDays_yearStart (ordinaryDays c / 365) (by omega)).2
    have hzero : ordinaryDays c / 365 = 0 → yearStart (ordinaryDays c / 365) = 0 := by
      intro h
      rw [h]
      rfl
    omega
  · by_contra hge
    have hmono := ordinaryDays_mono (not_lt.mp hge)
    have hstart := (ordinaryDays_yearStart (ordinaryDays c / 365 + 1) (by omega)).1
    omega

/-- The years of a cycle follow one another as those of the calendar do. -/
theorem daysToYear_cycle (cycle : Int) {y : Nat} (h : y ≤ 399) :
    daysToYear (cycle * 400 + y) = daysOfCycle * cycle + yearStart y := by
  unfold daysToYear yearStart daysOfCycle
  omega

theorem yearStart_succ_le (y : Nat) : yearStart (y + 1) ≤ yearStart y + 366 := by
  unfold yearStart
  omega

/-! ## Dates from numbers -/

/-- A date by its year from March, and its day in that year. -/
def dateInYear (year : Int) (inYear : Nat) : CivilDate :=
  let month := (5 * inYear + 2) / 153
  let day := inYear - daysToMonth month + 1
  if month < 10 then ⟨year, month + 3, day⟩ else ⟨year + 1, month - 9, day⟩

/-- The date with a number by the cycle, the year in the cycle and the day in the year. -/
theorem exists_parts (n : Int) : ∃ (cycle : Int) (y d : Nat), y ≤ 399 ∧
    d < yearStart (y + 1) - yearStart y ∧ n = yearZero + daysToYear (cycle * 400 + y) + d ∧
    CivilDate.ofDayNumber n = dateInYear (cycle * 400 + y) d := by
  have hc : ((n - yearZero) % daysOfCycle).toNat < 146097 := by
    unfold daysOfCycle
    omega
  have hn : n - yearZero = daysOfCycle * ((n - yearZero) / daysOfCycle) +
      ((n - yearZero) % daysOfCycle).toNat := by
    unfold daysOfCycle
    omega
  have hdate : ∀ cycle c, (n - yearZero) / daysOfCycle = cycle →
      ((n - yearZero) % daysOfCycle).toNat = c → CivilDate.ofDayNumber n =
        dateInYear (cycle * 400 + (ordinaryDays c / 365 : Nat)) (c - (365 * (ordinaryDays c / 365) +
          ordinaryDays c / 365 / 4 - ordinaryDays c / 365 / 100)) := by
    rintro _ _ rfl rfl
    rfl
  rw [hdate _ _ rfl rfl]
  generalize (n - yearZero) / daysOfCycle = cycle at hn ⊢
  generalize ((n - yearZero) % daysOfCycle).toNat = c at hc hn ⊢
  obtain ⟨hyear, hstart, hend⟩ := yearStart_bounds hc
  have hinYear : yearStart (ordinaryDays c / 365) =
      365 * (ordinaryDays c / 365) + ordinaryDays c / 365 / 4 - ordinaryDays c / 365 / 100 := by
    unfold yearStart
    omega
  rw [← hinYear]
  refine ⟨cycle, ordinaryDays c / 365, c - yearStart (ordinaryDays c / 365), hyear, ?_, ?_, rfl⟩
  · omega
  · have hdays := daysToYear_cycle cycle hyear
    omega

/-- A day of a year has the number it is counted by. -/
theorem dayNumber_dateInYear (year : Int) {d : Nat} (h : d < 366) :
    (dateInYear year d).dayNumber = yearZero + daysToYear year + d := by
  unfold dateInYear CivilDate.dayNumber
  simp only
  by_cases hmonth : (5 * d + 2) / 153 < 10
  · rw [if_pos hmonth]
    have hlate : ¬ (5 * d + 2) / 153 + 3 ≤ 2 := by omega
    simp only [hlate, ↓reduceIte, Nat.add_sub_cancel, daysToMonth]
    omega
  · rw [if_neg hmonth]
    have hearly : (5 * d + 2) / 153 - 9 ≤ 2 := by omega
    have hback : (5 * d + 2) / 153 - 9 + 9 = (5 * d + 2) / 153 := by omega
    have hyear : year + 1 - 1 = year := by omega
    simp only [hearly, ↓reduceIte, hback, hyear, daysToMonth]
    omega

/-- The date with a number has that number. -/
@[simp] theorem dayNumber_ofDayNumber (n : Int) : (CivilDate.ofDayNumber n).dayNumber = n := by
  obtain ⟨cycle, y, d, hy, hd, hn, hdate⟩ := exists_parts n
  have hlength := yearStart_succ_le y
  rw [hdate, dayNumber_dateInYear _ (by omega)]
  exact hn.symm

/-! ## Dates of the calendar -/

/-- What makes a date one of the calendar. -/
theorem CivilDate.isValid_iff {d : CivilDate} : d.isValid = true ↔
    1 ≤ d.month ∧ d.month ≤ 12 ∧ 1 ≤ d.day ∧ d.day ≤ monthLength d.year d.month := by
  simp [CivilDate.isValid, and_assoc]

theorem isLeapYear_iff {year : Int} :
    isLeapYear year = true ↔ year % 4 = 0 ∧ (year % 100 ≠ 0 ∨ year % 400 = 0) := by
  simp [isLeapYear]

theorem CivilDate.day_le {d : CivilDate} (h : d.isValid = true) : d.day ≤ 31 := by
  have hday := (isValid_iff.mp h).2.2.2
  have hlength : monthLength d.year d.month ≤ 31 := by
    unfold monthLength
    split_ifs <;> omega
  omega

/-- A day of a year from March stands in a month. -/
theorem isValid_dateInYear (cycle : Int) {y d : Nat} (hy : y ≤ 399)
    (h : d < yearStart (y + 1) - yearStart y) : (dateInYear (cycle * 400 + y) d).isValid = true := by
  have hd : d < 366 := by
    have := yearStart_succ_le y
    omega
  -- The last day of February is there in a leap year only.
  have hleap : d = 365 → isLeapYear (cycle * 400 + y + 1) = true := by
    intro hlast
    rw [isLeapYear_iff]
    unfold yearStart at h
    omega
  rw [CivilDate.isValid_iff]
  unfold dateInYear monthLength daysToMonth
  simp only
  generalize hm : (5 * d + 2) / 153 = m
  have hm12 : m ≤ 11 := by omega
  interval_cases m <;> simp
  all_goals first
    | omega
    | (split_ifs with hyear
       · omega
       · have hne : d ≠ 365 := fun hlast => hyear (hleap hlast)
         omega)

/-- The calendar has the date with a number. -/
@[simp] theorem isValid_ofDayNumber (n : Int) : (CivilDate.ofDayNumber n).isValid = true := by
  obtain ⟨cycle, y, d, hy, hd, -, hdate⟩ := exists_parts n
  rw [hdate]
  exact isValid_dateInYear cycle hy hd

/-! ## Order -/

/-- Whether a date comes before another one. -/
def CivilDate.Before (d e : CivilDate) : Prop :=
  d.year < e.year ∨ d.year = e.year ∧ (d.month < e.month ∨ d.month = e.month ∧ d.day < e.day)

/-- Of two dates one comes before the other, unless they are the same. -/
theorem CivilDate.before_trichotomy (d e : CivilDate) : d.Before e ∨ d = e ∨ e.Before d := by
  have heq : d = e ↔ d.year = e.year ∧ d.month = e.month ∧ d.day = e.day := by
    cases d
    cases e
    simp
  rw [heq]
  unfold Before
  omega

/-- The year of a date, reckoned from March. -/
def CivilDate.marchYear (d : CivilDate) : Int := if d.month ≤ 2 then d.year - 1 else d.year

/-- The month of a date, counted from March as month 0. -/
def CivilDate.marchMonth (d : CivilDate) : Nat := if d.month ≤ 2 then d.month + 9 else d.month - 3

theorem CivilDate.dayNumber_eq (d : CivilDate) :
    d.dayNumber = yearZero + daysToYear d.marchYear + daysToMonth d.marchMonth + (d.day - 1) := by
  unfold dayNumber marchYear marchMonth
  split_ifs <;> rfl

/-- A month ends before the next one starts. -/
theorem CivilDate.day_le_nextMonth {d : CivilDate} (h : d.isValid = true) (hm : d.marchMonth < 11) :
    daysToMonth d.marchMonth + d.day ≤ daysToMonth (d.marchMonth + 1) := by
  obtain ⟨hlow, hhigh, -, hday⟩ := isValid_iff.mp h
  unfold marchMonth monthLength daysToMonth at *
  generalize d.month = m at *
  interval_cases m <;> simp at * <;> omega

/-- A year ends before the next one starts. -/
theorem CivilDate.day_le_nextYear {d : CivilDate} (h : d.isValid = true) :
    daysToYear d.marchYear + daysToMonth d.marchMonth + d.day ≤ daysToYear (d.marchYear + 1) := by
  by_cases hm : d.marchMonth < 11
  · have hnext := day_le_nextMonth h hm
    have hmonths : daysToMonth (d.marchMonth + 1) ≤ 337 := by
      unfold daysToMonth
      omega
    unfold daysToYear
    omega
  · obtain ⟨hlow, hhigh, -, hday⟩ := isValid_iff.mp h
    have hfebruary : d.month = 2 := by
      unfold marchMonth at hm
      split_ifs at hm <;> omega
    unfold monthLength at hday
    simp only [marchYear, marchMonth, hfebruary, le_refl, ↓reduceIte, daysToMonth] at hday ⊢
    unfold daysToYear
    split_ifs at hday with hyear
    · rw [isLeapYear_iff] at hyear
      omega
    · omega

theorem daysToYear_mono {a b : Int} (h : a ≤ b) : daysToYear a ≤ daysToYear b := by
  unfold daysToYear
  omega

theorem daysToMonth_mono {a b : Nat} (h : a ≤ b) : daysToMonth a ≤ daysToMonth b := by
  unfold daysToMonth
  omega

/-- Earlier dates have lower numbers. -/
theorem CivilDate.dayNumber_lt {d e : CivilDate} (hd : d.isValid = true) (he : e.isValid = true)
    (h : d.Before e) : d.dayNumber < e.dayNumber := by
  obtain ⟨hd1, hd12, -, -⟩ := isValid_iff.mp hd
  obtain ⟨he1, he12, heday, -⟩ := isValid_iff.mp he
  -- Reckoning from March does not change which month comes first.
  have hmarch : d.marchYear < e.marchYear ∨ d.marchYear = e.marchYear ∧
      (d.marchMonth < e.marchMonth ∨ d.marchMonth = e.marchMonth ∧ d.day < e.day) := by
    unfold Before at h
    unfold marchYear marchMonth
    split_ifs <;> omega
  have hlast : e.marchMonth ≤ 11 := by
    unfold marchMonth
    split_ifs <;> omega
  rw [dayNumber_eq, dayNumber_eq]
  rcases hmarch with hyear | ⟨hyear, hmonth | ⟨hmonth, hday⟩⟩
  · have hnext := day_le_nextYear hd
    have hmono := daysToYear_mono (show d.marchYear + 1 ≤ e.marchYear by omega)
    omega
  · have hnext := day_le_nextMonth hd (by omega)
    have hmono := daysToMonth_mono (show d.marchMonth + 1 ≤ e.marchMonth by omega)
    rw [hyear]
    omega
  · rw [hyear, hmonth]
    omega

/-- Later numbers belong to later dates. -/
theorem ofDayNumber_before {m n : Int} :
    (CivilDate.ofDayNumber m).Before (CivilDate.ofDayNumber n) ↔ m < n := by
  have hforward : ∀ {a b : Int}, (CivilDate.ofDayNumber a).Before (CivilDate.ofDayNumber b) →
      a < b := by
    intro a b h
    have hlt := CivilDate.dayNumber_lt (isValid_ofDayNumber a) (isValid_ofDayNumber b) h
    rwa [dayNumber_ofDayNumber, dayNumber_ofDayNumber] at hlt
  constructor
  · exact hforward
  · intro hlt
    rcases CivilDate.before_trichotomy (.ofDayNumber m) (.ofDayNumber n) with h | h | h
    · exact h
    · have hsame := congrArg CivilDate.dayNumber h
      rw [dayNumber_ofDayNumber, dayNumber_ofDayNumber] at hsame
      omega
    · have hback := hforward h
      omega

/-- A year is reached with the number of its first day. -/
theorem le_year_ofDayNumber (year n : Int) :
    year ≤ (CivilDate.ofDayNumber n).year ↔ CivilDate.dayNumber ⟨year, 1, 1⟩ ≤ n := by
  have hfirst : CivilDate.isValid ⟨year, 1, 1⟩ = true := rfl
  have hvalid := isValid_ofDayNumber n
  constructor
  · intro h
    by_contra hlt
    have hyear : ¬ CivilDate.dayNumber ⟨year, 1, 1⟩ ≤ (CivilDate.ofDayNumber n).dayNumber := by
      rwa [dayNumber_ofDayNumber]
    obtain ⟨hmonth, -, hday, -⟩ := CivilDate.isValid_iff.mp hvalid
    rcases CivilDate.before_trichotomy ⟨year, 1, 1⟩ (.ofDayNumber n) with hb | hb | hb
    · have := CivilDate.dayNumber_lt hfirst hvalid hb
      omega
    · rw [← hb] at hyear
      exact hyear le_rfl
    · unfold CivilDate.Before at hb
      simp only at hb
      omega
  · intro h
    by_contra hlt
    have hb : (CivilDate.ofDayNumber n).Before ⟨year, 1, 1⟩ := .inl (not_le.mp hlt)
    have := CivilDate.dayNumber_lt hvalid hfirst hb
    rw [dayNumber_ofDayNumber] at this
    omega

end Quarry.Date
