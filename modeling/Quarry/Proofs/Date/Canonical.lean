/-
# Canonical timestamps are read back

* `InFourDigitYear` — whether the year of an instant has four digits, and no sign.
* `ofText?_canonicalText` — the text of such an instant says the instant. The text of any other one
  says nothing: years of more digits are written with a sign, which is not read.
-/
import Quarry.Date.Canonical
import Quarry.Proofs.Date.Calendar
import Quarry.Proofs.Text.Digits

namespace Quarry.Date

open Quarry.Text

/-! ## Parts of a text -/

/-- So many digits are taken as a number. -/
theorem takeNumber_fixedDigits (width value n : Nat) (rest : List Char) :
    takeNumber width value (Digits.fixedDigits width n ++ rest) =
      some (value * 10 ^ width + n % 10 ^ width, rest) := by
  induction width generalizing value with
  | zero => simp [takeNumber, Digits.fixedDigits, Nat.mod_one]
  | succ width ih =>
    have hdigit : n / 10 ^ width % 10 < 10 := Nat.mod_lt _ (by decide)
    rw [Digits.fixedDigits, List.cons_append, takeNumber, Digits.digit?_digitChar hdigit,
      Option.bind_some, ih, Nat.mod_pow_succ]
    congr 2
    ring

/-- A number that was filled up to a width is taken. -/
theorem takeNumber_padded {width n : Nat} (h : n < 10 ^ (width + 1)) (rest : List Char) :
    takeNumber (width + 1) 0 (Digits.padded (width + 1) n ++ rest) = some (n, rest) := by
  rw [Digits.padded_eq_fixedDigits h, takeNumber_fixedDigits, Nat.zero_mul, Nat.zero_add,
    Nat.mod_eq_of_lt h]

/-- What does not start with a digit is no number. -/
theorem takeNumber_of_not_isDigit {c : Char} (h : c.isDigit = false) (width value : Nat)
    (cs : List Char) : takeNumber (width + 1) value (c :: cs) = none := by
  rw [takeNumber, Digits.digit?, if_neg (by rw [h]; decide)]
  rfl

/-- A year of four digits has no sign. -/
theorem yearChars_of_le {year : Int} (h0 : 0 ≤ year) (h1 : year ≤ 9999) :
    yearChars year = Digits.padded 4 year.natAbs := if_pos ⟨h0, h1⟩

/-- Any other year has one. -/
theorem yearChars_of_not_le {year : Int} (h : ¬ (0 ≤ year ∧ year ≤ 9999)) :
    ∃ c cs, yearChars year = c :: cs ∧ c.isDigit = false := by
  unfold yearChars
  rw [if_neg h]
  split_ifs
  · exact ⟨'+', _, rfl, rfl⟩
  · exact ⟨'-', _, rfl, rfl⟩

/-- A date of the calendar is taken if its year has four digits. -/
theorem takeDate_dateChars {d : CivilDate} (hd : d.isValid = true) (h0 : 0 ≤ d.year)
    (h1 : d.year ≤ 9999) (rest : List Char) : takeDate (dateChars d ++ rest) = some (d, rest) := by
  have hmonth := (CivilDate.isValid_iff.mp hd).2.1
  have hday := CivilDate.day_le hd
  have hdate : (⟨(d.year.natAbs : Nat), d.month, d.day⟩ : CivilDate) = d := by
    rw [Int.natAbs_of_nonneg h0]
  unfold takeDate dateChars
  rw [yearChars_of_le h0 h1]
  simp only [List.append_assoc, List.cons_append, Option.bind_eq_bind, Option.bind_some,
    takeNumber_padded (show d.year.natAbs < 10 ^ 4 by omega), takeOneOf,
    takeNumber_padded (show d.month < 10 ^ 2 by omega),
    takeNumber_padded (show d.day < 10 ^ 2 by omega), hdate, hd, List.contains_cons, BEq.rfl,
    Bool.true_or, ↓reduceIte]

/-- A date of another year is not. -/
theorem takeDate_of_not_le {d : CivilDate} (h : ¬ (0 ≤ d.year ∧ d.year ≤ 9999))
    (rest : List Char) : takeDate (dateChars d ++ rest) = none := by
  obtain ⟨c, cs, hyear, hc⟩ := yearChars_of_not_le h
  unfold takeDate dateChars
  rw [hyear]
  simp only [List.cons_append, takeNumber_of_not_isDigit hc, Option.bind_eq_bind, Option.bind_none]

/-- A time of day is taken. -/
theorem takeTime_timeChars {s : Nat} (h : s < 86400) (rest : List Char) :
    takeTime (timeChars s ++ rest) = some (⟨s, 0⟩, rest) := by
  have hparts : s / 3600 * 3600 + s / 60 % 60 * 60 + min (s % 60) 59 = s := by omega
  have hrange : s / 3600 ≤ 23 ∧ s / 60 % 60 ≤ 59 ∧ s % 60 ≤ 60 := by omega
  have hsecond : ¬ s % 60 = 60 := by omega
  unfold takeTime timeChars
  simp only [List.append_assoc, List.cons_append, Option.bind_eq_bind, Option.bind_some, takeOneOf,
    takeNumber_padded (show s / 3600 < 10 ^ 2 by omega),
    takeNumber_padded (show s / 60 % 60 < 10 ^ 2 by omega),
    takeNumber_padded (show s % 60 < 10 ^ 2 by omega), hparts, hrange, hsecond,
    List.contains_cons, BEq.rfl, Bool.true_or, and_self, ↓reduceIte]

/-! ## Instants -/

/-- Whether the year of an instant has four digits, and no sign. -/
def InFourDigitYear (seconds : Int) : Prop :=
  0 ≤ (CivilDate.ofDayNumber (seconds / secondsOfDay)).year ∧
    (CivilDate.ofDayNumber (seconds / secondsOfDay)).year ≤ 9999

instance (seconds : Int) : Decidable (InFourDigitYear seconds) :=
  inferInstanceAs (Decidable (_ ∧ _))

/-- The first and the last second of the years of four digits. -/
theorem inFourDigitYear_iff {seconds : Int} :
    InFourDigitYear seconds ↔ -62167219200 ≤ seconds ∧ seconds ≤ 253402300799 := by
  have hfirst : CivilDate.dayNumber ⟨0, 1, 1⟩ = -719528 := rfl
  have hnext : CivilDate.dayNumber ⟨10000, 1, 1⟩ = 2932897 := rfl
  have hlow := le_year_ofDayNumber 0 (seconds / secondsOfDay)
  have hhigh := le_year_ofDayNumber 10000 (seconds / secondsOfDay)
  rw [hfirst] at hlow
  rw [hnext] at hhigh
  unfold InFourDigitYear
  unfold secondsOfDay at *
  omega

/-- The text of an instant says the instant if its year has four digits, and nothing otherwise. -/
theorem ofText?_canonicalText (seconds : Int) :
    Timestamp.ofText? (canonicalText seconds) =
      if InFourDigitYear seconds then some ⟨seconds, 0⟩ else none := by
  unfold Timestamp.ofText? canonicalText
  rw [String.toList_ofList, List.append_assoc]
  by_cases hyear : InFourDigitYear seconds
  · have hfraction : takeFraction ['Z'] = some (0, ['Z']) := rfl
    have hoffset : takeOffset ['Z'] = some (0, []) := rfl
    have htime : (seconds % secondsOfDay).toNat < 86400 := by
      unfold secondsOfDay
      omega
    have hsum : seconds / secondsOfDay * secondsOfDay + ((seconds % secondsOfDay).toNat : Nat) - 0 =
        seconds := by
      unfold secondsOfDay
      omega
    rw [if_pos hyear, takeDate_dateChars (isValid_ofDayNumber _) hyear.1 hyear.2]
    simp only [List.cons_append, Option.bind_eq_bind, Option.bind_some, takeOneOf,
      List.contains_cons, BEq.rfl, Bool.true_or, ↓reduceIte, takeTime_timeChars htime, hfraction,
      hoffset, List.isEmpty_nil, dayNumber_ofDayNumber, hsum]
  · rw [if_neg hyear, takeDate_of_not_le hyear]
    rfl

end Quarry.Date
