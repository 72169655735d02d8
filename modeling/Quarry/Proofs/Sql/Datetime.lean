/-
# Canonical timestamps in statements

Statements compare instants by texts of one form, in the order of time.

* `datetimeText?_canonicalText` — the canonical text of an instant has such a text from the start of
  the Julian period to the end of the year 9999; outside it has none.
* `instantText_lt_iff` — the texts of instants are in the order of the instants.
-/
import Quarry.Proofs.Date.Order
import Quarry.Sql.Datetime

namespace Quarry.Sql

open Quarry.Date Quarry.Text

/-! ## The text of an instant -/

/-- The date of an instant. -/
def dateOf (seconds : Int) : CivilDate := .ofDayNumber (seconds / secondsOfDay)

/-- The second in its day of an instant. -/
def secondOf (seconds : Int) : Nat := (seconds % secondsOfDay).toNat

/-- The text of an instant in statements. -/
def instantText (seconds : Int) : String := dateAndTime (dateOf seconds) (secondOf seconds)

theorem secondOf_lt (seconds : Int) : secondOf seconds < 86400 := timeOfDay_lt seconds

theorem canonicalText_eq (seconds : Int) : canonicalText seconds =
    String.ofList (dateChars (dateOf seconds) ++ 'T' :: timeChars (secondOf seconds) ++ ['Z']) := rfl

/-! ## Reading dates -/

theorem takeTwo_padded {greatest n : Nat} (h : n ≤ greatest) (hn : n < 100) (rest : List Char) :
    takeTwo greatest (Digits.padded 2 n ++ rest) = some (n, rest) := by
  rw [takeTwo, takeNumber_padded hn]
  simp [h]

/-- Takes a date after its sign. -/
def takeUnsigned (negative : Bool) (cs : List Char) : Option (CivilDate × List Char) := do
  let (year, cs) ← takeNumber 4 0 cs
  let cs ← takeOneOf ['-'] cs
  let (month, cs) ← takeTwo 12 cs
  let cs ← takeOneOf ['-'] cs
  let (day, cs) ← takeTwo 31 cs
  if month = 0 ∨ day = 0 then none
  else some (⟨if negative then -(year : Int) else year, month, day⟩, cs)

theorem takeCivil_minus (cs : List Char) : takeCivil ('-' :: cs) = takeUnsigned true cs := rfl

theorem takeCivil_of_ne {c : Char} (h : c ≠ '-') (cs : List Char) :
    takeCivil (c :: cs) = takeUnsigned false (c :: cs) := by
  unfold takeCivil
  split
  next heq =>
    split at heq
    · next hminus =>
      cases hminus
      exact absurd rfl h
    · cases heq
      rfl

theorem takeUnsigned_padded {d : CivilDate} (hd : d.isValid = true) (h : d.year.natAbs < 10000)
    (negative : Bool) (hyear : (if negative then -(d.year.natAbs : Int) else d.year.natAbs) = d.year)
    (rest : List Char) :
    takeUnsigned negative (Digits.padded 4 d.year.natAbs ++ '-' :: Digits.padded 2 d.month ++
      '-' :: Digits.padded 2 d.day ++ rest) = some (d, rest) := by
  obtain ⟨hmonth1, hmonth, hday1, -⟩ := CivilDate.isValid_iff.mp hd
  have hday := CivilDate.day_le hd
  have hzero : ¬ (d.month = 0 ∨ d.day = 0) := by omega
  unfold takeUnsigned
  simp only [List.append_assoc, List.cons_append, Option.bind_eq_bind, Option.bind_some, takeOneOf,
    takeNumber_padded (show d.year.natAbs < 10 ^ 4 from h), takeTwo_padded hmonth (by omega),
    takeTwo_padded hday (by omega), hyear, hzero, List.contains_cons, BEq.rfl, Bool.true_or, ↓reduceIte]

/-- A year of four digits is taken, with a minus sign or without one. -/
theorem takeCivil_dateChars {d : CivilDate} (hd : d.isValid = true) (h : d.year.natAbs < 10000)
    (rest : List Char) : takeCivil (dateChars d ++ rest) = some (d, rest) := by
  unfold dateChars yearChars
  by_cases h0 : 0 ≤ d.year
  · obtain ⟨c, cs, hcs, hc⟩ := Digits.padded_eq_cons 4 d.year.natAbs
    have hne : c ≠ '-' := by
      rintro rfl
      cases hc
    have habs : (d.year.natAbs : Int) = d.year := Int.natAbs_of_nonneg h0
    have htake := takeUnsigned_padded hd h false habs rest
    rw [if_pos (by omega)]
    rw [hcs] at htake ⊢
    exact (takeCivil_of_ne hne _).trans htake
  · have habs : -(d.year.natAbs : Int) = d.year := by omega
    rw [if_neg (by omega), if_neg h0]
    exact (takeCivil_minus _).trans (takeUnsigned_padded hd h true habs rest)

/-- Digits are taken as a number. -/
theorem takeNumber_of_isDigit {ds : List Char} (h : ∀ c ∈ ds, c.isDigit = true) (value : Nat)
    (rest : List Char) :
    takeNumber ds.length value (ds ++ rest) = some (Nat.ofDigitChars 10 ds value, rest) := by
  induction ds generalizing value with
  | nil => rfl
  | cons c ds ih =>
    rw [List.length_cons, List.cons_append, takeNumber,
      Digits.digit?_of_isDigit (h c List.mem_cons_self), Option.bind_some,
      ih fun d hd => h d (List.mem_cons_of_mem c hd), Nat.ofDigitChars_cons, Nat.mul_comm]

/-- A year of more digits starts with a sign, and has a digit too many. -/
theorem yearChars_of_natAbs_le {year : Int} (h : 10000 ≤ year.natAbs) :
    ∃ sign ds d rest, (sign = '+' ∨ sign = '-') ∧ ds.length = 4 ∧
      yearChars year = sign :: (ds ++ d :: rest) ∧ ∀ c ∈ ds ++ d :: rest, c.isDigit = true := by
  have hlength : ¬ (Digits.chars year.natAbs).length ≤ 4 := by
    rw [Digits.chars, Nat.length_toDigits_le_iff (by decide) (by decide)]
    exact not_lt.mpr h
  have hpadded : Digits.padded 4 year.natAbs = Digits.chars year.natAbs := by
    have hzeros : 4 - (Digits.chars year.natAbs).length = 0 := by omega
    unfold Digits.padded
    simp only [hzeros]
    rfl
  have hdrop : (Digits.chars year.natAbs).drop 4 ≠ [] := by
    rw [Ne, List.drop_eq_nil_iff]
    exact hlength
  obtain ⟨d, rest, hd⟩ := List.exists_cons_of_ne_nil hdrop
  have hsplit : Digits.chars year.natAbs = (Digits.chars year.natAbs).take 4 ++ d :: rest := by
    rw [← hd, List.take_append_drop]
  refine ⟨if 0 ≤ year then '+' else '-', (Digits.chars year.natAbs).take 4, d, rest, ?_, ?_, ?_, ?_⟩
  · split_ifs
    · exact .inl rfl
    · exact .inr rfl
  · rw [List.length_take]
    omega
  · rw [← hsplit, yearChars, if_neg (by omega), hpadded]
    split_ifs <;> rfl
  · rw [← hsplit]
    exact fun c hc => Digits.isDigit_of_mem_chars hc

theorem takeNumber_sign {sign : Char} (h : sign = '+' ∨ sign = '-') (width value : Nat)
    (cs : List Char) : takeNumber (width + 1) value (sign :: cs) = none := by
  refine takeNumber_of_not_isDigit ?_ width value cs
  rcases h with rfl | rfl <;> rfl

/-- Such a year is not taken. -/
theorem takeCivil_of_le {d : CivilDate} (h : 10000 ≤ d.year.natAbs) (rest : List Char) :
    takeCivil (dateChars d ++ rest) = none := by
  obtain ⟨sign, ds, c, cs, hsign, hlength, hyear, hdigits⟩ := yearChars_of_natAbs_le h
  unfold dateChars
  simp only [hyear, List.cons_append, List.append_assoc]
  rcases hsign with rfl | rfl
  · rw [takeCivil_of_ne (by decide), takeUnsigned, takeNumber_sign (.inl rfl)]
    rfl
  · have hds : ∀ c ∈ ds, c.isDigit = true := fun c hc => hdigits c (List.mem_append_left _ hc)
    have hc : c.isDigit = true := hdigits c (List.mem_append_right _ List.mem_cons_self)
    have hne : c ≠ '-' := by
      rintro rfl
      cases hc
    have htake := takeNumber_of_isDigit hds 0
    rw [hlength] at htake
    rw [takeCivil_minus, takeUnsigned]
    simp only [htake, Option.bind_eq_bind, Option.bind_some, takeOneOf, List.contains_cons,
      List.contains_nil, Bool.or_false, beq_iff_eq, hne, ↓reduceIte, Option.bind_none]

/-! ## Reading times -/

/-- A time of day in universal time is read. -/
theorem readTime?_timeChars {s : Nat} (h : s < 86400) :
    readTime? (timeChars s ++ ['Z']) = some ⟨s, 0, 0⟩ := by
  have hparts : s / 3600 * 3600 + s / 60 % 60 * 60 + s % 60 = s := by omega
  have hfraction : takeSecondFraction ['Z'] = (0, ['Z']) := rfl
  have hzone : readZone? ['Z'] = some 0 := rfl
  unfold readTime? timeChars
  simp only [List.append_assoc, List.cons_append, Option.bind_eq_bind, Option.bind_some, takeOneOf,
    takeSeconds, takeTwo_padded (show s / 3600 ≤ 24 by omega) (by omega),
    takeTwo_padded (show s / 60 % 60 ≤ 59 by omega) (by omega),
    takeTwo_padded (show s % 60 ≤ 59 by omega) (by omega), hparts, hfraction, hzone,
    List.contains_cons, BEq.rfl, Bool.true_or, ↓reduceIte]

theorem isBlankChar_of_isDigit {c : Char} (h : c.isDigit = true) :
    (isBlankChar c || c == 'T') = false := by
  obtain ⟨hlow, hhigh⟩ := Char.isDigit_iff_toNat.mp h
  have hzero : '0'.toNat = 48 := rfl
  have hnine : '9'.toNat = 57 := rfl
  have hblank : c ≠ ' ' := by
    rintro rfl
    cases h
  have hT : c ≠ 'T' := by
    rintro rfl
    cases h
  simp only [isBlankChar, Bool.or_eq_false_iff, Bool.and_eq_false_iff, beq_eq_false_iff_ne,
    decide_eq_false_iff_not]
  exact ⟨⟨hblank, by omega⟩, hT⟩

/-- A date and a time of day are read together. -/
theorem readDated?_eq {d : CivilDate} (hd : d.isValid = true) (h : d.year.natAbs < 10000) {s : Nat}
    (hs : s < 86400) :
    readDated? (dateChars d ++ 'T' :: timeChars s ++ ['Z']) = some (d, ⟨s, 0, 0⟩) := by
  obtain ⟨c, cs, hcs, hc⟩ := Digits.padded_eq_cons 2 (s / 3600)
  have htime : timeChars s ++ ['Z'] = c :: (cs ++ (':' :: Digits.padded 2 (s / 60 % 60) ++
      ':' :: Digits.padded 2 (s % 60)) ++ ['Z']) := by
    unfold timeChars
    rw [hcs]
    simp only [List.append_assoc, List.cons_append]
  have hdrop : ('T' :: timeChars s ++ ['Z']).dropWhile (fun c => isBlankChar c || c == 'T') =
      timeChars s ++ ['Z'] := by
    rw [List.cons_append, List.dropWhile_cons_of_pos (by decide), htime,
      List.dropWhile_cons_of_neg (by rw [isBlankChar_of_isDigit hc]; decide)]
  have hne : (timeChars s ++ ['Z']).isEmpty = false := by
    rw [htime]
    rfl
  unfold readDated?
  rw [List.append_assoc, takeCivil_dateChars hd h]
  simp only [Option.bind_eq_bind, Option.bind_some, hdrop, hne, readTime?_timeChars hs,
    Bool.false_eq_true, ↓reduceIte]

/-! ## Instants -/

/-- Whether statements reach an instant: from the start of the Julian period, which is a noon, to the
end of the year 9999. -/
def InStatements (seconds : Int) : Prop := -210866760000 ≤ seconds ∧ seconds ≤ 253402300799

instance (seconds : Int) : Decidable (InStatements seconds) := inferInstanceAs (Decidable (_ ∧ _))

/-- A text that starts with a sign and digits, with a minus sign behind them, writes no number. -/
theorem complete_of_sign {sign : Char} (hsign : sign = '+' ∨ sign = '-') {ds : List Char}
    (hds : ∀ c ∈ ds, c.isDigit = true) (rest : List Char) :
    (LeadingNumber.ofText (String.ofList (sign :: (ds ++ '-' :: rest)))).complete = false := by
  have hblank : isBlankChar sign = false := by rcases hsign with rfl | rfl <;> rfl
  have htake : (takeSign (sign :: (ds ++ '-' :: rest))).2 = ds ++ '-' :: rest := by
    rcases hsign with rfl | rfl <;> rfl
  have hwhole : (ds ++ '-' :: rest).takeWhile Char.isDigit = ds := by
    rw [List.takeWhile_append_of_pos hds, List.takeWhile_cons_of_neg (by decide), List.append_nil]
  have hafter : (ds ++ '-' :: rest).dropWhile Char.isDigit = '-' :: rest := by
    rw [List.dropWhile_append_of_pos hds, List.dropWhile_cons_of_neg (by decide)]
  have hend : (('-' :: rest).dropWhile isBlankChar).isEmpty = false := by
    rw [List.dropWhile_cons_of_neg (by decide)]
    rfl
  unfold LeadingNumber.ofText
  rw [String.toList_ofList, List.dropWhile_cons_of_neg (by rw [hblank]; decide)]
  simp only [htake, hwhole, hafter]
  show (_ && (('-' :: rest).dropWhile isBlankChar).isEmpty) = false
  rw [hend, Bool.and_false]

/-- The text of an instant is read as a whole. -/
theorem textInstant?_canonicalText (seconds : Int) :
    textInstant? (canonicalText seconds) = wholeInstant? (canonicalText seconds) := by
  have hzero : Char.ofNat 0 ∉ (canonicalText seconds).toList := fun hmem =>
    absurd (ascii_canonicalText seconds _ hmem).1 (by decide)
  rw [textInstant?, untilZero_eq_self hzero, String.ofList_toList]

/-- The text of an instant whose year has too many digits says no instant. -/
theorem wholeInstant?_of_le {seconds : Int} (h : 10000 ≤ (dateOf seconds).year.natAbs) :
    wholeInstant? (canonicalText seconds) = none := by
  obtain ⟨sign, ds, c, cs, hsign, -, hyear, hdigits⟩ := yearChars_of_natAbs_le h
  have hdated : readDated? (canonicalText seconds).toList = none := by
    rw [canonicalText_eq, String.toList_ofList, List.append_assoc, readDated?, takeCivil_of_le h]
    rfl
  have hchars : ∃ rest, canonicalText seconds =
      String.ofList (sign :: ((ds ++ c :: cs) ++ '-' :: rest)) := by
    rw [canonicalText_eq, dateChars, hyear]
    simp only [List.append_assoc, List.cons_append]
    exact ⟨_, rfl⟩
  obtain ⟨rest, hrest⟩ := hchars
  have htime : readTime? (canonicalText seconds).toList = none := by
    rw [hrest, String.toList_ofList, readTime?, takeTwo, takeNumber_sign hsign]
    rfl
  have hnumber := complete_of_sign hsign hdigits rest
  rw [← hrest] at hnumber
  simp only [wholeInstant?, hdated, htime, hnumber, Bool.false_eq_true, ↓reduceIte]

/-- The text of an instant says the instant, if statements reach it. -/
theorem zonedText?_eq (seconds : Int) : zonedText? (dateOf seconds) ⟨secondOf seconds, 0, 0⟩ =
    if InStatements seconds then some (instantText seconds) else none := by
  have hinstant : julianOfDate (dateOf seconds) + (secondOf seconds : Nat) * 1000 + (0 : Nat) -
      0 * 60000 = seconds * 1000 + julianStart := by
    rw [julianOfDate, dateOf, dayNumber_ofDayNumber]
    unfold secondOf secondsOfDay millisOfDay
    omega
  have hdate : dateOfJulian (seconds * 1000 + julianStart) = dateOf seconds := by
    rw [dateOfJulian, dateOf]
    congr 1
    unfold millisOfDay secondsOfDay
    omega
  have hjulian : isJulian (seconds * 1000 + julianStart) = true ↔ InStatements seconds := by
    unfold isJulian julianStart julianEnd InStatements
    rw [Bool.and_eq_true, decide_eq_true_eq, decide_eq_true_eq]
    omega
  have hyear := le_year_ofDayNumber (-4713) (seconds / secondsOfDay)
  rw [show CivilDate.dayNumber ⟨-4713, 1, 1⟩ = -2440915 from rfl] at hyear
  unfold zonedText?
  simp only [hinstant, hdate]
  by_cases h : InStatements seconds
  · have hcond : ¬ ((dateOf seconds).year < -4713 ∨
        (!isJulian (seconds * 1000 + julianStart)) = true) := by
      rw [Bool.not_eq_true', hjulian.mpr h]
      unfold dateOf secondsOfDay at *
      unfold InStatements at h
      simp
      omega
    rw [if_neg hcond, if_pos h, if_neg (by decide), ite_self]
    rfl
  · have hcond : (dateOf seconds).year < -4713 ∨
        (!isJulian (seconds * 1000 + julianStart)) = true := by
      right
      rw [Bool.not_eq_true', Bool.eq_false_iff]
      exact fun hj => h (hjulian.mp hj)
    rw [if_pos hcond, if_neg h]

/-- The canonical text of an instant says the instant, if statements reach it. -/
theorem datetimeText?_canonicalText (seconds : Int) :
    datetimeText? (.text (canonicalText seconds)) =
      if InStatements seconds then some (instantText seconds) else none := by
  show textInstant? (canonicalText seconds) = _
  rw [textInstant?_canonicalText]
  by_cases hyear : (dateOf seconds).year.natAbs < 10000
  · have hvalid : (dateOf seconds).isValid = true := isValid_ofDayNumber _
    have hdated := readDated?_eq hvalid hyear (secondOf_lt seconds)
    rw [wholeInstant?, canonicalText_eq, String.toList_ofList, hdated]
    exact zonedText?_eq seconds
  · rw [wholeInstant?_of_le (not_lt.mp hyear), if_neg]
    have hlow := le_year_ofDayNumber (-9999) (seconds / secondsOfDay)
    have hhigh := le_year_ofDayNumber 10000 (seconds / secondsOfDay)
    rw [show CivilDate.dayNumber ⟨-9999, 1, 1⟩ = -4371587 from rfl] at hlow
    rw [show CivilDate.dayNumber ⟨10000, 1, 1⟩ = 2932897 from rfl] at hhigh
    unfold dateOf at hyear
    unfold InStatements secondsOfDay at *
    omega

/-! ## Order -/

/-- The text of an instant whose year has four digits differs from the canonical one only around the
time of day. -/
theorem toList_instantText {seconds : Int} (h : InFourDigitYear seconds) :
    (instantText seconds).toList = instantChars ' ' [] seconds := by
  have hyear : ¬ (dateOf seconds).year < 0 := not_lt.mpr h.1
  rw [instantText, dateAndTime, String.toList_ofList, if_neg hyear, instantChars, dateChars,
    yearChars_of_le h.1 h.2, List.append_nil]
  rfl

/-- The texts of instants are in the order of the instants. -/
theorem instantText_lt_iff {s t : Int} (hs : InFourDigitYear s) (ht : InFourDigitYear t) :
    instantText s < instantText t ↔ s < t := by
  rw [String.lt_iff, toList_instantText hs, toList_instantText ht, instantChars_lt_iff hs ht]

/-- Instants before the year 0 have texts that come before those of the years of four digits. -/
theorem instantText_lt_of_negative {s t : Int} (hs : InStatements s) (hs' : ¬ InFourDigitYear s)
    (ht : InFourDigitYear t) : instantText s < instantText t ∧ s < t := by
  have hbounds := inFourDigitYear_iff.mp ht
  rw [inFourDigitYear_iff] at hs'
  unfold InStatements at hs
  refine ⟨?_, by omega⟩
  have hyear : (dateOf s).year < 0 := by
    have hzero := le_year_ofDayNumber 0 (s / secondsOfDay)
    rw [show CivilDate.dayNumber ⟨0, 1, 1⟩ = -719528 from rfl] at hzero
    unfold dateOf
    unfold secondsOfDay at *
    omega
  obtain ⟨c, cs, hcs, hc⟩ := Digits.padded_eq_cons 4 (dateOf t).year.natAbs
  have hlow := (Char.isDigit_iff_toNat.mp hc).1
  rw [String.lt_iff, toList_instantText ht, instantChars, dateChars, yearChars_of_le ht.1 ht.2]
  rw [dateOf] at hcs
  rw [hcs, instantText, dateAndTime, String.toList_ofList, if_pos hyear]
  simp only [List.cons_append, List.nil_append]
  exact List.Lex.rel (Nat.lt_of_lt_of_le (show '-'.toNat < '0'.toNat by decide) hlow)

/-- The texts of instants compare like the instants. -/
theorem compare_instantText {s t : Int} (hs : InFourDigitYear s) (ht : InStatements t) :
    compare (instantText s) (instantText t) = compare s t := by
  by_cases ht' : InFourDigitYear t
  · rcases lt_trichotomy s t with h | h | h
    · rw [compare_lt_iff_lt.mpr h, compare_lt_iff_lt]
      exact (instantText_lt_iff hs ht').mpr h
    · rw [h, compare_eq_iff_eq.mpr rfl, compare_eq_iff_eq.mpr rfl]
    · rw [compare_gt_iff_gt.mpr h, compare_gt_iff_gt]
      exact (instantText_lt_iff ht' hs).mpr h
  · obtain ⟨htext, hlt⟩ := instantText_lt_of_negative ht ht' hs
    rw [compare_gt_iff_gt.mpr hlt, compare_gt_iff_gt.mpr htext]

end Quarry.Sql
