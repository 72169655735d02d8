/-
# Canonical timestamps are in the order of time

From the year 0 to the year 9999 canonical texts all have one width, with the larger parts of the
instant first.

* `instantChars_lt_iff` — texts of instants are in the order of the instants, whatever stands between
  the date and the time of day.
* `toCanonical_keepsOrder` — what is kept of counts is read back as their seconds, and is in the order
  of those byte by byte.
-/
import Quarry.Proofs.Date.Counts
import Quarry.Proofs.Text.Utf8

namespace Quarry.Date

open Quarry.Text

/-! ## Dates and times of day -/

theorem CivilDate.ext_iff {d e : CivilDate} :
    d = e ↔ d.year = e.year ∧ d.month = e.month ∧ d.day = e.day := by
  cases d
  cases e
  simp

/-- Earlier dates have texts that come first. -/
theorem dateChars_append_lt_iff {d e : CivilDate} (hd : d.isValid = true) (he : e.isValid = true)
    (hdyear : 0 ≤ d.year ∧ d.year ≤ 9999) (heyear : 0 ≤ e.year ∧ e.year ≤ 9999)
    (cs ds : List Char) : dateChars d ++ cs < dateChars e ++ ds ↔ d.Before e ∨ d = e ∧ cs < ds := by
  have hdmonth := (CivilDate.isValid_iff.mp hd).2.1
  have hemonth := (CivilDate.isValid_iff.mp he).2.1
  have hdday := CivilDate.day_le hd
  have heday := CivilDate.day_le he
  rw [dateChars, dateChars, yearChars_of_le hdyear.1 hdyear.2, yearChars_of_le heyear.1 heyear.2]
  simp only [List.append_assoc, List.cons_append]
  rw [Digits.padded_append_lt_iff (by omega) (by omega), List.cons_lt_cons_iff,
    Digits.padded_append_lt_iff (by omega) (by omega), List.cons_lt_cons_iff,
    Digits.padded_append_lt_iff (by omega) (by omega), CivilDate.Before, CivilDate.ext_iff]
  -- How the rests compare is no arithmetic; once it is settled, the parts of the dates are.
  by_cases hlt : cs < ds
  all_goals
    simp only [hlt, lt_self_iff_false, false_or, or_false, true_and, and_true, and_false]
    omega

/-- Earlier times of day have texts that come first. -/
theorem timeChars_append_lt_iff {s t : Nat} (hs : s < 86400) (ht : t < 86400) (cs ds : List Char) :
    timeChars s ++ cs < timeChars t ++ ds ↔ s < t ∨ s = t ∧ cs < ds := by
  unfold timeChars
  simp only [List.append_assoc, List.cons_append]
  rw [Digits.padded_append_lt_iff (by omega) (by omega), List.cons_lt_cons_iff,
    Digits.padded_append_lt_iff (by omega) (by omega), List.cons_lt_cons_iff,
    Digits.padded_append_lt_iff (by omega) (by omega)]
  by_cases hlt : cs < ds
  all_goals
    simp only [hlt, lt_self_iff_false, false_or, or_false, true_and, and_true, and_false]
    omega

/-! ## Instants -/

theorem timeOfDay_lt (second : Int) : (second % secondsOfDay).toNat < 86400 := by
  unfold secondsOfDay
  omega

/-- An instant is earlier if its date is, or if its time of day is on the same date. -/
theorem before_or_eq_iff {s t : Int} :
    (CivilDate.ofDayNumber (s / secondsOfDay)).Before (.ofDayNumber (t / secondsOfDay)) ∨
      CivilDate.ofDayNumber (s / secondsOfDay) = .ofDayNumber (t / secondsOfDay) ∧
        (s % secondsOfDay).toNat < (t % secondsOfDay).toNat ↔ s < t := by
  have hsame : CivilDate.ofDayNumber (s / secondsOfDay) = .ofDayNumber (t / secondsOfDay) ↔
      s / secondsOfDay = t / secondsOfDay := by
    constructor
    · intro h
      have hnumber := congrArg CivilDate.dayNumber h
      rwa [dayNumber_ofDayNumber, dayNumber_ofDayNumber] at hnumber
    · intro h
      rw [h]
  rw [ofDayNumber_before, hsame]
  unfold secondsOfDay
  omega

/-- A text of a second, with what stands between the date and the time of day and what ends it. -/
def instantChars (between : Char) (ending : List Char) (second : Int) : List Char :=
  dateChars (.ofDayNumber (second / secondsOfDay)) ++
    between :: timeChars (second % secondsOfDay).toNat ++ ending

theorem toList_canonicalText (second : Int) :
    (canonicalText second).toList = instantChars 'T' ['Z'] second := String.toList_ofList

/-- Earlier seconds have texts that come first. -/
theorem instantChars_lt_iff {s t : Int} (hs : InFourDigitYear s) (ht : InFourDigitYear t)
    (between : Char) (ending : List Char) :
    instantChars between ending s < instantChars between ending t ↔ s < t := by
  unfold instantChars
  simp only [List.append_assoc, List.cons_append]
  rw [dateChars_append_lt_iff (isValid_ofDayNumber _) (isValid_ofDayNumber _) hs ht,
    List.cons_lt_cons_iff, timeChars_append_lt_iff (timeOfDay_lt s) (timeOfDay_lt t),
    ← before_or_eq_iff]
  simp only [lt_self_iff_false, false_or, true_and, and_false, or_false]

/-! ## Bytes -/

theorem ascii_padded (width n : Nat) :
    ∀ c ∈ Digits.padded width n, 0 < c.toNat ∧ c.toNat < 128 := by
  intro c hc
  have hdigits : ∀ c ∈ Digits.padded width n, c.isDigit = true :=
    List.forall_mem_append.mpr
      ⟨fun _ => Digits.isDigit_of_mem_zeros, fun _ => Digits.isDigit_of_mem_chars⟩
  have hzero : '0'.toNat = 48 := rfl
  have hnine : '9'.toNat = 57 := rfl
  have hdigit := Char.isDigit_iff_toNat.mp (hdigits c hc)
  omega

theorem ascii_yearChars (year : Int) :
    ∀ c ∈ yearChars year, 0 < c.toNat ∧ c.toNat < 128 := by
  have hdigits := ascii_padded 4 year.natAbs
  unfold yearChars
  simp only
  split_ifs
  · exact hdigits
  · exact List.forall_mem_cons.mpr ⟨by decide, hdigits⟩
  · exact List.forall_mem_cons.mpr ⟨by decide, hdigits⟩

/-- Canonical texts are written in ASCII, without characters of code zero. -/
theorem ascii_canonicalText (second : Int) :
    ∀ c ∈ (canonicalText second).toList, 0 < c.toNat ∧ c.toNat < 128 := by
  have hminus : 0 < '-'.toNat ∧ '-'.toNat < 128 := by decide
  have hT : 0 < 'T'.toNat ∧ 'T'.toNat < 128 := by decide
  have hcolon : 0 < ':'.toNat ∧ ':'.toNat < 128 := by decide
  have hZ : 0 < 'Z'.toNat ∧ 'Z'.toNat < 128 := by decide
  rw [toList_canonicalText, instantChars, dateChars, timeChars]
  simp only [List.forall_mem_append, List.forall_mem_cons]
  exact ⟨⟨⟨⟨ascii_yearChars _, hminus, ascii_padded _ _⟩, hminus, ascii_padded _ _⟩, hT,
    ⟨ascii_padded _ _, hcolon, ascii_padded _ _⟩, hcolon, ascii_padded _ _⟩, hZ,
    List.forall_mem_nil _⟩

/-- The bytes of canonical texts are in the order of time. -/
theorem encode_canonicalText_lt_iff {s t : Int} (hs : InFourDigitYear s) (ht : InFourDigitYear t) :
    Utf8.encode (canonicalText s) < Utf8.encode (canonicalText t) ↔ s < t := by
  rw [Utf8.encode_eq, Utf8.encode_eq,
    Utf8.bytesOf_lt_iff (fun c hc => (ascii_canonicalText s c hc).2)
      (fun c hc => (ascii_canonicalText t c hc).2),
    toList_canonicalText, toList_canonicalText, instantChars_lt_iff hs ht]

/-- Other seconds have other texts. -/
theorem canonicalText_eq_iff {s t : Int} (hs : InFourDigitYear s) (ht : InFourDigitYear t) :
    canonicalText s = canonicalText t ↔ s = t := by
  constructor
  · intro h
    have hread := ofText?_canonicalText s
    rw [h, ofText?_canonicalText, if_pos ht, if_pos hs] at hread
    exact (congrArg Timestamp.seconds (Option.some.inj hread)).symm
  · rintro rfl
    rfl

/-! ## Counts -/

/-- Whether a format keeps a count of the years of four digits as a text. -/
def DateFormat.Keeps (format : DateFormat) (n : Int) (text : String) : Prop :=
  format.isPassthrough = false ∧ InFourDigitYear (format.secondOf n) ∧
    format.toCanonical (.ofInt n) = .ok (.string text)

theorem DateFormat.keeps_iff {format : DateFormat} {n : Int} {text : String} :
    format.Keeps n text ↔ format.isPassthrough = false ∧ InFourDigitYear (format.secondOf n) ∧
      text = canonicalText (format.secondOf n) := by
  refine and_congr_right fun hf => and_congr_right fun hyear => ?_
  rw [toCanonical_ofInt hf hyear.inCalendar, Except.ok.injEq, Json.string.injEq, eq_comm]

/-- Texts that are kept of counts come first byte by byte where the seconds of the counts do. -/
theorem DateFormat.Keeps.lt_iff {f g : DateFormat} {m n : Int} {s t : String} (hs : f.Keeps m s)
    (ht : g.Keeps n t) : Utf8.encode s < Utf8.encode t ↔ f.secondOf m < g.secondOf n := by
  obtain ⟨-, hsyear, rfl⟩ := DateFormat.keeps_iff.mp hs
  obtain ⟨-, htyear, rfl⟩ := DateFormat.keeps_iff.mp ht
  exact encode_canonicalText_lt_iff hsyear htyear

theorem DateFormat.Keeps.eq_iff {f g : DateFormat} {m n : Int} {s t : String} (hs : f.Keeps m s)
    (ht : g.Keeps n t) : Utf8.encode s = Utf8.encode t ↔ f.secondOf m = g.secondOf n := by
  obtain ⟨-, hsyear, rfl⟩ := DateFormat.keeps_iff.mp hs
  obtain ⟨-, htyear, rfl⟩ := DateFormat.keeps_iff.mp ht
  exact Utf8.encode_inj.trans (canonicalText_eq_iff hsyear htyear)

/-- A list of texts is sorted byte by byte if the seconds of the counts that it keeps are. -/
theorem DateFormat.Keeps.pairwise_iff {f : DateFormat} {counts : List Int} {texts : List String}
    (h : List.Forall₂ f.Keeps counts texts) :
    texts.Pairwise (Utf8.encode · ≤ Utf8.encode ·) ↔
      counts.Pairwise (f.secondOf · ≤ f.secondOf ·) := by
  induction h with
  | nil => exact ⟨fun _ => .nil, fun _ => .nil⟩
  | @cons n text counts texts hn hrest ih =>
    -- Each later text is kept of a later count, and the first text comes before it as the counts do.
    have hhead : (∀ t ∈ texts, Utf8.encode text ≤ Utf8.encode t) ↔
        ∀ m ∈ counts, f.secondOf n ≤ f.secondOf m := by
      constructor
      · intro hall m hm
        obtain ⟨t, ht, hkept⟩ := Outcome.exists_of_mem_right hrest.flip hm
        exact not_lt.mp fun hlt => hall t ht ((Keeps.lt_iff hkept hn).mpr hlt)
      · intro hall t ht hlt
        obtain ⟨m, hm, hkept⟩ := Outcome.exists_of_mem_right hrest ht
        exact absurd ((hkept.lt_iff hn).mp hlt) (not_lt.mpr (hall m hm))
    rw [List.pairwise_cons, List.pairwise_cons, hhead, ih]

/-- Canonical texts are a code of the seconds of the years 0 to 9999 that keeps their order. Counts
of seconds are read back as they were, counts of milliseconds as whole seconds; a count of seconds
has the text of the same instant in milliseconds; and texts are sorted byte by byte as their seconds
are. -/
theorem toCanonical_keepsOrder :
    (∀ n, InFourDigitYear n → ∃ text, DateFormat.epochSecond.toCanonical (.ofInt n) =
        .ok (.string text) ∧ DateFormat.epochSecond.ofCanonical text = .ok (.ofInt n)) ∧
    (∀ n, InFourDigitYear (n / 1000) → ∃ text, DateFormat.epochMillis.toCanonical (.ofInt n) =
        .ok (.string text) ∧
      DateFormat.epochMillis.ofCanonical text = .ok (.ofInt (n / 1000 * 1000))) ∧
    (∀ n, InFourDigitYear n → DateFormat.epochSecond.toCanonical (.ofInt n) =
      DateFormat.epochMillis.toCanonical (.ofInt (1000 * n))) ∧
    (∀ f g m n s t, DateFormat.Keeps f m s → DateFormat.Keeps g n t →
      (Utf8.encode s < Utf8.encode t ↔ f.secondOf m < g.secondOf n) ∧
      (Utf8.encode s = Utf8.encode t ↔ f.secondOf m = g.secondOf n)) ∧
    ∀ f counts texts, List.Forall₂ (DateFormat.Keeps f) counts texts →
      (texts.Pairwise (Utf8.encode · ≤ Utf8.encode ·) ↔
        counts.Pairwise (f.secondOf · ≤ f.secondOf ·)) := by
  refine ⟨fun n hn => ?_, fun n hn => ?_, fun n hn => ?_,
    fun f g m n s t hs ht => ⟨hs.lt_iff ht, hs.eq_iff ht⟩,
    fun f counts texts h => DateFormat.Keeps.pairwise_iff h⟩
  · refine ⟨canonicalText n, toCanonical_ofInt rfl hn.inCalendar, ?_⟩
    exact (ofCanonical_canonicalText rfl n).trans (if_pos hn)
  · refine ⟨canonicalText (n / 1000), toCanonical_ofInt rfl hn.inCalendar, ?_⟩
    exact (ofCanonical_canonicalText rfl n).trans (if_pos hn)
  · have hsecond : DateFormat.epochMillis.secondOf (1000 * n) = n :=
      Int.mul_ediv_cancel_left n (by decide)
    have hmillis := toCanonical_ofInt rfl (hsecond.symm ▸ hn.inCalendar)
    rw [hmillis, hsecond]
    exact toCanonical_ofInt rfl hn.inCalendar

/-- The last millisecond before 1970 belongs to the last second before it, which comes before the
first second of 1970. -/
theorem toCanonical_keepsOrder_beforeEpoch :
    DateFormat.epochMillis.toCanonical (.ofInt (-1)) = .ok (.string "1969-12-31T23:59:59Z") ∧
    DateFormat.epochMillis.ofCanonical "1969-12-31T23:59:59Z" = .ok (.ofInt (-1000)) ∧
    Utf8.encode "1969-12-31T23:59:59Z" < Utf8.encode "1970-01-01T00:00:00Z" := by
  obtain ⟨-, hmillis, -, horder, -⟩ := toCanonical_keepsOrder
  have hkept : DateFormat.epochMillis.toCanonical (.ofInt (-1)) =
      .ok (.string "1969-12-31T23:59:59Z") := rfl
  obtain ⟨text, htext, hback⟩ := hmillis (-1) (by decide)
  cases htext.symm.trans hkept
  have hfirst : DateFormat.epochSecond.Keeps 0 "1970-01-01T00:00:00Z" := ⟨rfl, by decide, rfl⟩
  exact ⟨hkept, hback, (horder _ _ _ _ _ _ ⟨rfl, by decide, hkept⟩ hfirst).1.mpr (by decide)⟩

end Quarry.Date
