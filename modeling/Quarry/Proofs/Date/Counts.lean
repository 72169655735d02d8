/-
# Counts since 1970

Clients send dates as counts, which are numbers or strings.

* `DateFormat.secondOf` — the second of a count. What is kept of a count is the text of its second:
  `toCanonical_eq_ok`.
* `InCalendar` — whether the calendar reaches a second.
* `ofCanonical_canonicalText` — what is read back is the whole seconds of the count.
-/
import Quarry.Date.Format
import Quarry.Proofs.Date.Canonical
import Quarry.Proofs.Outcome

namespace Quarry.Date

open Quarry.Outcome Quarry.Text

/-! ## What clients send -/

/-- The integer that a client sent, as a number or as a string. -/
def sentInteger? : Json → Option Int
  | .number (.int n) => some n
  | .string s => Digits.int64Of? (trim s)
  | _ => none

/-- Whether a value is one that a client may send for an instant. -/
def IsCount (v : Json) : Prop :=
  v = .null ∨ (∃ n, v = .number (.int n)) ∨ ∃ s, v = .string s

/-- The second that is kept of a count. -/
def DateFormat.secondOf (format : DateFormat) (n : Int) : Int :=
  match format with
  | .epochMillis => n / 1000
  | _ => n

/-- The count of the second that is kept of a count. -/
def DateFormat.wholeSeconds (format : DateFormat) (n : Int) : Int :=
  match format with
  | .epochMillis => n / 1000 * 1000
  | _ => n

/-- What clients see of a value that they sent. -/
def DateFormat.shown (format : DateFormat) (v : Json) : Json :=
  match format, sentInteger? v with
  | .epochMillis, some n => .ofInt (n / 1000 * 1000)
  | .epochSecond, some n => .ofInt n
  | _, _ => v

/-- Whether the calendar reaches a second. -/
def InCalendar (second : Int) : Prop := secondRange.1 ≤ second ∧ second ≤ secondRange.2

theorem secondsOf?_eq_some {second found : Int} :
    secondsOf? second = some found ↔ InCalendar second ∧ found = second := by
  unfold secondsOf? InCalendar
  split_ifs with h
  · simp [h, eq_comm]
  · simp [h]

/-- The years of four digits lie within the calendar. -/
theorem InFourDigitYear.inCalendar {second : Int} (h : InFourDigitYear second) :
    InCalendar second := by
  obtain ⟨hlow, hhigh⟩ := inFourDigitYear_iff.mp h
  unfold InCalendar secondRange
  omega

/-! ## What is kept -/

/-- The epoch formats keep a count in the same way, each for its own second. -/
theorem toCanonical_of_epoch {format : DateFormat} (hf : format.isPassthrough = false) (v : Json) :
    format.toCanonical v = epochCount format.name v >>= fun count =>
      (secondsOf? (format.secondOf count)).elim (throw (.outOfRange count format.name))
        fun seconds => return .string (canonicalText seconds) := by
  cases format with
  | passthrough name => cases hf
  | epochMillis =>
    refine congrArg (epochCount _ v >>= ·) (funext fun count => ?_)
    show _ = (secondsOf? (count / 1000)).elim _ _
    cases secondsOf? (count / 1000) <;> rfl
  | epochSecond =>
    refine congrArg (epochCount _ v >>= ·) (funext fun count => ?_)
    show _ = (secondsOf? count).elim _ _
    cases secondsOf? count <;> rfl

/-- A value is kept as the canonical text of the second of its count, if the calendar reaches it. -/
theorem toCanonical_eq_ok {format : DateFormat} (hf : format.isPassthrough = false) {v w : Json} :
    format.toCanonical v = .ok w ↔ ∃ count, epochCount format.name v = .ok count ∧
      InCalendar (format.secondOf count) ∧ w = .string (canonicalText (format.secondOf count)) := by
  rw [toCanonical_of_epoch hf]
  refine bind_eq_ok.trans (exists_congr fun count => and_congr_right' ?_)
  cases hs : secondsOf? (format.secondOf count) with
  | none =>
    constructor
    · intro hw
      cases hw
    · rintro ⟨hin, -⟩
      rw [secondsOf?_eq_some.mpr ⟨hin, rfl⟩] at hs
      cases hs
  | some found =>
    obtain ⟨hin, rfl⟩ := secondsOf?_eq_some.mp hs
    constructor
    · intro hw
      cases hw
      exact ⟨hin, rfl⟩
    · rintro ⟨-, rfl⟩
      rfl

/-- What is kept of a value is the value, or a text. -/
theorem same_or_text_of_toCanonical {format : DateFormat} {v w : Json}
    (h : format.toCanonical v = .ok w) : w = v ∨ ∃ s, w = .string s := by
  by_cases hf : format.isPassthrough = false
  · obtain ⟨count, -, -, rfl⟩ := (toCanonical_eq_ok hf).mp h
    exact .inr ⟨_, rfl⟩
  · cases format with
    | passthrough name =>
      cases h
      exact .inl rfl
    | _ => exact absurd rfl hf

/-- The seconds that the calendar reaches have 64-bit counts. -/
theorem clampInt64_of_inCalendar {format : DateFormat} {n : Int}
    (h : InCalendar (format.secondOf (Digits.clampInt64 n))) : Digits.clampInt64 n = n := by
  unfold InCalendar secondRange DateFormat.secondOf at h
  unfold Digits.clampInt64 Digits.int64Min Digits.int64Max at *
  cases format <;> simp only at h <;> omega

/-- A count that a client sent is brought into 64 bits. -/
theorem epochCount_of_isCount {v : Json} (hv : IsCount v) {format : String} {count : Int}
    (h : epochCount format v = .ok count) :
    ∃ n, sentInteger? v = some n ∧ count = Digits.clampInt64 n := by
  rcases hv with rfl | ⟨n, rfl⟩ | ⟨s, rfl⟩
  · cases h
  · cases h
    exact ⟨n, rfl, rfl⟩
  · unfold epochCount at h
    simp only at h
    split at h
    · next n hs =>
      cases h
      have hfits := Digits.fitsInt64_iff.mp (Digits.fitsInt64_of_int64Of? hs)
      refine ⟨count, hs, ?_⟩
      unfold Digits.clampInt64
      omega
    · cases h

/-- A count is kept as the canonical text of its second. -/
theorem exists_of_toCanonical {format : DateFormat} (hf : format.isPassthrough = false)
    {v w : Json} (hv : IsCount v) (h : format.toCanonical v = .ok w) :
    ∃ n, sentInteger? v = some n ∧ w = .string (canonicalText (format.secondOf n)) := by
  obtain ⟨count, hcount, hin, hw⟩ := (toCanonical_eq_ok hf).mp h
  obtain ⟨n, hn, rfl⟩ := epochCount_of_isCount hv hcount
  rw [clampInt64_of_inCalendar hin] at hw
  exact ⟨n, hn, hw⟩

/-- An integer is kept as the canonical text of its second if the calendar reaches that. -/
theorem toCanonical_ofInt {format : DateFormat} (hf : format.isPassthrough = false) {n : Int}
    (h : InCalendar (format.secondOf n)) :
    format.toCanonical (.ofInt n) = .ok (.string (canonicalText (format.secondOf n))) := by
  have hclamp : Digits.clampInt64 n = n := by
    unfold InCalendar secondRange DateFormat.secondOf at h
    unfold Digits.clampInt64 Digits.int64Min Digits.int64Max
    cases format <;> simp only at h <;> omega
  exact (toCanonical_eq_ok hf).mpr ⟨n, congrArg Except.ok hclamp, h, rfl⟩

/-! ## What is read back -/

/-- The text of a second is read back as the count of the second if its year has four digits. -/
theorem ofCanonical_canonicalText {format : DateFormat} (hf : format.isPassthrough = false)
    (n : Int) : format.ofCanonical (canonicalText (format.secondOf n)) =
      if InFourDigitYear (format.secondOf n) then .ok (.ofInt (format.wholeSeconds n))
      else .error (.notTimestamp (canonicalText (format.secondOf n))) := by
  have hread := ofText?_canonicalText (format.secondOf n)
  by_cases hyear : InFourDigitYear (format.secondOf n)
  · rw [if_pos hyear] at hread ⊢
    cases format with
    | passthrough name => cases hf
    | epochMillis =>
      simp only [DateFormat.ofCanonical, hread, Timestamp.toMillis]
      exact congrArg (Except.ok ∘ Json.ofInt) (Int.add_zero _)
    | epochSecond =>
      simp only [DateFormat.ofCanonical, hread]
      rfl
  · rw [if_neg hyear] at hread ⊢
    cases format with
    | passthrough name => cases hf
    | epochMillis => simp only [DateFormat.ofCanonical, hread]
    | epochSecond => simp only [DateFormat.ofCanonical, hread]

end Quarry.Date
