/-
# Decimal digits

Integers that are written in decimal are read back, and numbers of one width compare like their
digits.

* `natOf?_chars`, `intOf?_ofInt`, `int64Of?_ofInt` — reading what was written.
* `fixedDigits` — the last so many digits of a number. `padded_eq_fixedDigits` — a number that is
  filled up to a width consists of these.
* `fixedDigits_lt_iff` — the order of numbers of one width is that of their digits.
-/
import Mathlib.Data.String.Basic
import Mathlib.Tactic.IntervalCases
import Mathlib.Tactic.Ring
import Mathlib.Tactic.Tauto
import Quarry.Text.Digits

namespace Quarry.Text.Digits

/-! ## Single digits -/

theorem isDigit_digitChar {d : Nat} (h : d < 10) : d.digitChar.isDigit = true := by
  rw [Nat.isDigit_digitChar]
  exact decide_eq_true h

theorem digit?_digitChar {d : Nat} (h : d < 10) : digit? d.digitChar = some d := by
  rw [digit?, if_pos (isDigit_digitChar h), Nat.toNat_digitChar_of_lt_ten h]
  exact congrArg some (Nat.add_sub_cancel_left 48 d)

theorem digit?_of_isDigit {c : Char} (h : c.isDigit = true) :
    digit? c = some (c.toNat - '0'.toNat) := if_pos h

/-- Digits compare like the characters that write them. -/
theorem digitChar_lt_iff {d e : Nat} (hd : d < 10) (he : e < 10) :
    d.digitChar < e.digitChar ↔ d < e := by
  have hlt : d.digitChar < e.digitChar ↔ d.digitChar.toNat < e.digitChar.toNat := Iff.rfl
  rw [hlt, Nat.toNat_digitChar_of_lt_ten hd, Nat.toNat_digitChar_of_lt_ten he]
  omega

theorem digitChar_inj {d e : Nat} (hd : d < 10) (he : e < 10) :
    d.digitChar = e.digitChar ↔ d = e := by
  constructor
  · intro h
    have hcode := congrArg Char.toNat h
    rw [Nat.toNat_digitChar_of_lt_ten hd, Nat.toNat_digitChar_of_lt_ten he] at hcode
    omega
  · intro h
    rw [h]

/-! ## Reading what was written -/

/-- Digits are read from the first to the last. -/
theorem natFrom?_of_isDigit {cs : List Char} (h : ∀ c ∈ cs, c.isDigit = true) (start : Nat) :
    natFrom? start cs = some (Nat.ofDigitChars 10 cs start) := by
  induction cs generalizing start with
  | nil => rfl
  | cons c cs ih =>
    rw [natFrom?, digit?_of_isDigit (h c List.mem_cons_self), Option.bind_some,
      ih (fun d hd => h d (List.mem_cons_of_mem c hd)), Nat.ofDigitChars_cons, Nat.mul_comm]

theorem natFrom?_append (as bs : List Char) (start : Nat) :
    natFrom? start (as ++ bs) = (natFrom? start as).bind fun n => natFrom? n bs := by
  induction as generalizing start with
  | nil => rfl
  | cons c cs ih =>
    rw [List.cons_append, natFrom?, natFrom?]
    cases digit? c with
    | none => rfl
    | some d => exact ih _

/-- Digits that follow make a number no smaller. -/
theorem le_of_natFrom? {cs : List Char} {start n : Nat} (h : natFrom? start cs = some n) :
    start ≤ n := by
  induction cs generalizing start with
  | nil => exact (Option.some.inj h).le
  | cons c cs ih =>
    rw [natFrom?, Option.bind_eq_some_iff] at h
    obtain ⟨d, -, hrest⟩ := h
    have := ih hrest
    omega

theorem isDigit_of_mem_chars {n : Nat} {c : Char} (h : c ∈ chars n) : c.isDigit = true :=
  Nat.isDigit_of_mem_toDigits (by decide) (by decide) h

theorem chars_ne_nil (n : Nat) : chars n ≠ [] := Nat.toDigits_ne_nil

theorem natOf?_of_isDigit {cs : List Char} (h : ∀ c ∈ cs, c.isDigit = true) (hne : cs ≠ []) :
    natOf? cs = some (Nat.ofDigitChars 10 cs 0) := by
  cases cs with
  | nil => exact absurd rfl hne
  | cons c cs => exact natFrom?_of_isDigit h 0

/-- A natural number is read back. -/
@[simp] theorem natOf?_chars (n : Nat) : natOf? (chars n) = some n := by
  rw [natOf?_of_isDigit (fun c => isDigit_of_mem_chars) (chars_ne_nil n)]
  exact congrArg some Nat.ofDigitChars_ten_toDigits

/-- A number starts with a digit. -/
theorem chars_eq_cons (n : Nat) : ∃ c cs, chars n = c :: cs ∧ c.isDigit = true := by
  obtain ⟨c, cs, h⟩ := List.exists_cons_of_ne_nil (chars_ne_nil n)
  exact ⟨c, cs, h, isDigit_of_mem_chars (h ▸ List.mem_cons_self)⟩

/-- What is no digit is not read as one. -/
theorem natFrom?_eq_none {cs : List Char} {c : Char} (hc : c ∈ cs) (h : c.isDigit = false)
    (start : Nat) : natFrom? start cs = none := by
  induction cs generalizing start with
  | nil => cases hc
  | cons d cs ih =>
    rw [natFrom?]
    rcases List.mem_cons.mp hc with rfl | hc
    · rw [digit?, if_neg (by simp [h])]
      rfl
    · cases digit? d with
      | none => rfl
      | some n => exact ih hc _

theorem isDigit_of_mem_zeros {k : Nat} {c : Char} (h : c ∈ List.replicate k '0') :
    c.isDigit = true := by
  rw [List.eq_of_mem_replicate h]
  rfl

/-- Every zero behind the digits is a factor of ten. -/
theorem natFrom?_chars_append_zeros (n k : Nat) :
    natFrom? 0 (chars n ++ List.replicate k '0') = some (n * 10 ^ k) := by
  have hdigits : ∀ c ∈ chars n ++ List.replicate k '0', c.isDigit = true :=
    List.forall_mem_append.mpr ⟨fun _ => isDigit_of_mem_chars, fun _ => isDigit_of_mem_zeros⟩
  rw [natFrom?_of_isDigit hdigits, Nat.ofDigitChars_append, chars,
    Nat.ofDigitChars_ten_toDigits, Nat.ofDigitChars_replicate_zero, Nat.mul_comm]

/-- No number but zero starts with a zero. -/
theorem chars_ne_zero_cons {n : Nat} (h : 0 < n) (cs : List Char) : chars n ≠ '0' :: cs := by
  induction n using Nat.strong_induction_on generalizing cs with
  | _ n ih =>
    unfold chars at ih ⊢
    by_cases hn : n < 10
    · rw [Nat.toDigits_of_lt_base hn]
      intro heq
      have hzero : n.digitChar = (0 : Nat).digitChar := (List.cons.inj heq).1
      have hdigit := (digitChar_inj hn (by decide)).mp hzero
      omega
    · rw [Nat.toDigits_of_base_le (by decide) (not_lt.mp hn)]
      obtain ⟨c, ds, hds⟩ := List.exists_cons_of_ne_nil (chars_ne_nil (n / 10))
      unfold chars at hds
      rw [hds, List.cons_append]
      intro heq
      rw [(List.cons.inj heq).1] at hds
      exact ih (n / 10) (by omega) (by omega) ds hds

/-- Without a sign the digits are all. -/
theorem intOf?_of_isDigit {c : Char} (h : c.isDigit = true) (cs : List Char) :
    intOf? (c :: cs) = (natOf? (c :: cs)).map Int.ofNat := by
  unfold intOf?
  split
  · next heq =>
    cases heq
    cases h
  · next heq =>
    cases heq
    cases h
  · rfl

theorem toList_ofInt (n : Int) :
    (ofInt n).toList = (if n < 0 then ['-'] else []) ++ chars n.natAbs := by
  cases n with
  | ofNat n =>
    rw [ofInt, ofNat, String.toList_ofList, if_neg (by simp)]
    rfl
  | negSucc n =>
    rw [ofInt, ofNat, String.toList_append, if_pos (Int.negSucc_lt_zero n)]
    exact congrArg _ String.toList_ofList

/-- An integer is read back. -/
@[simp] theorem intOf?_ofInt (n : Int) : intOf? (ofInt n).toList = some n := by
  rw [toList_ofInt]
  by_cases hn : n < 0
  · rw [if_pos hn, List.singleton_append, intOf?, natOf?_chars]
    show some (-(n.natAbs : Int)) = some n
    congr 1
    omega
  · rw [if_neg hn, List.nil_append]
    obtain ⟨c, cs, hcs, hdigit⟩ := chars_eq_cons n.natAbs
    rw [hcs, intOf?_of_isDigit hdigit, ← hcs, natOf?_chars, Option.map_some]
    congr 1
    show ((n.natAbs : Nat) : Int) = n
    omega

/-- A 64-bit integer is read back; another one is not read as such. -/
theorem int64Of?_ofInt (n : Int) : int64Of? (ofInt n) = if fitsInt64 n then some n else none := by
  rw [int64Of?, intOf?_ofInt]
  rfl

theorem fitsInt64_iff {n : Int} : fitsInt64 n = true ↔ int64Min ≤ n ∧ n ≤ int64Max := by
  simp [fitsInt64]

/-- What is read as a 64-bit integer is one. -/
theorem fitsInt64_of_int64Of? {s : String} {n : Int} (h : int64Of? s = some n) :
    fitsInt64 n = true := (Option.filter_eq_some_iff.mp h).2

/-! ## Digits of one width -/

/-- The last so many digits of a number. -/
def fixedDigits : (width : Nat) → Nat → List Char
  | 0, _ => []
  | width + 1, n => (n / 10 ^ width % 10).digitChar :: fixedDigits width n

@[simp] theorem length_fixedDigits (width n : Nat) : (fixedDigits width n).length = width := by
  induction width with
  | zero => rfl
  | succ width ih => rw [fixedDigits, List.length_cons, ih]

/-- The last digit is that of the units. -/
theorem fixedDigits_succ (width n : Nat) :
    fixedDigits (width + 1) n = fixedDigits width (n / 10) ++ [(n % 10).digitChar] := by
  induction width with
  | zero => simp [fixedDigits]
  | succ width ih =>
    have hfirst : n / 10 ^ (width + 1) = n / 10 / 10 ^ width := by
      rw [Nat.pow_succ', Nat.div_div_eq_div_mul]
    rw [fixedDigits, ih, hfirst]
    rfl

/-- A number that is filled up to a width consists of its last digits. -/
theorem padded_eq_fixedDigits {width n : Nat} (h : n < 10 ^ (width + 1)) :
    padded (width + 1) n = fixedDigits (width + 1) n := by
  induction width generalizing n with
  | zero =>
    have hn : n < 10 := by simpa using h
    rw [padded, chars, Nat.toDigits_of_lt_base hn]
    simp [fixedDigits, Nat.mod_eq_of_lt hn]
  | succ width ih =>
    rw [fixedDigits_succ, ← ih (Nat.div_lt_of_lt_mul (by rwa [← Nat.pow_succ']))]
    unfold padded chars
    by_cases hn : n < 10
    · rw [Nat.toDigits_of_lt_base hn, Nat.div_eq_of_lt hn, Nat.mod_eq_of_lt hn, Nat.toDigits_zero]
      show List.replicate (width + 1) '0' ++ _ = List.replicate width '0' ++ ['0'] ++ _
      rw [List.replicate_succ']
    · rw [Nat.toDigits_of_base_le (by decide) (not_lt.mp hn)]
      simp only [List.length_append, List.length_singleton, Nat.add_sub_add_right,
        List.append_assoc]

/-- A number that is filled up to a width starts with a digit. -/
theorem padded_eq_cons (width n : Nat) : ∃ c cs, padded width n = c :: cs ∧ c.isDigit = true := by
  have hdigits : ∀ c ∈ padded width n, c.isDigit = true :=
    List.forall_mem_append.mpr ⟨fun _ => isDigit_of_mem_zeros, fun _ => isDigit_of_mem_chars⟩
  have hne : padded width n ≠ [] := fun h => chars_ne_nil n (List.append_eq_nil_iff.mp h).2
  obtain ⟨c, cs, h⟩ := List.exists_cons_of_ne_nil hne
  exact ⟨c, cs, h, hdigits c (h ▸ List.mem_cons_self)⟩

/-- The order of numbers of one width is that of their digits. -/
theorem fixedDigits_lt_iff (width m n : Nat) :
    fixedDigits width m < fixedDigits width n ↔ m % 10 ^ width < n % 10 ^ width := by
  induction width with
  | zero => simp [fixedDigits, Nat.mod_one]
  | succ width ih =>
    have hm : m / 10 ^ width % 10 < 10 := Nat.mod_lt _ (by decide)
    have hn : n / 10 ^ width % 10 < 10 := Nat.mod_lt _ (by decide)
    rw [fixedDigits, fixedDigits, List.cons_lt_cons_iff, ih, digitChar_lt_iff hm hn,
      digitChar_inj hm hn, Nat.mod_pow_succ, Nat.mod_pow_succ]
    have hm' : m % 10 ^ width < 10 ^ width := Nat.mod_lt _ (by positivity)
    have hn' : n % 10 ^ width < 10 ^ width := Nat.mod_lt _ (by positivity)
    generalize m / 10 ^ width % 10 = a at *
    generalize n / 10 ^ width % 10 = b at *
    generalize m % 10 ^ width = r at *
    generalize n % 10 ^ width = s at *
    generalize 10 ^ width = p at *
    rcases lt_trichotomy a b with hab | hab | hab
    · have hstep : p * (a + 1) ≤ p * b := Nat.mul_le_mul_left p hab
      rw [Nat.mul_add_one] at hstep
      omega
    · subst hab
      omega
    · have hstep : p * (b + 1) ≤ p * a := Nat.mul_le_mul_left p hab
      rw [Nat.mul_add_one] at hstep
      omega

theorem fixedDigits_eq_iff (width m n : Nat) :
    fixedDigits width m = fixedDigits width n ↔ m % 10 ^ width = n % 10 ^ width := by
  have hmn := fixedDigits_lt_iff width m n
  have hnm := fixedDigits_lt_iff width n m
  constructor
  · intro h
    rw [h] at hmn hnm
    exact le_antisymm (not_lt.mp (mt hnm.mpr (lt_irrefl _))) (not_lt.mp (mt hmn.mpr (lt_irrefl _)))
  · intro h
    rw [h] at hmn hnm
    exact le_antisymm (not_lt.mp (mt hnm.mp (lt_irrefl _))) (not_lt.mp (mt hmn.mp (lt_irrefl _)))

/-- Texts with starts of one length are ordered by these, and then by what follows. -/
theorem append_lt_append_iff {as bs : List Char} (h : as.length = bs.length) (cs ds : List Char) :
    as ++ cs < bs ++ ds ↔ as < bs ∨ as = bs ∧ cs < ds := by
  induction as generalizing bs with
  | nil =>
    rw [List.length_eq_zero_iff.mp h.symm]
    simp
  | cons a as ih =>
    obtain ⟨b, bs, rfl⟩ := List.exists_cons_of_length_eq_add_one h.symm
    rw [List.cons_append, List.cons_append, List.cons_lt_cons_iff, List.cons_lt_cons_iff,
      ih (by simpa using h), List.cons.injEq]
    tauto

/-- Numbers of one width at the start of texts decide the order of the texts. -/
theorem padded_append_lt_iff {width m n : Nat} (hm : m < 10 ^ (width + 1))
    (hn : n < 10 ^ (width + 1)) (cs ds : List Char) :
    padded (width + 1) m ++ cs < padded (width + 1) n ++ ds ↔ m < n ∨ m = n ∧ cs < ds := by
  rw [padded_eq_fixedDigits hm, padded_eq_fixedDigits hn, append_lt_append_iff (by simp),
    fixedDigits_lt_iff, fixedDigits_eq_iff, Nat.mod_eq_of_lt hm, Nat.mod_eq_of_lt hn]

end Quarry.Text.Digits
