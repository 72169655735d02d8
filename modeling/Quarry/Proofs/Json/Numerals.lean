/-
# Numbers in JSON text

A number that was written is read as the numeral that was written.

* `Numeral.WellFormed` — the form of numerals in JSON text. `numeral_unsigned` — they are read.
* `Numeral.ofInt`, `Numeral.ofFloat` — the numerals of numbers, with the text of the number.
-/
import Mathlib.Data.List.Basic
import Quarry.Json.Scanner
import Quarry.Proofs.Json.Strings
import Quarry.Proofs.Text.Digits

namespace Quarry.Json

open Quarry.Decimal Quarry.Text Quarry.Text.Utf8

/-! ## Runs of digits -/

namespace Scanner

theorem toNat_lt_of_isDigit {c : Char} (h : c.isDigit = true) : c.toNat < 128 := by
  have hle := (Char.isDigit_iff_toNat.mp h).2
  exact Nat.lt_of_le_of_lt hle (by decide)

/-- Whether no digit stands at the start of a text. -/
def EndsDigits (rest : List UInt8) : Prop := ∀ b ∈ rest.head?, isDigitByte b = false

/-- Whether the text after a number leaves the number as it is. -/
def EndsNumber (rest : List UInt8) : Prop :=
  ∀ b ∈ rest.head?, isDigitByte b = false ∧ asChar b ≠ '.' ∧ asChar b ≠ 'e' ∧ asChar b ≠ 'E'

theorem EndsNumber.endsDigits {rest : List UInt8} (h : EndsNumber rest) : EndsDigits rest :=
  fun b hb => (h b hb).1

/-- A character of ASCII that is no digit ends a run of digits. -/
theorem endsDigits_bytesOf {c : Char} (hc : c.toNat < 128) (h : c.isDigit = false)
    (cs : List Char) (rest : List UInt8) : EndsDigits (bytesOf (c :: cs) ++ rest) := by
  intro b hb
  rw [bytesOf_ascii hc] at hb
  cases hb
  rw [isDigitByte, asChar_ascii hc]
  exact h

/-- A run of digits is taken as a whole. -/
theorem digitRun_bytesOf {cs : List Char} (hcs : ∀ c ∈ cs, c.isDigit = true) {rest : List UInt8}
    (hrest : EndsDigits rest) : digitRun (bytesOf cs ++ rest) = (cs, rest) := by
  induction cs with
  | nil =>
    cases rest with
    | nil => rfl
    | cons b rest =>
      have hb := hrest b rfl
      simp [digitRun, hb]
  | cons c cs ih =>
    have hc := hcs c List.mem_cons_self
    have hascii := toNat_lt_of_isDigit hc
    have hbyte : isDigitByte (UInt8.ofNat c.toNat) = true := by
      rw [isDigitByte, asChar_ascii hascii]
      exact hc
    have hrun := ih fun d hd => hcs d (List.mem_cons_of_mem c hd)
    rw [digitRun, Prod.mk.injEq] at hrun
    rw [digitRun, bytesOf_ascii hascii, List.cons_append, List.takeWhile_cons_of_pos hbyte,
      List.dropWhile_cons_of_pos hbyte, List.map_cons, hrun.1, hrun.2, asChar_ascii hascii]

end Scanner

/-! ## The form of numerals -/

namespace Numeral

/-- The form of numerals in JSON text. -/
structure WellFormed (n : Numeral) : Prop where
  whole : ∀ c ∈ n.whole, c.isDigit = true
  whole_ne_nil : n.whole ≠ []
  /-- A zero does not stand before other digits. -/
  leading : ∀ c cs, n.whole ≠ '0' :: c :: cs
  fraction : ∀ c ∈ n.fraction, c.isDigit = true
  exponent : ∀ c ∈ n.exponent, c.isDigit = true
  /-- Mark and digits of an exponent stand together. -/
  mark : n.mark = [] ∧ n.exponent = [] ∨
    (n.mark = ['e', '+'] ∨ n.mark = ['e', '-']) ∧ n.exponent ≠ []

/-- The characters of a numeral without its sign. -/
def unsigned (n : Numeral) : List Char :=
  n.whole ++ (if n.fraction.isEmpty then [] else '.' :: n.fraction) ++ n.mark ++ n.exponent

theorem chars_eq (n : Numeral) :
    n.chars = (if n.negative then ['-'] else []) ++ n.unsigned := by
  unfold chars unsigned
  simp only [List.append_assoc]

end Numeral

namespace Scanner

/-- What follows the digits before the point. -/
theorem endsDigits_afterWhole {n : Numeral} (h : n.WellFormed) {rest : List UInt8}
    (hrest : EndsNumber rest) : EndsDigits (bytesOf
      ((if n.fraction.isEmpty then [] else '.' :: n.fraction) ++ n.mark ++ n.exponent) ++ rest) := by
  cases hfraction : n.fraction with
  | cons c cs => exact endsDigits_bytesOf (by decide) rfl _ rest
  | nil =>
    rcases h.mark with ⟨hmark, hexponent⟩ | ⟨hmark | hmark, -⟩
    · rw [hmark, hexponent]
      exact hrest.endsDigits
    · rw [hmark]
      exact endsDigits_bytesOf (by decide) rfl _ rest
    · rw [hmark]
      exact endsDigits_bytesOf (by decide) rfl _ rest

theorem exponentPart_bytesOf {n : Numeral} (h : n.WellFormed) {rest : List UInt8}
    (hrest : EndsNumber rest) :
    exponentPart (bytesOf (n.mark ++ n.exponent) ++ rest) = .ok (n.mark, n.exponent, rest) := by
  have hsigned : ∀ sign : Char, sign = '+' ∨ sign = '-' → n.mark = ['e', sign] →
      n.exponent ≠ [] →
      exponentPart (bytesOf (n.mark ++ n.exponent) ++ rest) = .ok (n.mark, n.exponent, rest) := by
    intro sign hsign hmark hne
    have hascii : sign.toNat < 128 := by rcases hsign with rfl | rfl <;> decide
    have he : asChar (UInt8.ofNat 'e'.toNat) = 'e' := asChar_ascii (by decide)
    have hsignChar := asChar_ascii hascii
    have hrun := digitRun_bytesOf h.exponent hrest.endsDigits
    rw [hmark, List.cons_append, List.singleton_append, bytesOf_ascii (by decide),
      bytesOf_ascii hascii, List.cons_append, List.cons_append]
    simp only [exponentPart, he, true_or, ↓reduceIte, exponentSign, hsignChar, hsign, hrun]
  rcases h.mark with ⟨hmark, hexponent⟩ | ⟨hmark | hmark, hne⟩
  · rw [hmark, hexponent]
    cases rest with
    | nil => rfl
    | cons b rest =>
      obtain ⟨-, -, he, hE⟩ := hrest b rfl
      show (if asChar b = 'e' ∨ asChar b = 'E' then _ else _ : Except Fault _) = _
      rw [if_neg (by simp [he, hE])]
      rfl
  · exact hsigned '+' (.inl rfl) hmark hne
  · exact hsigned '-' (.inr rfl) hmark hne

theorem fractionDigits_bytesOf {n : Numeral} (h : n.WellFormed) {rest : List UInt8}
    (hrest : EndsNumber rest) :
    fractionDigits (bytesOf ((if n.fraction.isEmpty then [] else '.' :: n.fraction) ++ n.mark ++
      n.exponent) ++ rest) = .ok (n.fraction, bytesOf (n.mark ++ n.exponent) ++ rest) := by
  have hmark : ∀ b ∈ (bytesOf (n.mark ++ n.exponent) ++ rest).head?,
      isDigitByte b = false ∧ asChar b ≠ '.' := by
    intro b hb
    rcases h.mark with ⟨hmark, hexponent⟩ | ⟨hmark | hmark, -⟩
    · rw [hmark, hexponent] at hb
      exact ⟨(hrest b hb).1, (hrest b hb).2.1⟩
    all_goals
      rw [hmark, List.cons_append, bytesOf_ascii (by decide)] at hb
      cases hb
      decide
  cases hfraction : n.fraction with
  | nil =>
    rw [List.isEmpty_nil, if_pos rfl, List.nil_append]
    generalize bytesOf (n.mark ++ n.exponent) ++ rest = bs at hmark
    cases bs with
    | nil => rfl
    | cons b bs => exact if_neg (hmark b rfl).2
  | cons c cs =>
    have hrun : digitRun (bytesOf (c :: cs) ++ (bytesOf (n.mark ++ n.exponent) ++ rest)) =
        (c :: cs, bytesOf (n.mark ++ n.exponent) ++ rest) :=
      digitRun_bytesOf (hfraction ▸ h.fraction) fun b hb => (hmark b hb).1
    have hpoint : asChar (UInt8.ofNat '.'.toNat) = '.' := asChar_ascii (by decide)
    rw [List.isEmpty_cons, if_neg (by decide), List.cons_append, List.cons_append,
      bytesOf_ascii (by decide), List.append_assoc, bytesOf_append, List.cons_append,
      List.append_assoc]
    simp only [fractionDigits, hpoint, ↓reduceIte, hrun]

/-- A numeral is read after its sign. -/
theorem numeral_unsigned {n : Numeral} (h : n.WellFormed) {rest : List UInt8}
    (hrest : EndsNumber rest) :
    numeral n.negative (bytesOf n.unsigned ++ rest) = .ok (n, rest) := by
  have hrun := digitRun_bytesOf h.whole (endsDigits_afterWhole h hrest)
  have hwhole : wholeDigits (bytesOf n.unsigned ++ rest) = .ok (n.whole, bytesOf
      ((if n.fraction.isEmpty then [] else '.' :: n.fraction) ++ n.mark ++ n.exponent) ++
        rest) := by
    have hsplit : n.unsigned = n.whole ++ ((if n.fraction.isEmpty then [] else '.' :: n.fraction) ++
        n.mark ++ n.exponent) := by
      simp only [Numeral.unsigned, List.append_assoc]
    rw [hsplit, bytesOf_append, List.append_assoc, wholeDigits, hrun]
    split
    · next heq =>
      rw [Prod.mk.injEq] at heq
      exact absurd heq.1 h.whole_ne_nil
    · next heq =>
      rw [Prod.mk.injEq] at heq
      exact absurd heq.1 (h.leading _ _)
    · rfl
  rw [numeral, hwhole]
  show (fractionDigits _ >>= fun x => _) = _
  rw [fractionDigits_bytesOf h hrest]
  show (exponentPart _ >>= fun x => _) = _
  rw [exponentPart_bytesOf h hrest]
  rfl

end Scanner

/-! ## Integers -/

namespace Numeral

/-- The numeral of an integer. -/
def ofInt (n : Int) : Numeral where
  negative := decide (n < 0)
  whole := Digits.chars n.natAbs
  fraction := []
  mark := []
  exponent := []

theorem text_ofInt (n : Int) : (ofInt n).text = Digits.ofInt n := by
  rw [← String.toList_inj, text, String.toList_ofList, Digits.toList_ofInt]
  simp [chars, ofInt]

theorem wellFormed_ofInt (n : Int) : (ofInt n).WellFormed where
  whole _ hc := Digits.isDigit_of_mem_chars hc
  whole_ne_nil := Digits.chars_ne_nil _
  leading c cs heq := by
    have hwhole : Digits.chars n.natAbs = '0' :: c :: cs := heq
    by_cases hn : 0 < n.natAbs
    · exact Digits.chars_ne_zero_cons hn _ hwhole
    · rw [show n.natAbs = 0 by omega] at hwhole
      cases hwhole
  fraction _ hc := by cases hc
  exponent _ hc := by cases hc
  mark := .inl ⟨rfl, rfl⟩

end Numeral

end Quarry.Json

/-! ## Shortest decimals -/

namespace Quarry.Decimal

/-- A decimal of the interval of a positive number is not zero. -/
theorem Interval.pos_of_contains {m : Nat} (hm : 0 < m) {q e : Int} {d : Nat}
    (h : ((Interval.of m q).scaled e).contains d = true) : 0 < d := by
  by_contra hzero
  have hd : d = 0 := by omega
  have hlow : 0 < (Interval.of m q).low := by
    unfold Interval.of
    simp only
    split_ifs <;> omega
  have hnum : 0 < ((Interval.of m q).scaled e).num := by
    show 0 < 1 <<< (q - 2).toNat * 10 ^ (-e).toNat
    rw [Nat.one_shiftLeft]
    positivity
  have hpos : 0 < (Interval.of m q).low * ((Interval.of m q).scaled e).num :=
    Nat.mul_pos hlow hnum
  have hsame : ((Interval.of m q).scaled e).low = (Interval.of m q).low := rfl
  subst hd
  unfold Interval.contains at h
  rw [hsame] at h
  split_ifs at h <;> simp at h
  omega

/-- What is picked lies in the interval. -/
theorem Interval.contains_of_pick {i : Interval} {d : Nat} (h : i.pick = some d) :
    i.contains d = true := by
  unfold Interval.pick at h
  simp only at h
  split at h
  · next hbelow _ =>
    cases h
    exact hbelow
  · next _ habove =>
    cases h
    exact habove
  · cases h
  · next hbelow habove =>
    split_ifs at h <;> cases h
    all_goals first
      | exact hbelow
      | exact habove

/-- Whether the digits do not start with zeros. -/
def IsTrimmed (d : Decimal) : Prop := 0 < d.digits ∨ d.exponent = 0

theorem isTrimmed_trimZeros (fuel : Nat) {d : Decimal} (h : d.IsTrimmed) :
    (trimZeros fuel d).IsTrimmed := by
  induction fuel generalizing d with
  | zero => exact h
  | succ fuel ih =>
    unfold trimZeros
    split_ifs with hzero
    · apply ih
      left
      show 0 < d.digits / 10
      omega
    · exact h

/-- The shortest decimal of a positive number does not start with zeros. -/
theorem isTrimmed_shortest {m : Nat} (hm : 0 < m) (q : Int) : (shortest m q).IsTrimmed := by
  apply isTrimmed_trimZeros
  unfold Option.getD
  split
  · next d hd =>
    obtain ⟨n, -, hn⟩ := List.exists_of_findSome?_eq_some hd
    obtain ⟨digits, hpick, rfl⟩ := Option.map_eq_some_iff.mp hn
    exact .inl (Interval.pos_of_contains hm (Interval.contains_of_pick hpick))
  · exact .inr rfl

end Quarry.Decimal

/-! ## Floats -/

namespace Quarry.Json

open Quarry.Decimal Quarry.Text Quarry.Text.Utf8

namespace Numeral

/-- The numeral of a decimal in JSON text. -/
def ofDecimal (negative : Bool) (d : Decimal) : Numeral :=
  let ds := d.chars
  let k := d.leadingExponent
  if -5 ≤ k ∧ k ≤ 15 then
    match d.exponent with
    | .ofNat e => ⟨negative, ds ++ List.replicate e '0', ['0'], [], []⟩
    | .negSucc e =>
      if e + 1 < ds.length then
        ⟨negative, ds.take (ds.length - (e + 1)), ds.drop (ds.length - (e + 1)), [], []⟩
      else ⟨negative, ['0'], List.replicate (e + 1 - ds.length) '0' ++ ds, [], []⟩
  else
    ⟨negative, ds.take 1, ds.drop 1, if 0 ≤ k then ['e', '+'] else ['e', '-'],
      Digits.chars k.natAbs⟩

/-- The numeral of a float. -/
def ofFloat (x : Float) : Numeral :=
  match Binary64.ofFloat x with
  | .finite negative m e =>
    if m = 0 then ⟨negative, ['0'], ['0'], [], []⟩ else ofDecimal negative (shortest m e)
  | _ => ofInt 0

/-- The forms of a decimal in JSON text: as a numeral, and as characters. -/
inductive DecimalForm (negative : Bool) (d : Decimal) : Numeral → List Char → Prop where
  | whole (e : Nat) (he : d.exponent = .ofNat e) : DecimalForm negative d
      ⟨negative, d.chars ++ List.replicate e '0', ['0'], [], []⟩
      (d.chars ++ List.replicate e '0' ++ ['.', '0'])
  | pointed (e : Nat) (he : d.exponent = .negSucc e) (h : e + 1 < d.chars.length) :
      DecimalForm negative d
      ⟨negative, d.chars.take (d.chars.length - (e + 1)), d.chars.drop (d.chars.length - (e + 1)),
        [], []⟩
      (d.chars.take (d.chars.length - (e + 1)) ++
        '.' :: d.chars.drop (d.chars.length - (e + 1)))
  | small (e : Nat) (he : d.exponent = .negSucc e) (h : ¬ e + 1 < d.chars.length) :
      DecimalForm negative d
      ⟨negative, ['0'], List.replicate (e + 1 - d.chars.length) '0' ++ d.chars, [], []⟩
      ('0' :: '.' :: List.replicate (e + 1 - d.chars.length) '0' ++ d.chars)
  | scientific (sign : Char) (hsign : sign = if 0 ≤ d.leadingExponent then '+' else '-')
      (hk : ¬ (-5 ≤ d.leadingExponent ∧ d.leadingExponent ≤ 15)) : DecimalForm negative d
      ⟨negative, d.chars.take 1, d.chars.drop 1, ['e', sign],
        Digits.chars d.leadingExponent.natAbs⟩
      (d.chars.take 1 ++ (if (d.chars.drop 1).isEmpty then [] else '.' :: d.chars.drop 1) ++
        ['e', sign] ++ Digits.chars d.leadingExponent.natAbs)

theorem decimalForm (negative : Bool) (d : Decimal) :
    DecimalForm negative d (ofDecimal negative d) (numberLayout.decimalChars d) := by
  unfold ofDecimal Layout.decimalChars
  simp only [numberLayout]
  by_cases hk : -5 ≤ d.leadingExponent ∧ d.leadingExponent ≤ 15
  · rw [if_pos hk, if_pos hk]
    unfold Layout.positionalChars
    cases he : d.exponent with
    | ofNat e => exact .whole e he
    | negSucc e =>
      simp only
      by_cases h : e + 1 < d.chars.length
      · rw [if_pos h, if_pos h]
        exact .pointed e he h
      · rw [if_neg h, if_neg h]
        exact .small e he h
  · rw [if_neg hk, if_neg hk]
    unfold Layout.scientificChars
    by_cases h : 0 ≤ d.leadingExponent
    · simp only [if_pos h]
      exact .scientific '+' (if_pos h).symm hk
    · simp only [if_neg h]
      exact .scientific '-' (if_neg h).symm hk

theorem unsigned_ofDecimal (negative : Bool) (d : Decimal) :
    (ofDecimal negative d).unsigned = numberLayout.decimalChars d := by
  have hne : d.chars ≠ [] := Digits.chars_ne_nil _
  have hform := decimalForm negative d
  generalize ofDecimal negative d = n at hform
  generalize numberLayout.decimalChars d = cs at hform
  unfold unsigned
  cases hform with
  | whole e he => simp
  | pointed e he h =>
    have hdrop : d.chars.drop (d.chars.length - (e + 1)) ≠ [] := by
      rw [Ne, List.drop_eq_nil_iff]
      omega
    simp [List.isEmpty_iff, hdrop]
  | small e he h => simp [List.isEmpty_iff, hne]
  | scientific sign hsign hk => rfl

/-- The digits of a decimal that does not start with zeros do not start with a zero. -/
theorem take_chars_ne {d : Decimal} (hd : 0 < d.digits) {n : Nat} (hn : 0 < n)
    (rest cs : List Char) : d.chars.take n ++ rest ≠ '0' :: cs := by
  obtain ⟨c, ds, hds⟩ := List.exists_cons_of_ne_nil (Digits.chars_ne_nil d.digits)
  obtain ⟨n, rfl⟩ := Nat.exists_eq_succ_of_ne_zero (show n ≠ 0 by omega)
  intro heq
  rw [Decimal.chars, hds, List.take_succ_cons, List.cons_append] at heq
  rw [(List.cons.inj heq).1] at hds
  exact Digits.chars_ne_zero_cons hd ds hds

/-- The numeral of zero. -/
theorem wellFormed_zero (negative : Bool) : WellFormed ⟨negative, ['0'], ['0'], [], []⟩ where
  whole := by simp
  whole_ne_nil := by simp
  leading := by simp
  fraction := by simp
  exponent := by simp
  mark := .inl ⟨rfl, rfl⟩

/-- A decimal that does not start with zeros is written as a numeral, in each of its forms. -/
theorem wellFormed_ofDecimal_of_pos (negative : Bool) {d : Decimal} (hpos : 0 < d.digits) :
    (ofDecimal negative d).WellFormed := by
  have hdigits : ∀ c ∈ d.chars, c.isDigit = true := fun _ => Digits.isDigit_of_mem_chars
  have hzeros : ∀ n, ∀ c ∈ List.replicate n '0', c.isDigit = true :=
    fun _ _ => Digits.isDigit_of_mem_zeros
  have hne : d.chars ≠ [] := Digits.chars_ne_nil _
  have htake : ∀ {n}, 0 < n → d.chars.take n ≠ [] ∧ ∀ c cs, d.chars.take n ≠ '0' :: c :: cs := by
    intro n hn
    refine ⟨fun hnil => ?_, fun c cs => ?_⟩
    · rcases List.take_eq_nil_iff.mp hnil with hzero | hnil
      · omega
      · exact hne hnil
    · rw [← List.append_nil (d.chars.take n)]
      exact take_chars_ne hpos hn [] (c :: cs)
  have hform := decimalForm negative d
  generalize ofDecimal negative d = n at hform
  generalize numberLayout.decimalChars d = cs at hform
  cases hform with
  | whole e he =>
    have hleading : ∀ c cs, d.chars ++ List.replicate e '0' ≠ '0' :: c :: cs := by
      intro c cs
      rw [← List.take_length (l := d.chars)]
      exact take_chars_ne hpos (List.length_pos_iff.mpr hne) _ (c :: cs)
    exact ⟨List.forall_mem_append.mpr ⟨hdigits, hzeros e⟩, by simp [hne], hleading, hzeros 1,
      nofun, .inl ⟨rfl, rfl⟩⟩
  | pointed e he h =>
    obtain ⟨hwhole, hleading⟩ := htake (show 0 < d.chars.length - (e + 1) by omega)
    exact ⟨fun c hc => hdigits c (List.mem_of_mem_take hc), hwhole, hleading,
      fun c hc => hdigits c (List.mem_of_mem_drop hc), nofun, .inl ⟨rfl, rfl⟩⟩
  | small e he h =>
    exact ⟨hzeros 1, by simp, by simp, List.forall_mem_append.mpr ⟨hzeros _, hdigits⟩, nofun,
      .inl ⟨rfl, rfl⟩⟩
  | scientific sign hsign hk =>
    obtain ⟨hwhole, hleading⟩ := htake Nat.one_pos
    have hmark : ['e', sign] = ['e', '+'] ∨ ['e', sign] = ['e', '-'] := by
      rw [hsign]
      split_ifs
      · exact .inl rfl
      · exact .inr rfl
    exact ⟨fun c hc => hdigits c (List.mem_of_mem_take hc), hwhole, hleading,
      fun c hc => hdigits c (List.mem_of_mem_drop hc), fun _ => Digits.isDigit_of_mem_chars,
      .inr ⟨hmark, Digits.chars_ne_nil _⟩⟩

theorem wellFormed_ofDecimal (negative : Bool) {d : Decimal} (hd : d.IsTrimmed) :
    (ofDecimal negative d).WellFormed := by
  by_cases hpos : 0 < d.digits
  · exact wellFormed_ofDecimal_of_pos negative hpos
  · obtain ⟨digits, exponent⟩ := d
    obtain rfl : digits = 0 := Nat.eq_zero_of_not_pos hpos
    obtain rfl : exponent = 0 := hd.resolve_left hpos
    exact wellFormed_zero negative

/-- The parts of a finite float. -/
theorem exists_parts_of_isFinite {x : Float} (hx : (Binary64.ofFloat x).isFinite = true) :
    ∃ negative m e, Binary64.ofFloat x = .finite negative m e := by
  cases hparts : Binary64.ofFloat x with
  | finite negative m e => exact ⟨negative, m, e, rfl⟩
  | nan =>
    rw [hparts] at hx
    cases hx
  | infinite negative =>
    rw [hparts] at hx
    cases hx

theorem wellFormed_ofFloat {x : Float} (hx : (Binary64.ofFloat x).isFinite = true) :
    (ofFloat x).WellFormed := by
  obtain ⟨negative, m, e, hparts⟩ := exists_parts_of_isFinite hx
  unfold ofFloat
  rw [hparts]
  simp only
  split_ifs with hm
  · exact wellFormed_zero negative
  · exact wellFormed_ofDecimal negative (isTrimmed_shortest (by omega) e)

theorem negative_ofDecimal (negative : Bool) (d : Decimal) :
    (ofDecimal negative d).negative = negative := by
  have hform := decimalForm negative d
  generalize ofDecimal negative d = n at hform
  generalize numberLayout.decimalChars d = cs at hform
  cases hform <;> rfl

/-- The numeral of a finite float has the text of the float. -/
theorem text_ofFloat {x : Float} (hx : (Binary64.ofFloat x).isFinite = true) :
    (ofFloat x).text = floatText x := by
  obtain ⟨negative, m, e, hparts⟩ := exists_parts_of_isFinite hx
  unfold ofFloat floatText Layout.render text
  rw [hparts]
  simp only [Layout.chars]
  congr 1
  rw [chars_eq]
  by_cases hm : m = 0
  · rw [if_pos hm, if_pos hm]
    cases negative <;> rfl
  · rw [if_neg hm, if_neg hm, negative_ofDecimal, unsigned_ofDecimal]
    cases negative <;> rfl

/-- The numeral of a number. -/
def ofNumber : Number → Numeral
  | .int n => ofInt n
  | .float x => ofFloat x

end Numeral

end Quarry.Json
