/-
# What regular expressions match

* `Regex.Spans` — an expression has a match in a text from one place to another.
* `Regex.testBit_ends` — the places that are followed through a text are those where such a match
  can end.
* `Regex.isMatch_iff` — a text has a match if there is one from any of its places.

A match never goes back. So in a text of `L` characters more than `L` steps in a row contain one
that stays where it is, which can be left out or taken twice: any two numbers of steps beyond `L`
lead to the same places.
-/
import Mathlib.Data.Nat.Bitwise
import Quarry.Template.Regex

namespace Quarry.Template

/-! ## Steps -/

/-- So many steps lead from one place to another. -/
def Steps (R : Nat → Nat → Prop) : Nat → Nat → Nat → Prop
  | 0, i, j => i = j
  | n + 1, i, j => ∃ k, R i k ∧ Steps R n k j

/-- Every step stays where it is, or goes on within the first places. -/
def GoesOn (last : Nat) (R : Nat → Nat → Prop) : Prop := ∀ i j, R i j → i = j ∨ i < j ∧ j ≤ last

section

variable {R : Nat → Nat → Prop} {last : Nat}

theorem steps_one {i j : Nat} : Steps R 1 i j ↔ R i j := by
  simp [Steps]

/-- Steps from within a set that no step leaves end in it. -/
theorem Steps.mem_of_closed {P : Nat → Prop} (hclosed : ∀ i j, P i → R i j → P j) {n i j : Nat}
    (h : Steps R n i j) (hi : P i) : P j := by
  induction n generalizing i with
  | zero => exact h ▸ hi
  | succ n ih =>
    obtain ⟨k, hk, hj⟩ := h
    exact ih hj (hclosed i k hi hk)

theorem steps_add {m n i j : Nat} :
    Steps R (m + n) i j ↔ ∃ k, Steps R m i k ∧ Steps R n k j := by
  induction m generalizing i with
  | zero => simp [Steps]
  | succ m ih =>
    rw [Nat.add_right_comm]
    simp only [Steps, ih]
    constructor
    · rintro ⟨l, hl, k, hk, hj⟩
      exact ⟨k, ⟨l, hl, hk⟩, hj⟩
    · rintro ⟨k, ⟨l, hl, hk⟩, hj⟩
      exact ⟨l, hl, k, hk, hj⟩

/-- What single steps do, steps in a row do. -/
theorem GoesOn.steps (h : GoesOn last R) (n : Nat) : GoesOn last (Steps R n) := by
  induction n with
  | zero => exact fun i j hij => .inl hij
  | succ n ih =>
    rintro i j ⟨k, hk, hj⟩
    have hfirst := h i k hk
    have hrest := ih k j hj
    omega

/-- Among more steps than there are places to go on to, one stays where it is. It can be left out or
taken twice. -/
theorem GoesOn.steps_pred_succ (h : GoesOn last R) {n i j : Nat} (hij : Steps R (n + 1) i j)
    (hn : j - i < n + 1) : Steps R n i j ∧ Steps R (n + 2) i j := by
  induction n generalizing i with
  | zero =>
    obtain rfl : i = j := by
      have hle := h.steps 1 i j hij
      omega
    have hself : R i i := steps_one.mp hij
    exact ⟨rfl, i, hself, hij⟩
  | succ n ih =>
    obtain ⟨k, hk, hj⟩ := hij
    have hfirst := h i k hk
    by_cases hstays : i = k
    · subst hstays
      exact ⟨hj, i, hk, i, hk, hj⟩
    · have hrest := h.steps (n + 1) k j hj
      obtain ⟨hless, hmore⟩ := ih hj (by omega)
      exact ⟨⟨k, hk, hless⟩, k, hk, hmore⟩

/-- Any two numbers of steps beyond that of the places lead to the same ones. -/
theorem GoesOn.steps_of_lt (h : GoesOn last R) {m n i j : Nat} (hij : Steps R m i j)
    (hm : last < m) (hn : last < n) : Steps R n i j := by
  have hnext : ∀ k, last < k → (Steps R k i j ↔ Steps R (k + 1) i j) := by
    intro k hk
    obtain ⟨k, rfl⟩ := Nat.exists_eq_add_of_lt (Nat.zero_lt_of_lt hk)
    constructor
    · intro hsteps
      have hle := h.steps _ i j hsteps
      rw [Nat.zero_add] at hsteps ⊢
      exact (h.steps_pred_succ hsteps (by omega)).2
    · intro hsteps
      have hle := h.steps _ i j hsteps
      exact (h.steps_pred_succ hsteps (by omega)).1
  have hall : ∀ d, Steps R (last + 1 + d) i j ↔ Steps R (last + 1) i j := by
    intro d
    induction d with
    | zero => rfl
    | succ d ih => rw [← ih, ← Nat.add_assoc, ← hnext _ (by omega)]
  obtain ⟨a, rfl⟩ := Nat.exists_eq_add_of_le (show last + 1 ≤ m from hm)
  obtain ⟨b, rfl⟩ := Nat.exists_eq_add_of_le (show last + 1 ≤ n from hn)
  exact (hall b).mpr ((hall a).mp hij)

/-- No more steps than there are places are needed. -/
theorem GoesOn.exists_steps_le (h : GoesOn last R) {n i j : Nat} (hij : Steps R n i j) :
    ∃ k ≤ n, k ≤ last + 1 ∧ Steps R k i j := by
  by_cases hn : n ≤ last + 1
  · exact ⟨n, le_rfl, hn, hij⟩
  · exact ⟨last + 1, by omega, le_rfl, h.steps_of_lt hij (by omega) (by omega)⟩

/-! ## Following steps -/

variable {step : Places → Places}

/-- A function on sets of places follows steps. -/
def Follows (step : Places → Places) (R : Nat → Nat → Prop) : Prop :=
  ∀ ps j, (step ps).testBit j = true ↔ ∃ i, ps.testBit i = true ∧ R i j

theorem Follows.stepTimes (h : Follows step R) (n : Nat) :
    Follows (stepTimes step n) (Steps R n) := by
  induction n with
  | zero => simp [Follows, Template.stepTimes, Steps]
  | succ n ih =>
    intro ps j
    rw [Template.stepTimes, ih]
    simp only [h ps, Steps]
    constructor
    · rintro ⟨k, ⟨i, hi, hk⟩, hj⟩
      exact ⟨i, hi, k, hk, hj⟩
    · rintro ⟨i, hi, k, hk, hj⟩
      exact ⟨k, ⟨i, hi, hk⟩, hj⟩

/-- The places reached by at most so many steps: those reached already are closed under steps, but
for the new ones among them. -/
theorem Follows.testBit_stepUpTo (h : Follows step R) (n : Nat) {done fresh : Places}
    (hfresh : ∀ i, fresh.testBit i = true → done.testBit i = true)
    (hdone : ∀ i j, done.testBit i = true → R i j →
      done.testBit j = true ∨ ∃ k, fresh.testBit k = true ∧ R k j) (j : Nat) :
    (stepUpTo step n done fresh).testBit j = true ↔
      ∃ k ≤ n, ∃ i, done.testBit i = true ∧ Steps R k i j := by
  induction n generalizing done fresh with
  | zero => simp [stepUpTo, Steps]
  | succ n ih =>
    have hreached : ∀ i, (Places.without (step fresh) done).testBit i = true ↔
        (∃ k, fresh.testBit k = true ∧ R k i) ∧ ¬ done.testBit i = true := by
      intro i
      rw [Places.testBit_without, Bool.and_eq_true, h, Bool.not_eq_true', Bool.not_eq_true]
    rw [stepUpTo]
    split
    · next hnone =>
      -- No step leads further, so none will.
      have hclosed : ∀ i j, done.testBit i = true → R i j → done.testBit j = true := by
        intro i j hi hij
        by_contra hj
        have hnew := (hreached j).mpr ⟨(hdone i j hi hij).resolve_left hj, hj⟩
        rw [hnone, Nat.zero_testBit] at hnew
        cases hnew
      constructor
      · exact fun hj => ⟨0, Nat.zero_le _, j, hj, rfl⟩
      · rintro ⟨k, -, i, hi, hj⟩
        exact hj.mem_of_closed hclosed hi
    · generalize Places.without (step fresh) done = reached at hreached
      have hor : ∀ i, (done ||| reached).testBit i = true ↔
          done.testBit i = true ∨ reached.testBit i = true := by
        intro i
        rw [Nat.testBit_or, Bool.or_eq_true]
      have hstep : ∀ i j, done.testBit i = true → R i j → (done ||| reached).testBit j = true := by
        intro i j hi hij
        rw [hor, hreached]
        by_cases hj : done.testBit j = true
        · exact .inl hj
        · exact .inr ⟨(hdone i j hi hij).resolve_left hj, hj⟩
      rw [ih (fun i hi => (hor i).mpr (.inr hi))]
      · constructor
        · rintro ⟨k, hk, i, hi, hj⟩
          rcases (hor i).mp hi with hi | hi
          · exact ⟨k, by omega, i, hi, hj⟩
          · obtain ⟨⟨l, hl, hli⟩, -⟩ := (hreached i).mp hi
            exact ⟨k + 1, by omega, l, hfresh l hl, i, hli, hj⟩
        · rintro ⟨k, hk, i, hi, hj⟩
          cases k with
          | zero => exact ⟨0, Nat.zero_le _, i, (hor i).mpr (.inl hi), hj⟩
          | succ k =>
            obtain ⟨l, hl, hj⟩ := hj
            exact ⟨k, by omega, l, hstep i l hi hl, hj⟩
      · intro i j hi hij
        rcases (hor i).mp hi with hi | hi
        · exact .inl (hstep i j hi hij)
        · exact .inr ⟨i, hi, hij⟩

/-- Whether so many steps are between two bounds, of which the lower one prevails. -/
def Between (least : Nat) (most : Option Nat) (n : Nat) : Prop :=
  least ≤ n ∧ ∀ m ∈ most, n ≤ max least m

/-- A number of steps between two bounds is followed by not many more steps than there are
places. -/
theorem Follows.stepBetween (h : Follows step R) (hR : GoesOn last R) (least : Nat)
    (most : Option Nat) :
    Follows (stepBetween step last least most) fun i j =>
      ∃ n, Between least most n ∧ Steps R n i j := by
  intro ps j
  have hstart := h.stepTimes (min least (last + 1 + 1)) ps
  have hleast : ∀ {i k}, Steps R (min least (last + 1 + 1)) i k ↔ Steps R least i k := by
    intro i k
    by_cases hle : least ≤ last + 1 + 1
    · rw [Nat.min_eq_left hle]
    · have hlt : last < least := by omega
      rw [Nat.min_eq_right (by omega)]
      exact ⟨fun hs => hR.steps_of_lt hs (by omega) hlt, fun hs => hR.steps_of_lt hs hlt (by omega)⟩
  unfold Template.stepBetween
  simp only
  rw [h.testBit_stepUpTo _ (fun i hi => hi) fun i j hi hij => .inr ⟨i, hi, hij⟩]
  simp only [hstart, hleast]
  constructor
  · rintro ⟨k, hk, l, ⟨i, hi, hl⟩, hj⟩
    refine ⟨i, hi, least + k, ⟨Nat.le_add_right _ _, ?_⟩, steps_add.mpr ⟨l, hl, hj⟩⟩
    rintro m hm
    cases hm
    simp only at hk
    omega
  · rintro ⟨i, hi, n, ⟨hn, hmost⟩, hj⟩
    obtain ⟨further, rfl⟩ := Nat.exists_eq_add_of_le hn
    obtain ⟨l, hl, hj⟩ := steps_add.mp hj
    obtain ⟨k, hk, hplaces, hj⟩ := hR.exists_steps_le hj
    refine ⟨k, ?_, l, ⟨i, hi, hl⟩, hj⟩
    cases most with
    | none => exact hplaces
    | some m =>
      have hm := hmost m rfl
      simp only
      omega

end

/-! ## Matches -/

/-- The character before a place of a text. -/
def before? (text : List Char) (i : Nat) : Option Char := if i = 0 then none else text[i - 1]?

theorem Places.testBit_among (test : (before after : Option Char) → Bool) (before : Option Char)
    (text : List Char) (i : Nat) : (Places.among test before text).testBit i = true ↔
      i ≤ text.length ∧ test (if i = 0 then before else text[i - 1]?) text[i]? = true := by
  induction text generalizing before i with
  | nil =>
    rw [Places.among]
    cases i with
    | zero => cases htest : test before none <;> simp [htest]
    | succ i => cases test before none <;> simp [Nat.testBit_succ]
  | cons c cs ih =>
    rw [Places.among]
    cases i with
    | zero => cases htest : test before (some c) <;> simp [htest]
    | succ i =>
      have hhalf : ∀ (n : Nat) (b : Bool), (2 * n + b.toNat) / 2 = n := by
        intro n b
        have hbit := Bool.toNat_lt b
        omega
      rw [Nat.testBit_succ, hhalf, ih]
      cases i <;> simp

namespace Regex

/-- An expression has a match in a text from one place to another. -/
def Spans (text : List Char) : Regex → Nat → Nat → Prop
  | .empty, i, j => i = j
  | .set s, i, j => j = i + 1 ∧ ∃ c, text[i]? = some c ∧ s.mem c = true
  | .assertion a, i, j =>
    i = j ∧ i ≤ text.length ∧ a.holds (before? text i) text[i]? = true
  | .seq r s, i, j => ∃ k, r.Spans text i k ∧ s.Spans text k j
  | .alt r s, i, j => r.Spans text i j ∨ s.Spans text i j
  | .repeated r least most, i, j => ∃ n, Between least most n ∧ Steps (r.Spans text) n i j

/-- A match never goes back, and ends in the text. -/
theorem goesOn_spans (text : List Char) (r : Regex) : GoesOn text.length (r.Spans text) := by
  induction r with
  | empty => exact fun i j hij => .inl hij
  | set s =>
    rintro i j ⟨rfl, c, hc, -⟩
    have hlt := (List.getElem?_eq_some_iff.mp hc).1
    exact .inr ⟨Nat.lt_succ_self i, hlt⟩
  | assertion a => exact fun i j hij => .inl hij.1
  | seq r s hr hs =>
    rintro i j ⟨k, hk, hj⟩
    have hfirst := hr i k hk
    have hrest := hs k j hj
    omega
  | alt r s hr hs => exact fun i j hij => hij.elim (hr i j) (hs i j)
  | repeated r least most hr =>
    rintro i j ⟨n, -, hj⟩
    exact hr.steps n i j hj

/-- The places followed through a text are those where a match ends that starts at one given. -/
theorem testBit_ends (text : List Char) (r : Regex) : Follows (r.ends text) (r.Spans text) := by
  induction r with
  | empty => simp [Follows, ends, Spans]
  | set s =>
    intro ps j
    rw [ends, Places.testBit_next, Nat.testBit_and, Bool.and_eq_true, Bool.and_eq_true,
      decide_eq_true_iff, Places.testBit_among, Option.any_eq_true]
    constructor
    · rintro ⟨hj, hps, -, hc⟩
      exact ⟨j - 1, hps, by omega, hc⟩
    · rintro ⟨i, hps, rfl, c, hc, hmem⟩
      have hlt := (List.getElem?_eq_some_iff.mp hc).1
      exact ⟨Nat.le_add_left 1 i, hps, Nat.le_of_lt hlt, c, hc, hmem⟩
  | assertion a =>
    intro ps j
    rw [ends, Nat.testBit_and, Bool.and_eq_true, Places.testBit_among]
    constructor
    · rintro ⟨hps, hplace⟩
      exact ⟨j, hps, rfl, hplace⟩
    · rintro ⟨i, hps, rfl, hplace⟩
      exact ⟨hps, hplace⟩
  | seq r s hr hs =>
    intro ps j
    rw [ends, hs]
    simp only [hr ps, Spans]
    constructor
    · rintro ⟨k, ⟨i, hi, hk⟩, hj⟩
      exact ⟨i, hi, k, hk, hj⟩
    · rintro ⟨i, hi, k, hk, hj⟩
      exact ⟨k, ⟨i, hi, hk⟩, hj⟩
  | alt r s hr hs =>
    intro ps j
    rw [ends, Nat.testBit_or, Bool.or_eq_true, hr, hs]
    simp only [Spans, and_or_left, exists_or]
  | repeated r least most hr => exact hr.stepBetween (goesOn_spans text r) least most

/-- A text has a match if an expression has one from any of its places. -/
theorem isMatch_iff {r : Regex} {text : String} : r.isMatch text = true ↔
    ∃ i j, i ≤ text.toList.length ∧ r.Spans text.toList i j := by
  have hplaces : ∀ j,
      (r.ends text.toList (Places.among (fun _ _ => true) none text.toList)).testBit j = true ↔
        ∃ i, i ≤ text.toList.length ∧ r.Spans text.toList i j := by
    intro j
    rw [testBit_ends]
    simp only [Places.testBit_among, and_true]
  rw [isMatch, bne_iff_ne]
  constructor
  · intro hne
    obtain ⟨j, hj⟩ := Nat.exists_testBit_of_ne_zero hne
    obtain ⟨i, hi, hspans⟩ := (hplaces j).mp hj
    exact ⟨i, j, hi, hspans⟩
  · rintro ⟨i, j, hi, hspans⟩ hzero
    have hj := (hplaces j).mpr ⟨i, hi, hspans⟩
    rw [hzero, Nat.zero_testBit] at hj
    cases hj

end Regex

end Quarry.Template
