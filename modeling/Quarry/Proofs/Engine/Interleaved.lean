/-
# Activities beside one another

What becomes of a store and a registry when several activities take their steps in turn.

* `Program.step` — one step of an activity.
* `Crowd` — activities over one store and registry. `Crowd.after` — what becomes of them when they
  take turns as a schedule says.
* `Crowd.after_alone` — an activity that has all turns for itself runs to its end.
* `turns` — the order in which activities come to their first turns, their second, and so on.
-/
import Mathlib.Data.List.Induction
import Mathlib.Tactic.SplitIfs
import Quarry.Engine.Program

namespace Quarry.Engine

open Quarry.Engine.Program (World registerIn)

variable {σ α : Type}

/-! ## Steps -/

namespace Program

/-- What is left to do of a program after one step, and the store and registry then. Nothing is left
to do of one that is done. -/
def step (s : Store σ) : Program α → World σ → Program α × World σ
  | .done a, w => (.done a, w)
  | .call c next, w =>
    (next (s.perform c w.store).1, { w with store := (s.perform c w.store).2 })
  | .registry next, w => (next w.registry, w)
  | .register name m next, w =>
    (next (registerIn w.registry name m).1,
      { w with registry := (registerIn w.registry name m).2 })

/-- The value of a program that is done. -/
def answer? : Program α → Option α
  | .done a => some a
  | _ => none

/-- A program that goes on after one step runs as before. -/
theorem run_step (s : Store σ) (p : Program α) (w : World σ) :
    (p.step s w).1.run s (p.step s w).2 = p.run s w := by
  cases p <;> rfl

end Program

/-! ## Schedules -/

/-- Programs over one store and registry. -/
structure Crowd (σ α : Type) where
  parties : List (Program α)
  world : World σ

namespace Crowd

variable (s : Store σ) (c : Crowd σ α)

/-- One of the programs takes a step. -/
def advance (i : Nat) : Crowd σ α :=
  match c.parties[i]? with
  | some p => ⟨c.parties.set i (p.step s c.world).1, (p.step s c.world).2⟩
  | none => c

/-- The programs take steps in turn. -/
def after (schedule : List Nat) : Crowd σ α := schedule.foldl (advance s) c

/-- The value of one of the programs, if it is done. -/
def answer? (i : Nat) : Option α := c.parties[i]?.bind Program.answer?

variable {s c}

theorem advance_of_some {i : Nat} {p : Program α} (h : c.parties[i]? = some p) :
    c.advance s i = ⟨c.parties.set i (p.step s c.world).1, (p.step s c.world).2⟩ := by
  rw [advance, h]

theorem advance_of_none {i : Nat} (h : c.parties[i]? = none) : c.advance s i = c := by
  rw [advance, h]

theorem after_concat (schedule : List Nat) (i : Nat) :
    c.after s (schedule ++ [i]) = (c.after s schedule).advance s i := List.foldl_append ..

/-- A step of one program leaves the others where they are. -/
theorem getElem?_advance {i : Nat} {p : Program α} (h : c.parties[i]? = some p) (j : Nat) :
    (c.advance s i).parties[j]? =
      if j = i then some (p.step s c.world).1 else c.parties[j]? := by
  rw [advance_of_some h]
  by_cases hj : j = i
  · subst hj
    obtain ⟨hlt, -⟩ := List.getElem?_eq_some_iff.mp h
    rw [if_pos rfl, List.getElem?_set_self hlt]
  · rw [if_neg hj, List.getElem?_set_ne (Ne.symm hj)]

/-- A program that is done stays as it is. -/
theorem answer?_advance {j : Nat} {a : α} (h : c.answer? j = some a) (i : Nat) :
    (c.advance s i).answer? j = some a := by
  cases hi : c.parties[i]? with
  | none => rwa [advance_of_none hi]
  | some p =>
    rw [answer?, getElem?_advance hi]
    by_cases hj : j = i
    · subst hj
      rw [answer?, hi] at h
      cases p with
      | done b =>
        rw [if_pos rfl]
        exact h
      | _ => cases h
    · rwa [if_neg hj]

/-- A program that takes all turns runs to its end. -/
theorem after_alone (s : Store σ) (p : Program α) (w : World σ) :
    ∃ n, (Crowd.mk [p] w).after s (List.replicate n 0) =
      ⟨[.done (p.run s w).1], (p.run s w).2⟩ := by
  -- It is enough that what is left after one step runs to its end.
  have hfirst : ∀ (p : Program α) (w : World σ),
      (∃ n, (Crowd.mk [(p.step s w).1] (p.step s w).2).after s (List.replicate n 0) =
        ⟨[.done ((p.step s w).1.run s (p.step s w).2).1],
          ((p.step s w).1.run s (p.step s w).2).2⟩) →
      ∃ n, (Crowd.mk [p] w).after s (List.replicate n 0) =
        ⟨[.done (p.run s w).1], (p.run s w).2⟩ := by
    rintro p w ⟨n, hn⟩
    rw [Program.run_step] at hn
    exact ⟨n + 1, hn⟩
  induction p generalizing w with
  | done a => exact ⟨0, rfl⟩
  | call c next ih => exact hfirst _ w (ih _ _)
  | registry next ih => exact hfirst _ w (ih _ _)
  | register name m next ih => exact hfirst _ w (ih _ _)

end Crowd

/-! ## Turns -/

/-- Who takes a turn has had one more. -/
theorem count_concat_self (schedule : List Nat) (i : Nat) :
    (schedule ++ [i]).count i = schedule.count i + 1 := by
  rw [List.count_append, List.count_singleton_self]

/-- The others have had as many as before. -/
theorem count_concat_of_ne {i j : Nat} (h : j ≠ i) (schedule : List Nat) :
    (schedule ++ [i]).count j = schedule.count j := by
  rw [List.count_append, List.count_singleton, if_neg (fun hbeq => h (beq_iff_eq.mp hbeq).symm),
    Nat.add_zero]

/-- The parties that have had a number of turns before, in the order in which they come to the next
one. -/
def turnsAfter (k : Nat) : (before schedule : List Nat) → List Nat
  | _, [] => []
  | before, i :: rest =>
    if before.count i = k then i :: turnsAfter k (i :: before) rest
    else turnsAfter k (i :: before) rest

/-- The parties in the order in which they come to the turn that `k` turns of theirs come before. -/
def turns (k : Nat) (schedule : List Nat) : List Nat := turnsAfter k [] schedule

theorem turnsAfter_concat (k : Nat) (before schedule : List Nat) (i : Nat) :
    turnsAfter k before (schedule ++ [i]) =
      turnsAfter k before schedule ++ if before.count i + schedule.count i = k then [i] else [] := by
  induction schedule generalizing before with
  | nil => rfl
  | cons j rest ih =>
    have hcount : (j :: before).count i + rest.count i = before.count i + (j :: rest).count i := by
      rw [List.count_cons, List.count_cons]
      omega
    rw [List.cons_append, turnsAfter, turnsAfter, ih, hcount]
    split_ifs <;> rfl

theorem turns_concat (k : Nat) (schedule : List Nat) (i : Nat) :
    turns k (schedule ++ [i]) = turns k schedule ++ if schedule.count i = k then [i] else [] := by
  rw [turns, turnsAfter_concat, List.count_nil, Nat.zero_add, turns]

/-- A party comes to every turn that it has. -/
theorem mem_turns {k : Nat} {schedule : List Nat} {i : Nat} :
    i ∈ turns k schedule ↔ k < schedule.count i := by
  induction schedule using List.reverseRecOn with
  | nil => simp [turns, turnsAfter]
  | append_singleton schedule j ih =>
    rw [turns_concat, List.mem_append, ih]
    by_cases hj : i = j
    · subst hj
      rw [count_concat_self]
      split_ifs with hk
      · simp
        omega
      · simp
        omega
    · rw [count_concat_of_ne hj]
      split_ifs <;> simp [hj]

end Quarry.Engine
