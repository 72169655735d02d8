/-
# The greatest of values

* `SortKey.compare_lt_of_lt_of_not_lt` — the order of keys is total.
* `greatest_mem`, `not_greatest_lt` — the greatest of some values is one of them, and it comes before
  none.
-/
import Quarry.Proofs.Sql.Sorted
import Quarry.Sql.Mean

namespace Quarry.Sql

open Quarry.Result

/-! ## The order of keys -/

/-- What comes before a key comes before every other one that the key does not come after. -/
theorem SortKey.compare_lt_of_lt_of_not_lt {a b c : SortKey} (hab : SortKey.compare a b = .lt)
    (hcb : SortKey.compare c b ≠ .lt) : SortKey.compare a c = .lt := by
  cases h : SortKey.compare c b with
  | lt => exact absurd h hcb
  | eq => exact compare_eq_eq.mp h ▸ hab
  | gt => exact SortKey.compare_lt_trans hab (SortKey.compare_eq_gt.mp h)

/-- Nothing comes before the key of a missing value. -/
theorem SortKey.not_lt_null (a : SortKey) : SortKey.compare a .null ≠ .lt := by
  cases a <;> nofun

/-! ## Folding -/

theorem greater_eq_or (a b : Cell) : greater a b = a ∨ greater a b = b := by
  unfold greater
  split
  · exact .inr rfl
  · exact .inl rfl

/-- The greater of two values comes before neither. -/
theorem not_greater_lt (a b : Cell) : SortKey.compare (sortKey (greater a b)) (sortKey a) ≠ .lt ∧
    SortKey.compare (sortKey (greater a b)) (sortKey b) ≠ .lt := by
  have hself : ∀ c : Cell, SortKey.compare (sortKey c) (sortKey c) ≠ .lt := by
    intro c
    rw [SortKey.compare_self]
    nofun
  unfold greater
  split
  · next h =>
    refine ⟨fun hba => ?_, hself b⟩
    exact hself a (SortKey.compare_lt_trans h hba)
  · next h => exact ⟨hself a, h⟩

/-- Folding gives a value that was there, and it comes before none. -/
theorem foldl_greater (a : Cell) (l : List Cell) :
    l.foldl greater a ∈ a :: l ∧
      ∀ b ∈ a :: l, SortKey.compare (sortKey (l.foldl greater a)) (sortKey b) ≠ .lt := by
  induction l generalizing a with
  | nil =>
    refine ⟨List.mem_singleton_self a, fun b hb => ?_⟩
    rw [List.mem_singleton.mp hb, List.foldl_nil, SortKey.compare_self]
    nofun
  | cons b rest ih =>
    obtain ⟨hmem, hnot⟩ := ih (greater a b)
    obtain ⟨ha, hb⟩ := not_greater_lt a b
    -- What the result does not come before, it comes before nothing below that either.
    have hbelow : ∀ c, SortKey.compare (sortKey (greater a b)) (sortKey c) ≠ .lt →
        SortKey.compare (sortKey (rest.foldl greater (greater a b))) (sortKey c) ≠ .lt := by
      intro c hc hlt
      exact hnot _ List.mem_cons_self (SortKey.compare_lt_of_lt_of_not_lt hlt hc)
    rw [List.foldl_cons]
    constructor
    · rcases List.mem_cons.mp hmem with h | h
      · rw [h]
        rcases greater_eq_or a b with h | h <;> rw [h] <;> simp
      · exact List.mem_cons_of_mem _ (List.mem_cons_of_mem _ h)
    · intro c hc
      rcases List.mem_cons.mp hc with rfl | hc
      · exact hbelow c ha
      · rcases List.mem_cons.mp hc with rfl | hc
        · exact hbelow c hb
        · exact hnot c (List.mem_cons_of_mem _ hc)

/-! ## Greatest values -/

/-- The greatest of some values is missing or one of them. -/
theorem greatest_mem (cells : List Cell) : greatest cells = .null ∨ greatest cells ∈ cells := by
  rcases List.mem_cons.mp (foldl_greater .null (cells.filter fun c => !isMissing c)).1 with h | h
  · exact .inl h
  · exact .inr (List.mem_of_mem_filter h)

/-- It comes before none of them. -/
theorem not_greatest_lt {cells : List Cell} {c : Cell} (hc : c ∈ cells) :
    SortKey.compare (sortKey (greatest cells)) (sortKey c) ≠ .lt := by
  by_cases hnull : c = .null
  · rw [hnull]
    exact SortKey.not_lt_null _
  · refine (foldl_greater .null (cells.filter fun c => !isMissing c)).2 c (List.mem_cons_of_mem _ ?_)
    refine List.mem_filter.mpr ⟨hc, ?_⟩
    cases c <;> first | rfl | exact absurd rfl hnull

end Quarry.Sql
