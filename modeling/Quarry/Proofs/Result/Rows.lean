/-
# Results from rows

How the columns of a row become a bucket.

* `LastAt` — the last place of a list where something holds.
* `bucketMetrics_eq_ok` — the number of a field is that of its last column.
* `bucketOfRow_total`, `bucketOfRow_lacking` — a row makes a bucket when it has the columns, and an
  error that names a column when it lacks one.
-/
import Mathlib
import Quarry.Proofs.Json.Named
import Quarry.Proofs.Outcome
import Quarry.Result.Assemble

namespace Quarry.Result

open Quarry.Outcome Quarry.Plan

/-! ## Columns of rows -/

/-- A row that has columns of some names has a value under each of them. -/
theorem exists_get?_of_mem {row : Row} {name : String} (h : name ∈ row.map Prod.fst) :
    ∃ c, row.get? name = some c := by
  induction row with
  | nil => cases h
  | cons entry rest ih =>
    obtain ⟨other, c⟩ := entry
    by_cases hname : name = other
    · exact ⟨c, by simp [Row.get?, List.lookup, hname]⟩
    · obtain ⟨d, hd⟩ := ih ((List.mem_cons.mp h).resolve_left hname)
      have hne : (name == other) = false := beq_eq_false_iff_ne.mpr hname
      exact ⟨d, by simpa [Row.get?, List.lookup, hne] using hd⟩

/-- In a row whose columns have different names, a value is the one under its name. -/
theorem get?_of_mem {row : Row} (hnodup : (row.map Prod.fst).Nodup) {name : String} {c : Cell}
    (h : (name, c) ∈ row) : row.get? name = some c := by
  induction row with
  | nil => cases h
  | cons entry rest ih =>
    obtain ⟨other, d⟩ := entry
    obtain ⟨hother, hrest⟩ := List.nodup_cons.mp hnodup
    rcases List.mem_cons.mp h with heq | h
    · cases heq
      simp [Row.get?, List.lookup]
    · have hmem : name ∈ rest.map Prod.fst := List.mem_map_of_mem h
      have hne : (name == other) = false := by
        rw [beq_eq_false_iff_ne]
        rintro rfl
        exact hother hmem
      simpa [Row.get?, List.lookup, hne] using ih hrest h

theorem cell_eq_ok {row : Row} {name : String} {c : Cell} :
    cell row name = .ok c ↔ row.get? name = some c := by
  unfold cell
  cases row.get? name <;> simp

theorem cell_of_none {row : Row} {name : String} (h : row.get? name = none) :
    cell row name = .error (.missingColumn name) := by
  rw [cell, h]

/-! ## Numbers of a bucket -/

/-- A place of a list is the last one where something holds. -/
def LastAt {α : Type} (l : List α) (P : α → Prop) (i : Nat) (a : α) : Prop :=
  l[i]? = some a ∧ P a ∧ ∀ j b, i < j → l[j]? = some b → ¬ P b

/-- In a list with one more member in front, the last place is one further on, or the first if there
is no other. -/
theorem lastAt_cons {α : Type} {a b : α} {l : List α} {P : α → Prop} {i : Nat} :
    LastAt (a :: l) P i b ↔
      (∃ j, i = j + 1 ∧ LastAt l P j b) ∨ (i = 0 ∧ a = b ∧ P a ∧ ∀ c ∈ l, ¬ P c) := by
  constructor
  · rintro ⟨hb, hP, hlast⟩
    cases i with
    | zero =>
      obtain rfl : a = b := by simpa using hb
      refine .inr ⟨rfl, rfl, hP, ?_⟩
      intro c hc
      obtain ⟨j, hj⟩ := List.mem_iff_getElem?.mp hc
      exact hlast (j + 1) c (Nat.succ_pos j) (by simpa using hj)
    | succ i =>
      refine .inl ⟨i, rfl, by simpa using hb, hP, ?_⟩
      intro j c hij hc
      exact hlast (j + 1) c (Nat.succ_lt_succ hij) (by simpa using hc)
  · rintro (⟨j, rfl, hb, hP, hlast⟩ | ⟨rfl, rfl, hP, hrest⟩)
    · refine ⟨by simpa using hb, hP, ?_⟩
      intro k c hjk hc
      cases k with
      | zero => exact absurd hjk (Nat.not_lt_zero _)
      | succ k => exact hlast k c (Nat.lt_of_succ_lt_succ hjk) (by simpa using hc)
    · refine ⟨rfl, hP, ?_⟩
      intro k c hk hc
      cases k with
      | zero => exact absurd hk (Nat.lt_irrefl _)
      | succ k => exact hrest c (List.mem_of_getElem? (by simpa using hc))

/-- Numbers are put under their fields; that of a field is the one of its last column, or one that
was there before. -/
theorem bucketMetrics_eq_ok {row : Row} {l : List Alias}
    (hcells : ∀ a ∈ l, ∃ c, row.get? a.name = some c) {done : Named Json}
    (hdone : done.Ascending) :
    ∃ ms, bucketMetrics row done l = .ok ms ∧ ms.Ascending ∧
      ∀ field v, ms.get? field = some v ↔
        (∃ i a c, LastAt l (fun b => b.definition.field = field) i a ∧
          row.get? a.name = some c ∧ v = c.toJson) ∨
        ((∀ a ∈ l, a.definition.field ≠ field) ∧ done.get? field = some v) := by
  induction l generalizing done with
  | nil =>
    refine ⟨done, rfl, hdone, ?_⟩
    intro field v
    simp [LastAt]
  | cons a rest ih =>
    obtain ⟨c, hc⟩ := hcells a List.mem_cons_self
    have hnext := Named.ascending_insert hdone a.definition.field c.toJson
    -- The numbers put so far are general in the induction, since each column adds one to them.
    obtain ⟨ms, hms, hasc, hget⟩ := ih (fun b hb => hcells b (List.mem_cons_of_mem a hb)) hnext
    refine ⟨ms, bind_eq_ok.mpr ⟨c, cell_eq_ok.mpr hc, hms⟩, hasc, ?_⟩
    intro field v
    rw [hget field v]
    constructor
    · rintro (⟨i, b, d, hb, hd, rfl⟩ | ⟨hrest, hold⟩)
      · exact .inl ⟨i + 1, b, d, lastAt_cons.mpr (.inl ⟨i, rfl, hb⟩), hd, rfl⟩
      · by_cases hfield : a.definition.field = field
        · subst hfield
          rw [Named.get?_insert_self] at hold
          cases hold
          exact .inl ⟨0, a, c, lastAt_cons.mpr (.inr ⟨rfl, rfl, rfl, hrest⟩), hc, rfl⟩
        · rw [Named.get?_insert_of_ne (Ne.symm hfield)] at hold
          exact .inr ⟨List.forall_mem_cons.mpr ⟨hfield, hrest⟩, hold⟩
    · rintro (⟨i, b, d, hb, hd, rfl⟩ | ⟨hall, hold⟩)
      -- A later column of the same field takes the place of the number that was put first.
      · rcases lastAt_cons.mp hb with ⟨j, rfl, hj⟩ | ⟨rfl, rfl, hfield, hrest⟩
        · exact .inl ⟨j, b, d, hj, hd, rfl⟩
        · rw [hc] at hd
          cases hd
          subst hfield
          exact .inr ⟨hrest, Named.get?_insert_self _ _ _⟩
      · obtain ⟨hfield, hrest⟩ := List.forall_mem_cons.mp hall
        refine .inr ⟨hrest, ?_⟩
        rw [Named.get?_insert_of_ne (Ne.symm hfield)]
        exact hold

/-- Numbers of which a column is absent make an error that names such a column. -/
theorem bucketMetrics_lacking {row : Row} {l : List Alias}
    (h : ∃ a ∈ l, row.get? a.name = none) (done : Named Json) :
    ∃ a ∈ l, bucketMetrics row done l = .error (.missingColumn a.name) := by
  induction l generalizing done with
  | nil =>
    obtain ⟨a, ha, -⟩ := h
    cases ha
  | cons a rest ih =>
    -- The first column that is absent ends the walk, and the error names it.
    cases hc : row.get? a.name with
    | none =>
      refine ⟨a, List.mem_cons_self, ?_⟩
      rw [bucketMetrics, cell_of_none hc]
      rfl
    | some c =>
      have hrest : ∃ b ∈ rest, row.get? b.name = none := by
        obtain ⟨b, hb, hnone⟩ := h
        rcases List.mem_cons.mp hb with rfl | hb
        · rw [hc] at hnone
          cases hnone
        · exact ⟨b, hb, hnone⟩
      obtain ⟨b, hb, herror⟩ := ih hrest (done.insert a.definition.field c.toJson)
      refine ⟨b, List.mem_cons_of_mem a hb, ?_⟩
      rw [bucketMetrics, cell_eq_ok.mpr hc]
      exact herror

/-! ## Buckets -/

section

variable {key count : Alias} {metrics : List Alias}

/-- The names of the columns of a bucket. -/
def bucketNames (key count : Alias) (metrics : List Alias) : List String :=
  key.name :: count.name :: metrics.map Alias.name

/-- A bucket holds the columns of a row: the key, the count, and under each field the number of its
last column. -/
structure IsBucket (key count : Alias) (metrics : List Alias) (row : Row) (b : Bucket) : Prop where
  key : ∃ c, row.get? key.name = some c ∧ b.key = c.key
  count : ∃ c, row.get? count.name = some c ∧ b.docCount = c.toInt?.getD 0
  ascending : b.metrics.Ascending
  metric : ∀ field v, b.metrics.get? field = some v ↔
    ∃ i a c, LastAt metrics (fun m => m.definition.field = field) i a ∧
      row.get? a.name = some c ∧ v = c.toJson

/-- A row with all columns is a bucket. -/
theorem bucketOfRow_total {row : Row}
    (h : ∀ name ∈ bucketNames key count metrics, ∃ c, row.get? name = some c) :
    ∃ b, bucketOfRow key count metrics row = .ok b ∧ IsBucket key count metrics row b := by
  obtain ⟨hkey, hrest⟩ := List.forall_mem_cons.mp h
  obtain ⟨hcount, hmetrics⟩ := List.forall_mem_cons.mp hrest
  obtain ⟨k, hk⟩ := hkey
  obtain ⟨n, hn⟩ := hcount
  have hcells : ∀ a ∈ metrics, ∃ c, row.get? a.name = some c :=
    fun a ha => hmetrics a.name (List.mem_map_of_mem ha)
  obtain ⟨ms, hms, hasc, hget⟩ := bucketMetrics_eq_ok hcells Named.ascending_nil
  refine ⟨⟨k.key, n.toInt?.getD 0, ms⟩, ?_, ⟨k, hk, rfl⟩, ⟨n, hn, rfl⟩, hasc, ?_⟩
  · exact bind_eq_ok.mpr ⟨k, cell_eq_ok.mpr hk, bind_eq_ok.mpr ⟨n, cell_eq_ok.mpr hn,
      bind_eq_ok.mpr ⟨ms, hms, rfl⟩⟩⟩
  · intro field v
    rw [hget field v]
    simp [Named.get?]

/-- A row that lacks a column is an error that names such a column. -/
theorem bucketOfRow_lacking {row : Row}
    (h : ∃ name ∈ bucketNames key count metrics, row.get? name = none) :
    ∃ name ∈ bucketNames key count metrics,
      bucketOfRow key count metrics row = .error (.missingColumn name) := by
  cases hk : row.get? key.name with
  | none =>
    refine ⟨key.name, List.mem_cons_self, ?_⟩
    rw [bucketOfRow, cell_of_none hk]
    rfl
  | some k =>
    cases hn : row.get? count.name with
    | none =>
      refine ⟨count.name, List.mem_cons_of_mem _ List.mem_cons_self, ?_⟩
      rw [bucketOfRow, cell_eq_ok.mpr hk, cell_of_none hn]
      rfl
    | some n =>
      have hmetric : ∃ a ∈ metrics, row.get? a.name = none := by
        obtain ⟨name, hname, hnone⟩ := h
        rcases List.mem_cons.mp hname with rfl | hname
        · rw [hk] at hnone
          cases hnone
        · rcases List.mem_cons.mp hname with rfl | hname
          · rw [hn] at hnone
            cases hnone
          · obtain ⟨a, ha, rfl⟩ := List.mem_map.mp hname
            exact ⟨a, ha, hnone⟩
      obtain ⟨a, ha, herror⟩ := bucketMetrics_lacking hmetric []
      refine ⟨a.name, ?_, ?_⟩
      · exact List.mem_cons_of_mem _ (List.mem_cons_of_mem _ (List.mem_map_of_mem ha))
      · rw [bucketOfRow, cell_eq_ok.mpr hk, cell_eq_ok.mpr hn, herror]
        rfl

/-- Rows with all columns are buckets, one for each row and in their order. -/
theorem bucketsOfRows_total {rows : List Row}
    (h : ∀ row ∈ rows, ∀ name ∈ bucketNames key count metrics, ∃ c, row.get? name = some c) :
    ∃ bs, bucketsOfRows key count metrics rows = .ok bs ∧
      List.Forall₂ (IsBucket key count metrics) rows bs := by
  induction rows with
  | nil => exact ⟨[], rfl, .nil⟩
  | cons row rest ih =>
    obtain ⟨hrow, hrest⟩ := List.forall_mem_cons.mp h
    obtain ⟨b, hb, hbucket⟩ := bucketOfRow_total hrow
    obtain ⟨bs, hbs, hbuckets⟩ := ih hrest
    exact ⟨b :: bs, bind_eq_ok.mpr ⟨b, hb, bind_eq_ok.mpr ⟨bs, hbs, rfl⟩⟩, .cons hbucket hbuckets⟩

/-- Rows of which one lacks a column are an error that names such a column. -/
theorem bucketsOfRows_lacking {rows : List Row}
    (h : ∃ row ∈ rows, ∃ name ∈ bucketNames key count metrics, row.get? name = none) :
    ∃ name ∈ bucketNames key count metrics,
      bucketsOfRows key count metrics rows = .error (.missingColumn name) := by
  induction rows with
  | nil =>
    obtain ⟨row, hrow, -⟩ := h
    cases hrow
  | cons row rest ih =>
    by_cases hlacks : ∃ name ∈ bucketNames key count metrics, row.get? name = none
    · obtain ⟨name, hname, herror⟩ := bucketOfRow_lacking hlacks
      refine ⟨name, hname, ?_⟩
      rw [bucketsOfRows, herror]
      rfl
    · have hall : ∀ name ∈ bucketNames key count metrics, ∃ c, row.get? name = some c := by
        intro name hname
        refine Option.ne_none_iff_exists'.mp fun hnone => hlacks ⟨name, hname, hnone⟩
      have hrest : ∃ row ∈ rest, ∃ name ∈ bucketNames key count metrics, row.get? name = none := by
        obtain ⟨other, hother, hlack⟩ := h
        rcases List.mem_cons.mp hother with rfl | hother
        · exact absurd hlack hlacks
        · exact ⟨other, hother, hlack⟩
      obtain ⟨b, hb, -⟩ := bucketOfRow_total hall
      obtain ⟨name, hname, herror⟩ := ih hrest
      refine ⟨name, hname, ?_⟩
      rw [bucketsOfRows, hb, herror]
      rfl

end

end Quarry.Result
