/-
# The rows of tables

* `rowsOf` — the rows of the table known by a name.
* `rowsOf_created`, `rowsOf_inserted` — what making a table and putting a document into one do to
  the rows under all names.
* `Rising` — the numbers of rows rise. `Rising.inserted` — so they do when a document is put into a
  table.
-/
import Quarry.Proofs.Store.Tables

namespace Quarry.Store.Tables

open Quarry.Json Quarry.Sql

/-- The rows of the table known by a name. -/
def rowsOf (t : Tables) (name : String) : List TableRow := (t.rows? name).getD []

variable {t t' : Tables} {index name document : String} {id : Nat}

/-! ## Changes -/

/-- A table that is made has no rows, and others keep theirs. -/
theorem rowsOf_created (h : t.create index = .ok t') (name : String) :
    t'.rowsOf name = t.rowsOf name := by
  obtain ⟨-, -, ⟨-, rfl⟩ | ⟨-, -, rfl⟩⟩ := create_eq_ok.mp h
  · rfl
  · rw [rowsOf, rows?, find?_add]
    cases hfind : t.find? name with
    | some table => rw [rowsOf, rows?, hfind, Option.some_or]
    | none =>
      rw [rowsOf, rows?, hfind, Option.none_or]
      split_ifs <;> rfl

theorem templates_created (h : t.create index = .ok t') : t'.templates = t.templates := by
  obtain ⟨-, -, ⟨-, rfl⟩ | ⟨-, -, rfl⟩⟩ := create_eq_ok.mp h <;> rfl

/-- A table that is made is there, unless its name is that of the templates. -/
theorem isSome_rows?_created (h : t.create index = .ok t')
    (hname : sameName index templatesTable = false) : (t'.rows? index).isSome = true := by
  obtain ⟨-, -, ⟨hthere | htemplates, rfl⟩ | ⟨-, -, rfl⟩⟩ := create_eq_ok.mp h
  · rw [rows?, Option.isSome_map]
    exact hthere
  · rw [hname] at htemplates
    cases htemplates
  · rw [rows?, find?_add, sameName_self, if_pos rfl, Option.isSome_map, Option.isSome_or]
    exact Bool.or_true _

/-- A document becomes a row of its table, and other tables keep theirs. -/
theorem rowsOf_inserted (h : t.insert index document = .ok (id, t')) : ∃ v,
    Verbatim.ofText? document = some v ∧ id = nextId (t.rowsOf index) ∧ ∀ name,
      t'.rowsOf name =
        if sameName index name then t.rowsOf name ++ [⟨id, v.text⟩] else t.rowsOf name := by
  obtain ⟨rows, v, hrows, hv, hid, rfl⟩ := insert_eq_ok.mp h
  refine ⟨v, hv, ?_, fun name => ?_⟩
  · rw [rowsOf, hrows]
    exact hid
  · rw [rowsOf, rows?_append]
    by_cases hname : sameName index name = true
    · have hrowsOf : t.rowsOf name = rows := by
        rw [rowsOf, rows?, ← find?_congr hname, ← rows?, hrows]
        rfl
      rw [if_pos hname, if_pos hname, hrows, hrowsOf]
      rfl
    · rw [if_neg hname, if_neg hname, rowsOf]

theorem templates_inserted (h : t.insert index document = .ok (id, t')) :
    t'.templates = t.templates := by
  obtain ⟨-, -, -, -, -, rfl⟩ := insert_eq_ok.mp h
  rfl

/-- A document whose text can be kept is put into a table that is there. -/
theorem exists_insert (hrows : (t.rows? index).isSome = true) {v : Verbatim}
    (hv : Verbatim.ofText? document = some v) :
    ∃ id t', t.insert index document = .ok (id, t') := by
  obtain ⟨rows, hrows⟩ := Option.isSome_iff_exists.mp hrows
  exact ⟨_, _, insert_eq_ok.mpr ⟨rows, v, hrows, hv, rfl, rfl⟩⟩

/-- A document whose text cannot be kept is not. -/
theorem insert_malformed (hrows : (t.rows? index).isSome = true)
    (hv : Verbatim.ofText? document = none) :
    t.insert index document = .error .malformedDocument := by
  obtain ⟨rows, hrows⟩ := Option.isSome_iff_exists.mp hrows
  obtain ⟨table, hfind, -⟩ := Option.map_eq_some_iff.mp hrows
  rw [insert, hfind, hv]

/-! ## Numbers -/

/-- The numbers of rows rise. -/
def Rising (rows : List TableRow) : Prop := rows.Pairwise fun a b => a.id < b.id

/-- The next number is above those of all rows. -/
theorem Rising.lt_nextId {rows : List TableRow} (h : Rising rows) {row : TableRow}
    (hrow : row ∈ rows) : row.id < nextId rows := by
  rcases List.eq_nil_or_concat' rows with rfl | ⟨before, last, rfl⟩
  · cases hrow
  · have hnext : nextId (before ++ [last]) = last.id + 1 := by
      rw [nextId, List.getLast?_concat]
      rfl
    rw [hnext]
    rcases List.mem_append.mp hrow with hrow | hrow
    · have hlt := (List.pairwise_append.mp h).2.2 row hrow last (List.mem_singleton_self last)
      omega
    · rw [List.mem_singleton.mp hrow]
      exact Nat.lt_succ_self _

/-- A row that gets the next number comes behind them. -/
theorem Rising.concat {rows : List TableRow} (h : Rising rows) (text : String) :
    Rising (rows ++ [⟨nextId rows, text⟩]) := by
  refine List.pairwise_append.mpr ⟨h, List.pairwise_singleton .., fun row hrow other hother => ?_⟩
  rw [List.mem_singleton.mp hother]
  exact h.lt_nextId hrow

/-- A row is the only one with its number. -/
theorem Rising.filter_eq {rows : List TableRow} (h : Rising rows) {row : TableRow}
    (hrow : row ∈ rows) : rows.filter (fun other => other.id == row.id) = [row] := by
  induction rows with
  | nil => cases hrow
  | cons first rest ih =>
    obtain ⟨hfirst, hrest⟩ := List.pairwise_cons.mp h
    rcases List.mem_cons.mp hrow with rfl | hrow
    · rw [List.filter_cons, if_pos (beq_self_eq_true row.id), List.filter_eq_nil_iff.mpr]
      intro other hother heq
      have hlt := hfirst other hother
      rw [beq_iff_eq] at heq
      omega
    · have hne : ¬ (first.id == row.id) = true := by
        have hlt := hfirst row hrow
        rw [beq_iff_eq]
        omega
      rw [List.filter_cons, if_neg hne, ih hrest hrow]

/-- The numbers of the rows of all tables rise. -/
def Numbered (t : Tables) : Prop := ∀ table ∈ t.tables, Rising table.rows

theorem Numbered.rowsOf (h : Numbered t) (name : String) : Rising (t.rowsOf name) := by
  rw [Tables.rowsOf, rows?]
  cases hfind : t.find? name with
  | none => exact List.Pairwise.nil
  | some table => exact h table (List.mem_of_find?_eq_some hfind)

end Quarry.Store.Tables
