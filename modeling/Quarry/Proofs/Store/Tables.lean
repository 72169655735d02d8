/-
# Tables and their names

What making a table and putting a document into one do to the tables under all names.

* `sameName_iff` — names are the same when their letters are, but for case.
* `Tables.create_eq_ok` — making a table adds an empty one, or nothing.
* `Tables.insert_eq_ok` — a document becomes the last row of the table known by a name.
* `Tables.find?_append`, `Tables.contains_append` — where that row is found.
-/
import Quarry.Proofs.Outcome
import Quarry.Store.Tables

namespace Quarry

open Quarry.Json Quarry.Outcome Quarry.Request Quarry.Sql Quarry.Text

/-! ## Names -/

namespace Sql

theorem sameName_iff {a b : String} : sameName a b = true ↔ asciiLower a = asciiLower b :=
  beq_iff_eq

/-- A letter made small was that small letter or its capital. -/
theorem eq_or_capital_of_toLower {c d : Char} (h : c.toLower = d) :
    c = d ∨ 'A' ≤ c ∧ c ≤ 'Z' ∧ c.toNat + 32 = d.toNat := by
  unfold Char.toLower at h
  split at h
  · next hc =>
    obtain ⟨hlow, hhigh⟩ := hc
    refine .inr ⟨hlow, hhigh, ?_⟩
    have hval := congrArg (fun d : Char => d.val.toNat) h
    rw [UInt32.le_iff_toNat_le] at hhigh
    simp at hval hhigh
    omega
  · exact .inl h

theorem sameName_self (a : String) : sameName a a = true := sameName_iff.mpr rfl

theorem sameName_comm (a b : String) : sameName a b = sameName b a := by
  rw [Bool.eq_iff_iff, sameName_iff, sameName_iff, eq_comm]

/-- A name is the same as others when one that is the same is. -/
theorem sameName_congr {a b : String} (h : sameName a b = true) (c : String) :
    sameName c a = sameName c b := by
  rw [Bool.eq_iff_iff, sameName_iff, sameName_iff, sameName_iff.mp h]

end Sql

namespace Store.Tables

/-! ## Putting rows into tables -/

theorem append_names (name : String) (row : TableRow) (tables : List Table) :
    (append name row tables).map Table.name = tables.map Table.name := by
  induction tables with
  | nil => rfl
  | cons table rest ih =>
    rw [append]
    split_ifs
    · rfl
    · rw [List.map_cons, List.map_cons, ih]

/-- Whether a table is known by a name. -/
def isKnownAs (name : String) (table : Table) : Bool := sameName table.name name

theorem find?_eq (t : Tables) (name : String) : t.find? name = t.tables.find? (isKnownAs name) :=
  rfl

/-- A table is found under a name in any case. -/
theorem find?_congr {name other : String} (h : sameName name other = true) (t : Tables) :
    t.find? name = t.find? other := by
  have hsame : isKnownAs name = isKnownAs other := funext fun table => sameName_congr h table.name
  rw [find?_eq, find?_eq, hsame]

theorem append_cons (name : String) (row : TableRow) (table : Table) (rest : List Table) :
    append name row (table :: rest) =
      if isKnownAs name table then { table with rows := table.rows ++ [row] } :: rest
      else table :: append name row rest := rfl

/-- A table is found with the row that was put into it, and any other as it was. -/
theorem find?_append (t : Tables) (name : String) (row : TableRow) (other : String) :
    find? { t with tables := append name row t.tables } other =
      if sameName name other then
        (t.find? name).map fun table => { table with rows := table.rows ++ [row] }
      else t.find? other := by
  by_cases hname : sameName name other = true
  · rw [if_pos hname, ← find?_congr hname]
    obtain ⟨tables, templates⟩ := t
    simp only [find?_eq]
    induction tables with
    | nil => rfl
    | cons table rest ih =>
      rw [append_cons]
      by_cases h : isKnownAs name table = true
      · have hrow : isKnownAs name { table with rows := table.rows ++ [row] } = true := h
        rw [if_pos h, List.find?_cons_of_pos h, List.find?_cons_of_pos hrow]
        rfl
      · rw [if_neg h, List.find?_cons_of_neg h, List.find?_cons_of_neg h, ih]
  · rw [if_neg hname]
    obtain ⟨tables, templates⟩ := t
    simp only [find?_eq]
    induction tables with
    | nil => rfl
    | cons table rest ih =>
      rw [append_cons]
      by_cases h : isKnownAs name table = true
      · have hother : ¬ isKnownAs other table = true := by
          rw [isKnownAs, sameName_comm, sameName_congr h, sameName_comm]
          exact hname
        have hrow : ¬ isKnownAs other { table with rows := table.rows ++ [row] } = true := hother
        rw [if_pos h, List.find?_cons_of_neg hother, List.find?_cons_of_neg hrow]
      · rw [if_neg h, List.find?_cons, List.find?_cons, ih]

/-- The rows of a table are those it had and the one that was put into it. -/
theorem rows?_append (t : Tables) (name : String) (row : TableRow) (other : String) :
    rows? { t with tables := append name row t.tables } other =
      if sameName name other then (t.rows? name).map fun rows => rows ++ [row]
      else t.rows? other := by
  rw [rows?, find?_append]
  split_ifs
  · rw [rows?, Option.map_map, Option.map_map]
    rfl
  · rfl

/-- No table comes or goes when a row is put into one. -/
theorem contains_append (t : Tables) (name : String) (row : TableRow) (other : String) :
    contains { t with tables := append name row t.tables } other = t.contains other := by
  have hany : ∀ tables : List Table, (tables.any fun table => table.name == other) =
      (tables.map Table.name).any fun n => n == other := by
    intro tables
    rw [List.any_map]
    rfl
  rw [contains, contains, hany, hany, append_names]

/-! ## Outcomes -/

/-- A document is put behind the rows of the table known by the name. -/
theorem insert_eq_ok {t t' : Tables} {name document : String} {id : Nat} :
    t.insert name document = .ok (id, t') ↔ ∃ rows v, t.rows? name = some rows ∧
      Verbatim.ofText? document = some v ∧ id = nextId rows ∧
      t' = { t with tables := append name ⟨id, v.text⟩ t.tables } := by
  unfold insert rows?
  cases t.find? name with
  | none => simp
  | some table =>
    cases Verbatim.ofText? document with
    | none => simp
    | some v =>
      simp only [Except.ok.injEq, Prod.mk.injEq, Option.map_some, Option.some.injEq,
        exists_and_left, exists_eq_left']
      constructor
      · rintro ⟨rfl, rfl⟩
        exact ⟨rfl, rfl⟩
      · rintro ⟨rfl, rfl⟩
        exact ⟨rfl, rfl⟩

/-- A table that is made is there already, or is added as an empty one. -/
theorem create_eq_ok {t t' : Tables} {name : String} :
    t.create name = .ok t' ↔ isReserved name = false ∧ isWritable name = true ∧
      (((t.find? name).isSome ∨ sameName name templatesTable = true) ∧ t' = t ∨
        t.find? name = none ∧ sameName name templatesTable = false ∧
          t' = { t with tables := t.tables ++ [⟨name, []⟩] }) := by
  have hok : ∀ {s : Tables}, (.ok s : Except Failure Tables) = .ok t' ↔ t' = s := by
    intro s
    rw [Except.ok.injEq, eq_comm]
  unfold create
  cases isReserved name with
  | true => simp
  | false =>
    cases isWritable name with
    | false => simp
    | true =>
      cases t.find? name with
      | some table => simp [hok]
      | none => cases sameName name templatesTable <;> simp [hok]

/-- A table that is added is found under its name, unless there was one already. -/
theorem find?_add (t : Tables) (name other : String) :
    find? { t with tables := t.tables ++ [⟨name, []⟩] } other =
      (t.find? other).or (if sameName name other then some ⟨name, []⟩ else none) := by
  unfold find?
  simp only [List.find?_append, List.find?_singleton]

theorem contains_add (t : Tables) (name other : String) :
    contains { t with tables := t.tables ++ [⟨name, []⟩] } other =
      (t.contains other || name == other) := by
  simp only [contains, List.any_append, List.any_cons, List.any_nil, Bool.or_false, Bool.or_assoc]

end Store.Tables

end Quarry
