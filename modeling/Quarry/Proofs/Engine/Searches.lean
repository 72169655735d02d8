/-
# Searches over tables

* `Agrees` — an activity has the same outcome over two stores, and changes neither.
* `Agrees.search` — a search depends on the table of its index only.
* `AsksForAll` — a request for all documents of an index.
* `search_all` — it is answered with all documents, if each is read back from its text.
-/
import Quarry.Proofs.Engine.Runs
import Quarry.Proofs.Json.ReadBack
import Quarry.Proofs.Plan.Limits
import Quarry.Proofs.Plan.Sources
import Quarry.Proofs.Sql.Fields
import Quarry.Proofs.Sql.Rows

namespace Quarry.Engine

open Quarry.Engine.Program (World)
open Quarry.Json Quarry.Outcome Quarry.Plan Quarry.Request Quarry.Result Quarry.Sql Quarry.Store
open Quarry.Store.Tables Quarry.Text

/-! ## Searches -/

/-- An activity has the same outcome over two stores, and changes neither. -/
def Agrees {α : Type} (w w' : World Tables) (p : Engine α) : Prop :=
  ∃ x, onTables p w = (x, w) ∧ onTables p w' = (x, w')

namespace Agrees

variable {α β : Type} {w w' : World Tables}

theorem pure (a : α) : Agrees w w' (Pure.pure a) := ⟨_, rfl, rfl⟩

theorem throw (e : Error) : Agrees w w' (MonadExcept.throw e : Engine α) := ⟨_, rfl, rfl⟩

theorem orFail (x : Except Error α) : Agrees w w' (Engine.orFail x) := ⟨_, rfl, rfl⟩

theorem bind {p : Engine α} {f : α → Engine β} (h : Agrees w w' p)
    (hf : ∀ a, Agrees w w' (f a)) : Agrees w w' (p >>= f) := by
  obtain ⟨x, hw, hw'⟩ := h
  cases x with
  | error e => exact ⟨_, onTables_bind_error hw, onTables_bind_error hw'⟩
  | ok a =>
    obtain ⟨y, hy, hy'⟩ := hf a
    exact ⟨y, (onTables_bind_ok hw).trans hy, (onTables_bind_ok hw').trans hy'⟩

theorem orFail_ok {f : α → Engine β} {a : α} (h : Agrees w w' (f a)) :
    Agrees w w' (Engine.orFail (.ok a) >>= f) := h

/-- A statement gives the same result while the table that it reads stays as it is. -/
theorem execute {index : String} (hrows : w'.store.rows? index = w.store.rows? index)
    {s : Statement} (hs : s.ReadsOnly index) : Agrees w w' (call (.execute s)) := by
  refine ⟨(report (Statement.run w.store.rows? s)).mapError .storage, rfl, ?_⟩
  rw [← Statement.run_congr hrows hs]
  rfl

theorem runAggregations {index : String} (hrows : w'.store.rows? index = w.store.rows? index)
    {nodes : List AggregationNode} (h : ∀ n ∈ nodes, n.statement.ReadsOnly index) :
    Agrees w w' (Engine.runAggregations nodes) := by
  induction nodes with
  | nil => exact pure _
  | cons n rest ih =>
    obtain ⟨hn, hrest⟩ := List.forall_mem_cons.mp h
    exact (execute hrows hn).bind fun _ => (orFail _).bind fun _ => (ih hrest).bind fun _ => pure _

/-- A search has the same outcome while the table of its index stays as it is. -/
theorem search {index : String} (hrows : w'.store.rows? index = w.store.rows? index)
    (hthere : w'.store.contains index = w.store.contains index)
    (hregistry : w'.registry = w.registry) (r : SearchRequest) :
    Agrees w w' (Engine.search index r) := by
  have hexists : Agrees w w' (call (.tableExists index)) :=
    ⟨_, rfl, congrArg (fun b => (Except.ok b, w')) hthere⟩
  have htemplates : Agrees w w' registry := ⟨_, rfl, congrArg (fun t => (Except.ok t, w')) hregistry⟩
  unfold Engine.search
  refine (orFail _).bind fun _ => ?_
  cases hplan : compile index r with
  | error e => exact ⟨_, rfl, rfl⟩
  | ok plan =>
    obtain ⟨ps, hplanned⟩ := compile_eq_ok.mp hplan
    have hnodes : ∀ n ∈ plan.aggregations, n.statement.ReadsOnly index := fun n hn =>
      hplanned.readsOnly (aggregation_mem_nodes hn)
    have hhits : plan.hits.ReadsOnly index :=
      hplanned.readsOnly (hits_mem_nodes plan)
    refine orFail_ok (hexists.bind fun there => ?_)
    cases there with
    | false => exact throw _
    | true =>
      exact htemplates.bind fun _ => (runAggregations hrows hnodes).bind fun _ =>
        (execute hrows hhits).bind fun _ => (orFail _).bind fun _ => pure _

end Agrees

/-! ## Searches for everything -/

/-- A request for all documents of an index, up to a number. -/
structure AsksForAll (r : SearchRequest) : Prop where
  query : leaves r.query = []
  aggs : r.aggs = []
  sort : r.sort = []
  start : r.start.getD 0 = 0

/-- The text of the statement for all documents. -/
theorem sql_hitsStatement {index : String} {r : SearchRequest} (h : AsksForAll r) :
    Statement.sql (hitsStatement index [] r) =
      "SELECT rowid AS id, JSON(content) AS content FROM " ++ identifier index ++
        " WHERE 1 = 1 LIMIT " ++ Digits.ofNat r.limit := by
  have hlimit : SelectText.limitSql (some r.limit) r.start = " LIMIT " ++ Digits.ofNat r.limit := by
    have hstart := h.start
    cases hr : r.start with
    | none => exact String.append_empty
    | some n =>
      rw [hr] at hstart
      obtain rfl : n = 0 := hstart
      exact String.append_empty
  have hsort : (r.sort.map fun e => (⟨.field none e.field, e.direction⟩ :
      OrderKey Expr SortDirection)) = [] := by
    rw [h.sort]
    rfl
  rw [Statement.sql, hitsStatement, hsort]
  show _ ++ _ ++ _ ++ _ ++ _ ++ SelectText.limitSql (some r.limit) r.start = _
  rw [hlimit, ← String.toList_inj]
  simp [String.toList_append, Source.sql, SelectText.whereSql, SelectText.groupSql,
    SelectText.orderSql, Select.mapParts, separated, Output.sql, Expr.sql, hitNumber, hitDocument]

/-- A name of an index has no character of code zero. -/
theorem zero_not_mem_of_isIndexName {index : String} (h : isIndexName index = true) :
    Char.ofNat 0 ∉ index.toList := by
  intro hmem
  rw [isIndexName, Bool.and_eq_true, Bool.and_eq_true, List.all_eq_true] at h
  cases h.1.2 _ hmem

/-- So it can stand in a statement. -/
theorem isWritable_of_isIndexName {index : String} (h : isIndexName index = true) :
    isWritable index = true := by
  rw [isWritable, Bool.not_eq_true', ← Bool.not_eq_true, List.contains_iff_mem]
  exact zero_not_mem_of_isIndexName h

theorem zero_not_mem_identifier {name : String} (h : Char.ofNat 0 ∉ name.toList) :
    Char.ofNat 0 ∉ (identifier name).toList := by
  rw [identifier, String.toList_ofList, mem_enclose (by decide)]
  exact h

/-- A number is written without one. -/
theorem zero_not_mem_ofNat (n : Nat) : Char.ofNat 0 ∉ (Digits.ofNat n).toList := by
  rw [Digits.ofNat, String.toList_ofList]
  intro hmem
  cases Digits.isDigit_of_mem_chars hmem

/-- The rows of all documents of a table, as a statement gives them. -/
def allRows (rows : List TableRow) : List Row :=
  rows.map fun row => [(hitNumber, .int row.id), (hitDocument, .text row.content)]

/-- Rows on which nothing is asked are all found, up to a number. -/
theorem filterFirst_nil {name : String} {outer : Scope} {rows : List TableRow} {n : Nat}
    (h : rows.length ≤ n) :
    filterFirst name outer [] n rows = .ok (rows.map fun row => ⟨name, row⟩ :: outer) := by
  induction rows generalizing n with
  | nil => cases n <;> rfl
  | cons row rest ih =>
    obtain ⟨n, rfl⟩ := Nat.exists_eq_succ_of_ne_zero
      (Nat.pos_iff_ne_zero.mp (Nat.lt_of_lt_of_le (Nat.succ_pos _) h))
    rw [filterFirst, ih (Nat.le_of_succ_le_succ h)]
    rfl

theorem evalGroups_hits (tables : Sql.Tables.Lookup) (name : String) (rows : List TableRow) :
    evalGroups tables [⟨.expr .rowid, hitNumber⟩, ⟨.expr .document, hitDocument⟩]
      (rows.map fun row => [[⟨name, row⟩]]) = .ok (allRows rows) := by
  induction rows with
  | nil => rfl
  | cons row rest ih =>
    rw [List.map_cons, evalGroups, ih]
    rfl

/-- It is accepted. -/
theorem isAccepted_hitsStatement {index : String} (hname : isIndexName index = true)
    {r : SearchRequest} (h : AsksForAll r) : (hitsStatement index [] r).IsAccepted := by
  refine isAccepted_hitsStatement_iff.mpr ⟨?_, by decide, h.sort ▸ Nat.zero_le _⟩
  rw [← Bool.not_eq_true, List.contains_iff_mem, sql_hitsStatement h]
  simp only [String.toList_append, List.mem_append, not_or]
  exact ⟨⟨⟨by decide, zero_not_mem_identifier (zero_not_mem_of_isIndexName hname)⟩, by decide⟩,
    zero_not_mem_ofNat r.limit⟩

/-- The statement for all documents gives a row for each. -/
theorem run_hitsStatement {tables : Sql.Tables.Lookup} {index : String}
    (hname : isIndexName index = true) {rows : List TableRow} (hrows : tables index = some rows)
    {r : SearchRequest} (h : AsksForAll r) (hsize : rows.length ≤ r.limit)
    (hlimit : (r.limit : Int) ≤ Digits.int64Max) :
    Statement.run tables (hitsStatement index [] r) = .ok (allRows rows) := by
  have haccepted := isAccepted_hitsStatement hname h
  have hlarge : ¬ Digits.int64Max < (r.limit : Int) := not_lt.mpr hlimit
  have hsource : sourceRows tables (hitsStatement index [] r).source = .ok (index, rows) :=
    sourceRows_eq_ok (s := ⟨index, none⟩) hrows
  by_cases hnone : r.limit = 0
  · -- A limit of zero is large enough for an empty table only.
    obtain rfl : rows = [] := List.length_eq_zero_iff.mp (by omega)
    have hwindow : window (some r.limit) r.start = .ok ⟨0, some 0⟩ := by
      rw [window, if_neg hlarge, if_pos hnone]
    exact Statement.run_eq_ok.mpr ⟨haccepted, index, [], _, hsource, rfl, hwindow, rfl⟩
  · have hwindow : window (some r.limit) r.start = .ok ⟨0, some r.limit⟩ := by
      rw [window, if_neg hlarge, if_neg hnone, h.start]
      rfl
    refine Statement.run_eq_ok.mpr ⟨haccepted, index, rows, _, hsource, rfl, hwindow, ?_⟩
    have horder : (hitsStatement index [] r).order = [] := by
      rw [hitsStatement, h.sort]
      rfl
    have hplain : Statement.plainRows (hitsStatement index [] r) ⟨0, some r.limit⟩ index rows =
        .ok (rows.map fun row => [⟨index, row⟩]) := by
      rw [Statement.plainRows, horder]
      show (filterFirst index [] [] (0 + r.limit) rows).map _ = _
      rw [filterFirst_nil (by omega)]
      rfl
    unfold Statement.runOn
    rw [if_neg (by simpa using hnone), hplain]
    show evalGroups tables _ ((rows.map fun row => [⟨index, row⟩]).map fun scope => [scope]) = _
    rw [List.map_map]
    exact evalGroups_hits tables index rows

/-! ## Hits -/

/-- The hit of the row of a document is read back from its text, with its dates as the mapping
says. -/
theorem hitOfRow_document (index : String) (mapping : Option Template.Mapping) (d : TableRow) :
    hitOfRow index mapping [(hitNumber, .int d.id), (hitDocument, .text d.content)] =
      (((Json.ofText d.content).mapError fun e => Error.storage (.unreadableDocument d.id e)) >>=
        fun v => (readDocument mapping v).map fun source => ⟨index, d.id, source⟩) := by
  have hid : (Row.get? [(hitNumber, .int d.id), (hitDocument, .text d.content)] hitNumber).bind
      Cell.toInt? = some (d.id : Int) := rfl
  have hcontent : (Row.get? [(hitNumber, .int d.id), (hitDocument, .text d.content)]
      hitDocument).bind Cell.text? = some d.content := rfl
  rw [hitOfRow, hid, hcontent]
  rfl

/-- A row holds a document that is read back from its text. -/
def HoldsDocument (row : TableRow) (d : Json) : Prop := d.IsReadBack ∧ row.content = d.text

/-- The hit of such a row is the document under its number. -/
theorem hitOfRow_eq {index : String} {row : TableRow} {d : Json} (h : HoldsDocument row d) :
    hitOfRow index none [(hitNumber, .int row.id), (hitDocument, .text row.content)] =
      .ok ⟨index, row.id, d⟩ := by
  rw [hitOfRow_document, h.2, ofText_text h.1]
  rfl

theorem hitsOfRows_allRows {index : String} {rows : List TableRow}
    (h : ∀ row ∈ rows, ∃ d, HoldsDocument row d) :
    ∃ hits, hitsOfRows index none (allRows rows) = .ok hits ∧
      ∀ row ∈ rows, ∀ d, HoldsDocument row d → ⟨index, row.id, d⟩ ∈ hits := by
  induction rows with
  | nil => exact ⟨[], rfl, nofun⟩
  | cons row rest ih =>
    obtain ⟨hrow, hrest⟩ := List.forall_mem_cons.mp h
    obtain ⟨hits, hhits, hall⟩ := ih hrest
    obtain ⟨d, hd⟩ := hrow
    refine ⟨⟨index, row.id, d⟩ :: hits, ?_, ?_⟩
    · show hitsOfRows index none
        ([(hitNumber, .int row.id), (hitDocument, .text row.content)] :: allRows rest) = _
      rw [hitsOfRows, hitOfRow_eq hd, hhits]
      rfl
    · refine List.forall_mem_cons.mpr ⟨fun e he => ?_, fun r hr e he =>
        List.mem_cons_of_mem _ (hall r hr e he)⟩
      rw [hitOfRow_eq hd |>.symm.trans (hitOfRow_eq he) |> Except.ok.inj]
      exact List.mem_cons_self

/-- The hits of a search for all documents are made of all rows. -/
theorem search_rows {index : String} (hname : isIndexName index = true) {w : World Tables}
    (hthere : w.store.contains index = true) {rows : List TableRow}
    (hrows : w.store.rows? index = some rows) {r : SearchRequest} (h : AsksForAll r)
    (hsize : rows.length ≤ r.limit) (hlimit : (r.limit : Int) ≤ Digits.int64Max)
    {hits : List Hit}
    (hhits : hitsOfRows index (w.registry.lookup index) (allRows rows) = .ok hits) :
    onTables (search index r) w = (.ok ⟨hits, []⟩, w) := by
  have hplan : compile index r = .ok ⟨[], hitsStatement index [] r⟩ := by
    refine compile_eq_ok.mpr ⟨[], ?_, ?_, rfl⟩
    · rw [h.query]
      exact .nil
    · rw [h.aggs]
      exact .nil
  have hrun : onTables (call (.execute (hitsStatement index [] r))) w = (.ok (allRows rows), w) := by
    rw [onTables_call, Tables.perform, run_hitsStatement hname hrows h hsize hlimit]
    rfl
  have hexists : onTables (call (.tableExists index)) w = (.ok true, w) := by
    rw [← hthere]
    rfl
  unfold search
  rw [onTables_bind_ok (v := w) (a := ()) (by rw [onTables_orFail, checkName_eq_ok.mpr hname]),
    hplan, onTables_bind_ok (onTables_orFail w _), onTables_bind_ok hexists]
  simp only [Bool.not_true, Bool.false_eq_true, ↓reduceIte]
  have hnone : onTables (runAggregations []) w = (.ok [], w) := rfl
  rw [onTables_bind_ok (onTables_registry w), onTables_bind_ok hnone, onTables_bind_ok hrun, hhits,
    onTables_bind_ok (onTables_orFail w _), onTables_pure]

/-- A search for all documents of an index finds each under its number. -/
theorem search_all {index : String} (hname : isIndexName index = true) {w : World Tables}
    (hthere : w.store.contains index = true) (htemplates : w.registry.lookup index = none)
    {rows : List TableRow} (hrows : w.store.rows? index = some rows)
    (hdocuments : ∀ row ∈ rows, ∃ d, HoldsDocument row d) {r : SearchRequest} (h : AsksForAll r)
    (hsize : rows.length ≤ r.limit) (hlimit : (r.limit : Int) ≤ Digits.int64Max) :
    ∃ response, onTables (search index r) w = (.ok response, w) ∧
      ∀ row ∈ rows, ∀ d, HoldsDocument row d → ⟨index, row.id, d⟩ ∈ response.hits := by
  obtain ⟨hits, hhits, hall⟩ := hitsOfRows_allRows hdocuments
  rw [← htemplates] at hhits
  exact ⟨⟨hits, []⟩, search_rows hname hthere hrows h hsize hlimit hhits, hall⟩

end Quarry.Engine
