/-
# Buckets of plans

What the statements for buckets give when they are run.

* `IsBucketRow` — what a row of the result says of the documents of its bucket.
* `Supported` — what has to be so for a statement to give a result.
* `bucketNode_group` — a group of rows has all documents of one bucket.
* `compile_bucketRows` — the numbers of a bucket are those of its documents exactly when its key is
  not missing, or when there is no number anyway.
-/
import Quarry.Proofs.Plan.Members
import Quarry.Proofs.Result.Planned
import Quarry.Proofs.Sql.Runs

namespace Quarry.Plan

open Quarry.Outcome Quarry.Request Quarry.Result Quarry.Sql Quarry.Text

/-! ## Rows of buckets -/

/-- A row says of the documents of the bucket of a key what it should, as long as that key is not
missing: a bucket of missing keys has no numbers, whatever its documents are. -/
structure IsBucketRow (query : Option Query) (field : String) (aggs : Named Aggregate)
    (rows : List TableRow) (row : Row) (k : Cell) : Prop where
  /-- The key is the value of the first document of the bucket. -/
  key : row.get? (groupName 0) = some k
  first : ∃ d ds, counted query field (sortKey k) rows = d :: ds ∧
    fieldCell d.content field = .ok k
  count : row.get? (functionName 0) = some (.int (counted query field (sortKey k) rows).length)
  /-- The number for an aggregation is the one over the documents of the bucket exactly when the key
  is not missing or there is none over them either. -/
  number : ∀ i label a kind, aggs[i]? = some (label, a) → a.kind = .ok kind →
    ∃ c, row.get? (functionName (i + 1)) = some c ∧
      (metricOver kind (counted query field (sortKey k) rows) = .ok c ↔
        k ≠ .null ∨ metricOver kind (counted query field (sortKey k) rows) = .ok .null)
  /-- For missing keys there is never a number. -/
  missing : k = .null → ∀ i < aggs.length, row.get? (functionName (i + 1)) = some .null

/-- What has to be so for the statement for buckets to give a result: the documents can be read, the
paths of fields have no mistakes, and the statement is accepted. -/
structure Supported (query : Option Query) (field : String) (aggs : Named Aggregate)
    (rows : List TableRow) (s : Statement) : Prop where
  accepted : s.IsAccepted
  limit : ∀ n ∈ s.limit, (n : Int) ≤ Digits.int64Max
  documents : ∀ d ∈ rows, IsDocument d.content
  query : ∀ a ∈ leaves query, FieldAccepted a.field
  group : FieldAccepted field
  numbers : ∀ e ∈ aggs, ∀ kind, e.2.kind = .ok kind → FieldAccepted kind.field

/-! ## Columns -/

section

variable {index label : String} {ps : List Expr} {d : Definition}
  {order : List (OrderKey Expr SortDirection)} {limit : Option Nat}
  {subs : List (Definition × Subselect)}

/-- The grouping column is the grouping field. -/
theorem resolve_groupName :
    Statement.resolve (bucketNode index ps label d order limit subs).statement.columns
      (.column (groupName 0)) = .field none d.field := by
  have hself : (groupName 0 == groupName 0) = true := beq_self_eq_true _
  simp only [Statement.resolve, bucketNode, List.find?_cons, hself]

/-- The first computed column is the count. -/
theorem resolve_functionName :
    Statement.resolve (bucketNode index ps label d order limit subs).statement.columns
      (.column (functionName 0)) = .count := by
  have hother : (groupName 0 == functionName 0) = false :=
    beq_eq_false_iff_ne.mpr (groupName_ne_functionName 0 0)
  have hself : (functionName 0 == functionName 0) = true := beq_self_eq_true _
  simp only [Statement.resolve, bucketNode, List.find?_cons, hother, hself]

variable (index label ps d order limit subs) in
/-- Rows are grouped by the grouping field. -/
theorem groupOrder_bucketNode :
    (bucketNode index ps label d order limit subs).statement.groupOrder =
      [⟨.field none d.field, .asc⟩] := by
  rw [Statement.groupOrder]
  show [OrderKey.mk (Statement.resolve _ _) SortDirection.asc] = _
  rw [resolve_groupName]

/-- The name by which a statement for buckets knows its table. -/
def bucketTable (index : String) (subs : List (Definition × Subselect)) : String :=
  if subs.isEmpty then index else outerName

/-- With numbers, the table is known by a name of its own. -/
theorem bucketTable_eq {i : Nat} {x : Definition × Subselect} (hx : subs[i]? = some x) :
    bucketTable index subs = outerName := by
  cases subs with
  | nil => cases hx
  | cons y rest => rfl

/-- The documents of a statement for buckets are those of the index. -/
theorem sourceRows_bucketNode {tables : Tables.Lookup} {rows : List TableRow}
    (hrows : tables index = some rows) :
    sourceRows tables (bucketNode index ps label d order limit subs).statement.source =
      .ok (bucketTable index subs, rows) := by
  have hknown : Source.knownAs ⟨index, if subs.isEmpty then none else some outerName⟩ =
      bucketTable index subs := by
    cases subs <;> rfl
  rw [← hknown]
  exact sourceRows_eq_ok hrows

/-- The statements for numbers read the documents of the index too. -/
theorem checkInner_bucketNode {tables : Tables.Lookup} {rows : List TableRow}
    (hrows : tables index = some rows) {field : String} {aggs : Named Aggregate}
    (hsubs : List.Forall₂ (PlannedSub index ps field) aggs subs) :
    Statement.checkInner tables (bucketNode index ps label d order limit subs).statement.columns =
      .ok () := by
  refine Statement.checkInner_total fun c hc inner hinner => ?_
  rcases mem_columns_bucketNode.mp hc with rfl | rfl | ⟨i, x, hx, rfl⟩
  · cases hinner
  · cases hinner
  · cases hinner
    obtain ⟨agg, -, hplanned⟩ := exists_of_mem_right hsubs (List.mem_of_getElem? hx)
    cases hplanned
    exact ⟨⟨_, sourceRows_eq_ok hrows⟩, rfl⟩

end

/-- A value of a field on a row is its one sort key. -/
theorem evalKeys_field {field name : String} {d : TableRow} {keys : List SortKey} :
    evalKeys (Expr.eval [⟨name, d⟩]) [⟨.field none field, SortDirection.asc⟩] = .ok keys ↔
      ∃ key, keys = [key] ∧ HasKey field key d := by
  rw [evalKeys_eq_ok, List.forall₂_cons_left_iff]
  constructor
  · rintro ⟨key, rest, hkey, hrest, rfl⟩
    rw [List.forall₂_nil_left_iff.mp hrest]
    exact ⟨key, rfl, hkey⟩
  · rintro ⟨key, rfl, hkey⟩
    exact ⟨key, [], hkey, .nil, rfl⟩

/-! ## Groups -/

section

variable {index label : String} {query : Option Query} {ps : List Expr}
  (hps : List.Forall₂ (fun (a : Atom) e => a.expr = .ok e) (leaves query) ps)
  {rows : List TableRow} {d : Definition} {order : List (OrderKey Expr SortDirection)}
  {limit : Option Nat} {subs : List (Definition × Subselect)} {name : String}

/-- A group of rows has all documents of one bucket. -/
structure IsGroup (query : Option Query) (field name : String) (rows : List TableRow)
    (group : List Scope) (k : Cell) (first : TableRow) : Prop where
  value : fieldCell first.content field = .ok k
  members : ∃ ds, counted query field (sortKey k) rows = first :: ds
  scopes : group = (counted query field (sortKey k) rows).map fun d => [⟨name, d⟩]

include hps

open Classical in
/-- Of the rows found, those with a key are those of the documents of its bucket. -/
theorem filter_found (name field : String) (key : SortKey) (rows : List TableRow) :
    (found name [] ps rows).filter
        (fun scope => evalKeys (Expr.eval scope) [⟨.field none field, SortDirection.asc⟩] = .ok [key]) =
      (counted query field key rows).map fun r => [⟨name, r⟩] := by
  rw [found, List.filter_map, List.filter_filter]
  refine congrArg _ (List.filter_congr fun r _ => ?_)
  have hkeyOf : evalKeys (Expr.eval [⟨name, r⟩]) [⟨.field none field, SortDirection.asc⟩] =
      .ok [key] ↔ HasKey field key r := by
    rw [evalKeys_field]
    simp
  rw [Bool.eq_iff_iff, Bool.and_eq_true, passes_iff, holdsAll_eq_true, holdsAll_eq_true_iff hps]
  simp only [Function.comp_apply, decide_eq_true_eq, hkeyOf]
  exact and_comm

open Classical in
/-- Rows found that have their keys in common are those of the documents of one bucket. -/
theorem exists_key_of_filter {field : String} {keys : List SortKey} {group : List Scope}
    (hne : group ≠ []) (h : group = (found name [] ps rows).filter
      fun scope => evalKeys (Expr.eval scope) [⟨.field none field, SortDirection.asc⟩] = .ok keys) :
    ∃ key, keys = [key] ∧ group = (counted query field key rows).map fun r => [⟨name, r⟩] := by
  obtain ⟨scope, hscope⟩ := List.exists_mem_of_ne_nil group hne
  rw [h] at hscope
  obtain ⟨hfound, hkeys⟩ := List.mem_filter.mp hscope
  obtain ⟨r, -, rfl⟩ := List.mem_map.mp hfound
  obtain ⟨key, rfl, -⟩ := evalKeys_field.mp (of_decide_eq_true hkeys)
  exact ⟨key, rfl, h.trans (filter_found hps name field key rows)⟩

open Classical in
/-- Every group of rows of a statement for buckets has all documents of one bucket. -/
theorem bucketNode_group {scopes : List Scope} {groups : List (List Scope)} {group : List Scope}
    (hscopes : filterRows name [] ps rows = .ok scopes)
    (hgroups : Statement.groupRows (bucketNode index ps label d order limit subs).statement scopes =
      .ok groups)
    (hgroup : group ∈ groups) : ∃ k first, IsGroup query d.field name rows group k first := by
  obtain ⟨hne, keys, hfilter⟩ := Statement.mem_groupRows hgroups hgroup
  obtain ⟨-, rfl⟩ := filterRows_eq_ok.mp hscopes
  rw [groupOrder_bucketNode] at hfilter
  obtain ⟨key, -, hkey⟩ := exists_key_of_filter hps hne hfilter
  cases hcounted : counted query d.field key rows with
  | nil =>
    rw [hkey, hcounted] at hne
    exact absurd rfl hne
  | cons first ds =>
    have hmem : first ∈ counted query d.field key rows := by
      rw [hcounted]
      exact List.mem_cons_self
    obtain ⟨-, k, hk, hsort⟩ := of_decide_eq_true (List.mem_filter.mp hmem).2
    refine ⟨k, first, hk, ⟨ds, ?_⟩, ?_⟩
    · rw [hsort, hcounted]
    · rw [hsort]
      exact hkey

variable (index label ps d order limit subs name) in
omit hps in
/-- The rows found can be grouped if the grouping field can be read. -/
theorem groupRows_bucketNode_total (hdocuments : ∀ r ∈ rows, IsDocument r.content)
    (hfield : FieldAccepted d.field) :
    ∃ groups, Statement.groupRows (bucketNode index ps label d order limit subs).statement
      (found name [] ps rows) = .ok groups := by
  refine Statement.groupRows_total fun scope hscope e he => ?_
  obtain ⟨r, hr, rfl⟩ := List.mem_map.mp hscope
  obtain rfl := List.mem_singleton.mp he
  rw [resolve_groupName]
  exact fieldCell_total (hdocuments r (List.mem_of_mem_filter hr)) hfield

/-! ## Rows -/

variable (hname : sameName index outerName = false) {tables : Tables.Lookup}
  (hrows : tables index = some rows) {kind : AggregateKind} {aggs : Named Aggregate}
  (hsubs : List.Forall₂ (PlannedSub index ps kind.field) aggs subs) {group : List Scope} {k : Cell}
  {first : TableRow}
  (hgroup : IsGroup query kind.field (bucketTable index subs) rows group k first)

include hname hrows hsubs hgroup

/-- The number at a place is computed from the documents of the bucket if their key is not missing,
and from no documents otherwise. -/
theorem subColumn_eval {i : Nat} {agg : String × Aggregate} (hagg : aggs[i]? = some agg)
    {sub : AggregateKind} (hsub : agg.2.kind = .ok sub) {x : Definition × Subselect}
    (hx : subs[i]? = some x) {c : Cell}
    (h : (Output.subselect x.2).evalGroup tables group = .ok c) :
    metricOver sub (if k = .null then [] else counted query kind.field (sortKey k) rows) =
      .ok c := by
  obtain ⟨y, hy, hplanned⟩ := getElem?_of_forall₂ hsubs hagg
  rw [hx] at hy
  cases hy
  cases hplanned with
  | intro hkind he _ =>
    rw [hkind] at hsub
    cases hsub
    obtain ⟨ds, hds⟩ := hgroup.members
    have heval : Subselect.eval tables (group.head?.getD []) _ = .ok c := h
    rw [hgroup.scopes, hds, bucketTable_eq hx] at heval
    exact metricSubselect_eval hname hgroup.value hps hrows he heval

/-- It stands in a row over the group under the name of its column. -/
theorem bucketNode_number {row : Row}
    (h : evalColumns tables group
      (bucketNode index ps label (.ofKind kind) order limit subs).statement.columns = .ok row)
    {i : Nat} {sublabel : String} {a : Aggregate} (ha : aggs[i]? = some (sublabel, a))
    {sub : AggregateKind} (hsub : a.kind = .ok sub) :
    ∃ c, row.get? (functionName (i + 1)) = some c ∧
      metricOver sub (if k = .null then [] else counted query kind.field (sortKey k) rows) =
        .ok c := by
  obtain ⟨x, hx, -⟩ := getElem?_of_forall₂ hsubs ha
  obtain ⟨c, hc, hget⟩ := Statement.get?_evalColumns h (nodup_columns_bucketNode ..)
    (mem_columns_bucketNode.mpr (.inr (.inr ⟨i, x, hx, rfl⟩)))
  exact ⟨c, hget, subColumn_eval hps hname hrows hsubs hgroup ha hsub hx hc⟩

/-- A row over a group says of its documents what it should. -/
theorem bucketNode_row {row : Row}
    (h : evalColumns tables group
      (bucketNode index ps label (.ofKind kind) order limit subs).statement.columns = .ok row) :
    IsBucketRow query kind.field aggs rows row k := by
  have hnodup := nodup_columns_bucketNode index ps label (.ofKind kind) order limit subs
  obtain ⟨ds, hds⟩ := hgroup.members
  refine ⟨?_, ⟨first, ds, hds, hgroup.value⟩, ?_, ?_, ?_⟩
  · obtain ⟨x, hx, hget⟩ := Statement.get?_evalColumns h hnodup
      (mem_columns_bucketNode.mpr (.inl rfl))
    have hfirst : Expr.evalGroup group (.field none kind.field) = .ok x := hx
    rw [hgroup.scopes, hds] at hfirst
    cases hgroup.value.symm.trans hfirst
    exact hget
  · obtain ⟨x, hx, hget⟩ := Statement.get?_evalColumns h hnodup
      (mem_columns_bucketNode.mpr (.inr (.inl rfl)))
    have hlength : group.length = (counted query kind.field (sortKey k) rows).length := by
      rw [hgroup.scopes, List.length_map]
    cases hx
    rw [hlength] at hget
    exact hget
  · intro i label a sub ha hsub
    obtain ⟨c, hget, hc⟩ := bucketNode_number hps hname hrows hsubs hgroup h ha hsub
    refine ⟨c, hget, ?_⟩
    -- For a missing key the number is the one over no documents.
    by_cases hnull : k = .null
    · rw [if_pos hnull, metricOver_nil] at hc
      cases hc
      exact ⟨fun hover => .inr hover, fun hor => hor.resolve_left (absurd hnull)⟩
    · rw [if_neg hnull] at hc
      exact ⟨fun _ => .inl hnull, fun _ => hc⟩
  · intro hnull i hi
    obtain ⟨x, hx, hplanned⟩ := getElem?_of_forall₂ hsubs (List.getElem?_eq_getElem hi)
    generalize haggs : aggs[i] = agg at hplanned
    cases hplanned with
    | @intro label a sub e hkind _ _ =>
      have ha : aggs[i]? = some (label, a) := by rw [List.getElem?_eq_getElem hi, haggs]
      obtain ⟨c, hget, hc⟩ := bucketNode_number hps hname hrows hsubs hgroup h ha hkind
      rw [if_pos hnull, metricOver_nil] at hc
      cases hc
      exact hget

/-! ## Results -/

omit hgroup in
/-- Every row of the result is one of a bucket. -/
theorem bucketNode_rows {result : List Row}
    (h : (bucketNode index ps label (.ofKind kind) order limit subs).statement.run tables =
      .ok result) {row : Row} (hrow : row ∈ result) :
    ∃ k, IsBucketRow query kind.field aggs rows row k := by
  obtain ⟨-, name, found, w, hsource, -, -, hrun⟩ := Statement.run_eq_ok.mp h
  rw [sourceRows_bucketNode hrows] at hsource
  cases hsource
  obtain ⟨scopes, groups, group, hscopes, hgroups, hmem, hcolumns⟩ :=
    Statement.mem_runOn hrun rfl hrow
  obtain ⟨k, first, hgroup⟩ := bucketNode_group hps hscopes hgroups hmem
  exact ⟨k, bucketNode_row hps hname hrows hsubs hgroup hcolumns⟩

variable (hs : Supported query kind.field aggs rows
  (bucketNode index ps label (.ofKind kind) kind.bucketOrder kind.bucketLimit subs).statement)

include hs

omit hname in
/-- The columns of a supported statement have values over a group. -/
theorem columns_total : ∀ c ∈ (bucketNode index ps label (.ofKind kind) kind.bucketOrder
      kind.bucketLimit subs).statement.columns,
    ∃ x, c.expr.evalGroup tables group = .ok x := by
  obtain ⟨ds, hds⟩ := hgroup.members
  intro c hc
  rcases mem_columns_bucketNode.mp hc with rfl | rfl | ⟨i, x, hx, rfl⟩
  · refine ⟨k, ?_⟩
    rw [hgroup.scopes, hds]
    exact hgroup.value
  · exact ⟨.int group.length, rfl⟩
  · obtain ⟨agg, hagg, hplanned⟩ := exists_of_mem_right hsubs (List.mem_of_getElem? hx)
    cases hplanned with
    | @intro sublabel a sub e hkind he _ =>
      show ∃ x, Subselect.eval tables (group.head?.getD [])
        (metricSubselect index ps kind.field e) = .ok x
      rw [hgroup.scopes, hds, bucketTable_eq hx]
      have hfirst : first ∈ rows := by
        have hmem : first ∈ counted query kind.field (sortKey k) rows := hds ▸ List.mem_cons_self
        exact List.mem_of_mem_filter hmem
      exact metricSubselect_total hps hrows he hs.documents (hs.documents first hfirst) hs.query
        hs.group (hs.numbers _ hagg sub hkind)

variable (label) in
omit hname hgroup in
/-- A supported statement for buckets gives a result. -/
theorem bucketNode_total :
    ∃ result, (bucketNode index ps label (.ofKind kind) kind.bucketOrder kind.bucketLimit
      subs).statement.run tables = .ok result := by
  have htested : ∀ r ∈ rows, ∃ b, holdsAll [⟨bucketTable index subs, r⟩] ps = .ok b := fun r hr =>
    holdsAll_total (predicates_total hps (hs.documents r hr) hs.query (bucketTable index subs) [])
  -- Every stage has a value: the rows, their groups, the order of the groups and their columns.
  have hscopes := filterRows_eq_ok.mpr ⟨htested, rfl⟩
  obtain ⟨groups, hgroups⟩ := groupRows_bucketNode_total index label ps (.ofKind kind)
    kind.bucketOrder kind.bucketLimit subs (bucketTable index subs) hs.documents hs.group
  have hgroup : ∀ group ∈ groups, ∃ k first,
      IsGroup query kind.field (bucketTable index subs) rows group k first :=
    fun group hmem => bucketNode_group hps hscopes hgroups hmem
  have horder : ∀ group ∈ groups, ∀ o ∈ kind.bucketOrder, ∃ c, (Statement.resolve (bucketNode index
      ps label (.ofKind kind) kind.bucketOrder kind.bucketLimit subs).statement.columns
        o.expr).evalGroup group = .ok c := by
    intro group hmem o ho
    obtain ⟨k, first, hgroup⟩ := hgroup group hmem
    obtain ⟨ds, hds⟩ := hgroup.members
    rcases expr_of_mem_bucketOrder ho with hexpr | hexpr
    · rw [hexpr, resolve_functionName]
      exact ⟨.int group.length, rfl⟩
    · rw [hexpr, resolve_groupName, hgroup.scopes, hds]
      exact ⟨k, hgroup.value⟩
  have hcolumns : ∀ group ∈ groups, ∀ c ∈ (bucketNode index ps label (.ofKind kind)
      kind.bucketOrder kind.bucketLimit subs).statement.columns,
        ∃ x, c.expr.evalGroup tables group = .ok x := by
    intro group hmem
    obtain ⟨k, first, hgroup⟩ := hgroup group hmem
    exact columns_total hps hrows hsubs hgroup hs
  have hoffset : ((none : Option Nat).getD 0 : Int) ≤ Digits.int64Max := by decide
  obtain ⟨w, hw⟩ := Statement.window_total hs.limit hoffset
  obtain ⟨result, hresult⟩ := Statement.runOn_total (w := w) rfl hscopes hgroups horder hcolumns
  exact ⟨result, Statement.run_eq_ok.mpr ⟨hs.accepted, bucketTable index subs, rows, w,
    sourceRows_bucketNode hrows, checkInner_bucketNode hrows hsubs, hw, hresult⟩⟩

end

/-- Every row of the buckets of a plan says of the documents of its bucket what it should, except
that there are no numbers for missing keys. -/
theorem compile_bucketRows {index : String} {r : SearchRequest} {p : Plan}
    (h : compile index r = .ok p) (hname : sameName index outerName = false)
    {tables : Tables.Lookup} {rows : List TableRow} (hrows : tables index = some rows) {i : Nat}
    {label : String} {a : Aggregate} (ha : r.aggs[i]? = some (label, a)) {kind : AggregateKind}
    (hkind : a.kind = .ok kind) (hbucket : kind.type.isBucket = true) :
    ∃ n, p.aggregations[i]? = some n ∧
      (Supported r.query kind.field a.aggs rows n.statement →
        ∃ result, n.statement.run tables = .ok result) ∧
      ∀ result, n.statement.run tables = .ok result → ∀ row ∈ result,
        ∃ k, IsBucketRow r.query kind.field a.aggs rows row k := by
  obtain ⟨ps, hplan⟩ := compile_eq_ok.mp h
  obtain ⟨n, hn, hplanned⟩ := getElem?_of_forall₂ hplan.aggregations ha
  obtain ⟨subs, hsubs, rfl⟩ := hplanned.exists_buckets hkind hbucket
  refine ⟨_, hn, fun hs => bucketNode_total _ hplan.predicates hrows hsubs hs, ?_⟩
  intro result hresult row hrow
  exact bucketNode_rows hplan.predicates hname hrows hsubs hresult hrow

/-! ## An example -/

/-- A request for the slowest document of each service. -/
def slowestRequest : SearchRequest where
  aggs :=
    [("services",
      { terms := some { field := "service" }
        aggs := [("slowest", { max := some { field := "latency" } })] })]

/-- Two documents of a service, and one of none between them. -/
def slowestRows : List TableRow :=
  [⟨1, "\x7b\"latency\":5,\"service\":\"a\"\x7d"⟩, ⟨2, "\x7b\"latency\":7\x7d"⟩,
    ⟨3, "\x7b\"latency\":9,\"service\":\"a\"\x7d"⟩]

/-- An index of these documents, and no other one. -/
def slowestTables : Tables.Lookup := fun name => if name = "logs" then some slowestRows else none

/-- The buckets of the example: one of the service, and one of the document without it. -/
def slowestResult : List Row :=
  [[(groupName 0, .text "a"), (functionName 0, .int 2), (functionName 1, .int 9)],
    [(groupName 0, .null), (functionName 0, .int 1), (functionName 1, .null)]]

theorem run_slowest : ∃ p n, compile "logs" slowestRequest = .ok p ∧ p.aggregations = [n] ∧
    n.statement.run slowestTables = .ok slowestResult :=
  ⟨_, _, rfl, rfl, by decide +kernel⟩

/-- The rows of the example are those of its buckets. -/
theorem compile_bucketRows_example : ∃ p n, compile "logs" slowestRequest = .ok p ∧
    p.aggregations = [n] ∧ n.statement.run slowestTables = .ok slowestResult ∧
    ∀ row ∈ slowestResult, ∃ k, IsBucketRow none "service"
      [("slowest", { max := some { field := "latency" } })] slowestRows row k := by
  obtain ⟨p, n, hp, hn, hrun⟩ := run_slowest
  have hname : sameName "logs" outerName = false := by decide
  have hrows : slowestTables "logs" = some slowestRows := rfl
  have ha : slowestRequest.aggs[0]? = some ("services",
      { terms := some { field := "service" }
        aggs := [("slowest", { max := some { field := "latency" } })] }) := rfl
  obtain ⟨m, hm, -, hall⟩ := compile_bucketRows hp hname hrows ha rfl rfl
  rw [hn] at hm
  cases hm
  exact ⟨p, n, hp, hn, hrun, hall slowestResult hrun⟩

/-- The bucket of the document without a service has no number, although there is one over it. -/
theorem slowest_of_missing : ∃ p n row, compile "logs" slowestRequest = .ok p ∧
    p.aggregations = [n] ∧ n.statement.run slowestTables = .ok slowestResult ∧
    row ∈ slowestResult ∧ row.get? (groupName 0) = some .null ∧
    row.get? (functionName 0) = some (.int (counted none "service" .null slowestRows).length) ∧
    row.get? (functionName 1) = some .null ∧
    metricOver (.max { field := "latency" }) (counted none "service" .null slowestRows) =
      .ok (.int 7) := by
  have hkey : ∀ d, fieldCell d.content "service" = .ok (.text "a") →
      ¬ (Satisfies none d ∧ HasKey "service" .null d) := by
    rintro d hd ⟨-, c, hc, hnull⟩
    rw [hd] at hc
    cases hc
    cases hnull
  have hmissing : Satisfies none ⟨2, "\x7b\"latency\":7\x7d"⟩ ∧
      HasKey "service" .null ⟨2, "\x7b\"latency\":7\x7d"⟩ :=
    ⟨trivial, .null, by decide +kernel, rfl⟩
  have hcounted : counted none "service" .null slowestRows =
      [⟨2, "\x7b\"latency\":7\x7d"⟩] := by
    unfold counted slowestRows
    rw [List.filter_cons_of_neg (by simpa using hkey _ (by decide +kernel)),
      List.filter_cons_of_pos (by simpa using hmissing),
      List.filter_cons_of_neg (by simpa using hkey _ (by decide +kernel)), List.filter_nil]
  obtain ⟨p, n, hp, hn, hrun⟩ := run_slowest
  refine ⟨p, n, _, hp, hn, hrun, List.mem_cons_of_mem _ List.mem_cons_self, ?_, ?_, ?_, ?_⟩
  · decide +kernel
  · rw [hcounted]
    decide +kernel
  · decide +kernel
  · rw [hcounted]
    decide +kernel

end Quarry.Plan
