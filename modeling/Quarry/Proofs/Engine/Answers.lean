/-
# Answers over tables

What a search over tables answers, and when it does.

* `search_onTables_eq_ok` — a search has a response when each of its statements has a result.
* `hitsStatement_run_eq_ok` — the result of the statement for the hits, and when it has one.
* `Answerable`, `search_total` — what has to be so for a search to have a response.
* `search_partitions` — the buckets of a response divide the documents that the query asks for.
-/
import Quarry.Proofs.Engine.Searches
import Quarry.Proofs.Plan.Listing
import Quarry.Proofs.Plan.Numbers

namespace Quarry

open Quarry.Engine.Program (World)
open Quarry.Outcome Quarry.Plan Quarry.Request Quarry.Result Quarry.Sql Quarry.Store
open Quarry.Store.Tables Quarry.Text

/-! ## Parts of searches -/

namespace Engine

section

variable {α β : Type} {w w' : World Tables}

/-- An activity ends well when the one before it does, and goes on to. -/
theorem onTables_bind_eq_ok {p : Engine α} {f : α → Engine β} {b : β} :
    onTables (p >>= f) w = (.ok b, w') ↔
      ∃ a v, onTables p w = (.ok a, v) ∧ onTables (f a) v = (.ok b, w') := by
  rw [onTables_bind]
  constructor
  · intro h
    generalize onTables p w = outcome at h ⊢
    obtain ⟨x, v⟩ := outcome
    cases x with
    | error e => cases h
    | ok a => exact ⟨a, v, rfl, h⟩
  · rintro ⟨a, v, hp, hf⟩
    rw [hp]
    exact hf

theorem onTables_orFail_eq_ok {x : Except Error α} {a : α} :
    onTables (orFail x) w = (.ok a, w') ↔ x = .ok a ∧ w = w' := by
  rw [onTables_orFail, Prod.mk.injEq]

/-- A statement that has a result leaves the tables. -/
theorem onTables_execute_eq_ok {s : Statement} {rows : List Row} :
    onTables (call (.execute s)) w = (.ok rows, w') ↔ s.run w.store.rows? = .ok rows ∧ w = w' := by
  have hcall : onTables (call (.execute s)) w =
      ((report (s.run w.store.rows?)).mapError .storage, w) := rfl
  rw [hcall, Prod.mk.injEq, mapError_eq_ok, report, mapError_eq_ok]

/-- The result of an aggregation over tables. -/
def HasResult (tables : Sql.Tables.Lookup) (n : AggregationNode) (result : String × Aggregation) :
    Prop :=
  ∃ rows a, n.statement.run tables = .ok rows ∧ assembleAggregation n rows = .ok a ∧
    result = (n.label, a)

/-- Aggregations have results when each has one. -/
theorem runAggregations_onTables_eq_ok {nodes : List AggregationNode}
    {results : List (String × Aggregation)} :
    onTables (runAggregations nodes) w = (.ok results, w') ↔
      List.Forall₂ (HasResult w.store.rows?) nodes results ∧ w = w' := by
  induction nodes generalizing results w' with
  | nil =>
    rw [runAggregations, onTables_pure, List.forall₂_nil_left_iff, Prod.mk.injEq, Except.ok.injEq,
      eq_comm (b := results)]
  | cons n rest ih =>
    rw [runAggregations, onTables_bind_eq_ok]
    constructor
    · rintro ⟨rows, v, hrows, hmore⟩
      obtain ⟨hrun, rfl⟩ := onTables_execute_eq_ok.mp hrows
      obtain ⟨a, v', ha, hafter⟩ := onTables_bind_eq_ok.mp hmore
      obtain ⟨hassemble, rfl⟩ := onTables_orFail_eq_ok.mp ha
      obtain ⟨others, v'', hothers, hend⟩ := onTables_bind_eq_ok.mp hafter
      obtain ⟨hrest, rfl⟩ := ih.mp hothers
      cases hend
      exact ⟨.cons ⟨rows, a, hrun, mapError_eq_ok.mp hassemble, rfl⟩ hrest, rfl⟩
    · rintro ⟨h, rfl⟩
      obtain ⟨result, others, ⟨rows, a, hrun, hassemble, rfl⟩, hrest, rfl⟩ :=
        List.forall₂_cons_left_iff.mp h
      refine ⟨rows, _, onTables_execute_eq_ok.mpr ⟨hrun, rfl⟩, ?_⟩
      refine onTables_bind_eq_ok.mpr ⟨a, _, onTables_orFail_eq_ok.mpr
        ⟨mapError_eq_ok.mpr hassemble, rfl⟩, ?_⟩
      exact onTables_bind_eq_ok.mpr ⟨others, _, ih.mpr ⟨hrest, rfl⟩, rfl⟩

/-- A search has a response when each of its statements has a result. -/
theorem search_onTables_eq_ok {index : String} {r : SearchRequest} {response : SearchResponse} :
    onTables (search index r) w = (.ok response, w') ↔
      isIndexName index = true ∧ w.store.contains index = true ∧ w = w' ∧
        ∃ p, compile index r = .ok p ∧
          List.Forall₂ (HasResult w.store.rows?) p.aggregations response.aggregations ∧
          ∃ rows, p.hits.run w.store.rows? = .ok rows ∧
            hitsOfRows index (w.registry.lookup index) rows = .ok response.hits := by
  unfold search
  constructor
  · intro h
    obtain ⟨⟨⟩, v₁, hname, h₁⟩ := onTables_bind_eq_ok.mp h
    obtain ⟨hname', rfl⟩ := onTables_orFail_eq_ok.mp hname
    obtain ⟨p, v₂, hplan, h₂⟩ := onTables_bind_eq_ok.mp h₁
    obtain ⟨hplan', rfl⟩ := onTables_orFail_eq_ok.mp hplan
    obtain ⟨there, v₃, hthere, h₃⟩ := onTables_bind_eq_ok.mp h₂
    cases hthere
    cases hcontains : w.store.contains index with
    | false =>
      rw [hcontains] at h₃
      cases h₃
    | true =>
      rw [hcontains] at h₃
      obtain ⟨templates, v₄, htemplates, h₄⟩ := onTables_bind_eq_ok.mp h₃
      cases htemplates
      obtain ⟨results, v₅, hresults, h₅⟩ := onTables_bind_eq_ok.mp h₄
      obtain ⟨hresults', rfl⟩ := runAggregations_onTables_eq_ok.mp hresults
      obtain ⟨rows, v₆, hrows, h₆⟩ := onTables_bind_eq_ok.mp h₅
      obtain ⟨hrows', rfl⟩ := onTables_execute_eq_ok.mp hrows
      obtain ⟨hits, v₇, hhits, h₇⟩ := onTables_bind_eq_ok.mp h₆
      obtain ⟨hhits', rfl⟩ := onTables_orFail_eq_ok.mp hhits
      cases h₇
      exact ⟨checkName_eq_ok.mp hname', rfl, rfl, p, hplan', hresults', rows, hrows', hhits'⟩
  · rintro ⟨hname, hcontains, rfl, p, hplan, hresults, rows, hrows, hhits⟩
    refine onTables_bind_eq_ok.mpr ⟨(), w, onTables_orFail_eq_ok.mpr
      ⟨checkName_eq_ok.mpr hname, rfl⟩, ?_⟩
    refine onTables_bind_eq_ok.mpr ⟨p, w, onTables_orFail_eq_ok.mpr ⟨hplan, rfl⟩, ?_⟩
    refine onTables_bind_eq_ok.mpr ⟨true, w, by rw [← hcontains]; rfl, ?_⟩
    refine onTables_bind_eq_ok.mpr ⟨w.registry, w, rfl, ?_⟩
    refine onTables_bind_eq_ok.mpr ⟨response.aggregations, w,
      runAggregations_onTables_eq_ok.mpr ⟨hresults, rfl⟩, ?_⟩
    refine onTables_bind_eq_ok.mpr ⟨rows, w, onTables_execute_eq_ok.mpr ⟨hrows, rfl⟩, ?_⟩
    exact onTables_bind_eq_ok.mpr ⟨response.hits, w, onTables_orFail_eq_ok.mpr ⟨hhits, rfl⟩, rfl⟩

end

end Engine

/-! ## The statement for the hits -/

namespace Plan

section

variable {index : String} {query : Option Query} {ps : List Expr}
  (hps : List.Forall₂ (fun (a : Atom) e => a.expr = .ok e) (leaves query) ps)
  {tables : Sql.Tables.Lookup} {rows : List TableRow} (hrows : tables index = some rows)
  (hdocuments : ∀ d ∈ rows, IsDocument d.content)
  (hquery : ∀ a ∈ leaves query, FieldAccepted a.field)
  {r : SearchRequest} (hsort : ∀ e ∈ r.sort, FieldAccepted e.field)

include hps hrows hdocuments hquery hsort

omit hrows in
/-- The statement for the hits gives the rows of a page of the documents that the query asks for. -/
theorem hitsStatement_runOn {w : Window} (hw : window (some r.limit) r.start = .ok w) :
    (hitsStatement index ps r).runOn tables w index rows =
      .ok (Engine.allRows (pageOf r.size r.start (listed r.sort (matched query rows)))) := by
  have htested : ∀ r ∈ rows, ∃ b, holdsAll [⟨index, r⟩] ps = .ok b := fun r hr =>
    holdsAll_total (predicates_total hps (hdocuments r hr) hquery index [])
  have hkeys : ∀ row ∈ rows, evalKeys (Expr.eval [⟨index, row⟩]) (hitsStatement index ps r).order =
      .ok (keysOf r.sort row) := by
    intro row hrow
    rw [evalKeys_eq_ok, hitsStatement, keysOf, List.forall₂_map_left_iff,
      List.forall₂_map_right_iff, List.forall₂_same]
    exact fun e he => hasKey_keyOf (hdocuments row hrow) (hsort e he)
  have hdirections : (hitsStatement index ps r).order.map OrderKey.direction =
      r.sort.map SortEntry.direction := by
    rw [hitsStatement, List.map_map]
    rfl
  have hplain := Statement.plainRows_eq (s := hitsStatement index ps r) hw htested hkeys
  rw [hdirections, show (hitsStatement index ps r).predicates = ps from rfl,
    filter_passes_eq_matched hps, Window.apply_of_window hw] at hplain
  unfold Statement.runOn
  by_cases hnone : w.limit = some 0
  · have hempty : pageOf r.size r.start (listed r.sort (matched query rows)) = [] :=
      (Window.apply_of_window hw _).symm.trans (Window.apply_of_zero hnone _)
    rw [if_pos hnone, hempty]
    rfl
  · have hgroups : ¬ (!(hitsStatement index ps r).groups.isEmpty) = true := Bool.false_ne_true
    have hcolumns : ¬ ((hitsStatement index ps r).columns.any fun c => c.expr.isAggregate) = true :=
      Bool.false_ne_true
    rw [if_neg hnone, if_neg hgroups, if_neg hcolumns]
    refine bind_eq_ok.mpr ⟨_, hplain, ?_⟩
    rw [List.map_map]
    exact Engine.evalGroups_hits tables index _

/-- It does so if it is accepted and neither size nor start is too large. -/
theorem hitsStatement_run_eq_ok {result : List Row} :
    (hitsStatement index ps r).run tables = .ok result ↔
      (hitsStatement index ps r).IsAccepted ∧
      (∃ w, window (some r.limit) r.start = .ok w) ∧
      result = Engine.allRows (pageOf r.size r.start (listed r.sort (matched query rows))) := by
  have hsource : sourceRows tables (hitsStatement index ps r).source = .ok (index, rows) :=
    sourceRows_eq_ok (s := ⟨index, none⟩) hrows
  rw [Statement.run_eq_ok]
  refine and_congr_right fun _ => ?_
  constructor
  · rintro ⟨name, rows', w, hsource', -, hw, hrun⟩
    rw [hsource] at hsource'
    cases hsource'
    rw [hitsStatement_runOn hps hdocuments hquery hsort hw] at hrun
    cases hrun
    exact ⟨⟨w, hw⟩, rfl⟩
  · rintro ⟨⟨w, hw⟩, rfl⟩
    exact ⟨index, rows, w, hsource, rfl, hw, hitsStatement_runOn hps hdocuments hquery hsort hw⟩

/-- The statement for the hits gives rows of documents of the table. -/
theorem hitsStatement_total (hsize : (r.limit : Int) ≤ Digits.int64Max)
    (hstart : (r.start.getD 0 : Int) ≤ Digits.int64Max)
    (haccepted : (hitsStatement index ps r).IsAccepted) :
    ∃ ds, (hitsStatement index ps r).run tables = .ok (Engine.allRows ds) ∧
      ∀ d ∈ ds, d ∈ rows := by
  refine ⟨_, (hitsStatement_run_eq_ok hps hrows hdocuments hquery hsort).mpr
    ⟨haccepted, Statement.window_total (by simpa using hsize) hstart, rfl⟩, fun d hd => ?_⟩
  exact List.mem_of_mem_filter ((perm_sortOn _ _ _).mem_iff.mp (mem_of_mem_pageOf hd))

end

end Plan

/-! ## Searches that have a response -/

namespace Engine

/-- The statements of a search that has a response are accepted. -/
theorem isAccepted_of_search {w w' : World Tables} {index : String} {r : SearchRequest}
    {response : SearchResponse} (h : onTables (search index r) w = (.ok response, w')) :
    ∃ p, compile index r = .ok p ∧ ∀ n ∈ p.nodes, n.statement.IsAccepted := by
  obtain ⟨-, -, -, p, hplan, hresults, rows, hrows, -⟩ := search_onTables_eq_ok.mp h
  refine ⟨p, hplan, fun n hn => ?_⟩
  rcases mem_nodes.mp hn with ⟨node, hnode, rfl⟩ | rfl
  · obtain ⟨result, -, rows, a, hrun, -, -⟩ := exists_of_mem_right hresults.flip hnode
    exact (Statement.run_eq_ok.mp hrun).1
  · exact (Statement.run_eq_ok.mp hrows).1

/-- A search for more than there may be at once has no response, whatever is in the tables. -/
theorem search_ne_ok {w w' : World Tables} {index : String} {r : SearchRequest}
    {response : SearchResponse}
    (h : 998 < (leaves r.query).length ∨
      (∃ e ∈ r.aggs, e.2.aggs ≠ [] ∧ 496 < (leaves r.query).length) ∨
      (∃ e ∈ r.aggs, 1998 < e.2.aggs.length) ∨ 2000 < r.sort.length) :
    onTables (search index r) w ≠ (.ok response, w') := by
  intro hsearch
  obtain ⟨p, hplan, haccepted⟩ := isAccepted_of_search hsearch
  obtain ⟨hconditions, hcorrelated, hnumbers, hsort⟩ := bounds_of_isAccepted hplan haccepted
  rcases h with hmany | ⟨e, he, hne, hmany⟩ | ⟨e, he, hmany⟩ | hmany
  · exact absurd hconditions (not_le.mpr hmany)
  · exact absurd (hcorrelated e he hne) (not_le.mpr hmany)
  · exact absurd (hnumbers e he) (not_le.mpr hmany)
  · exact absurd hsort (not_le.mpr hmany)

/-- What has to be so for a search to have a response: the statements are accepted, sizes are not too
large, the paths of fields have no mistakes, and the documents can be read back. -/
structure Answerable (index : String) (r : SearchRequest) (p : Plan) (mapping : Option Template.Mapping)
    (rows : List TableRow) : Prop where
  accepted : ∀ n ∈ p.nodes, n.statement.IsAccepted
  size : (r.limit : Int) ≤ Digits.int64Max
  start : (r.start.getD 0 : Int) ≤ Digits.int64Max
  limits : ∀ e ∈ r.aggs, ∀ kind, e.2.kind = .ok kind →
    ∀ n ∈ kind.bucketLimit, (n : Int) ≤ Digits.int64Max
  query : ∀ a ∈ leaves r.query, FieldAccepted a.field
  fields : ∀ e ∈ r.aggs, ∀ kind, e.2.kind = .ok kind → FieldAccepted kind.field
  numbers : ∀ e ∈ r.aggs, ∀ sub ∈ e.2.aggs, ∀ kind, sub.2.kind = .ok kind →
    FieldAccepted kind.field
  sort : ∀ e ∈ r.sort, FieldAccepted e.field
  hits : ∀ d ∈ rows, ∃ hit, hitOfRow index mapping
    [(hitNumber, .int d.id), (hitDocument, .text d.content)] = .ok hit

section

variable {w : World Tables} {index : String} {rows : List TableRow}
  (hrows : w.store.rows? index = some rows) (hdocuments : ∀ d ∈ rows, IsDocument d.content)
  {r : SearchRequest} {p : Plan} (hplan : compile index r = .ok p)

include hrows hdocuments hplan

/-- Such a search has a response. -/
theorem search_total (hname : isIndexName index = true) (hthere : w.store.contains index = true)
    (h : Answerable index r p (w.registry.lookup index) rows) :
    ∃ response, onTables (search index r) w = (.ok response, w) := by
  obtain ⟨ps, hplanned⟩ := compile_eq_ok.mp hplan
  have hnode : ∀ n ∈ p.aggregations, ∃ result, HasResult w.store.rows? n result := by
    intro n hn
    obtain ⟨e, he, hplanned'⟩ := exists_of_mem_right hplanned.aggregations hn
    have haccepted := h.accepted (.aggregation n) (aggregation_mem_nodes hn)
    cases hplanned' with
    | @buckets label a kind subs hkind _ hsubs =>
      have hfield := h.fields _ he kind hkind
      obtain ⟨result, hresult⟩ := bucketNode_total label hplanned.predicates hrows hsubs
        ⟨haccepted, h.limits _ he kind hkind, hdocuments, h.query, hfield, h.numbers _ he⟩
      obtain ⟨keys, -, hassembles⟩ := bucketNode_assembles label subs
        hplanned.predicates hrows hdocuments hfield
      obtain ⟨bs, hbs, -⟩ := hassembles result hresult
      exact ⟨_, result, _, hresult, hbs, rfl⟩
    | @metric label a kind e hkind hmetric _ =>
      obtain ⟨c, hc⟩ := metricNode_total hplanned.predicates hrows hdocuments
        h.query label hmetric (h.fields _ he kind hkind) haccepted
      exact ⟨_, _, _, hc, assemble_metricNode .., rfl⟩
  obtain ⟨results, hresults⟩ := exists_forall₂ hnode
  have hhits := h.accepted (.hits p.hits) (hits_mem_nodes p)
  rw [hplanned.hits] at hhits
  obtain ⟨ds, hds, hall⟩ := hitsStatement_total hplanned.predicates hrows hdocuments h.query h.sort
    h.size h.start hhits
  have hread : ∃ hits, hitsOfRows index (w.registry.lookup index) (allRows ds) = .ok hits := by
    refine (traverses_hitsOfRows index _).total fun row hrow => ?_
    obtain ⟨d, hd, rfl⟩ := List.mem_map.mp hrow
    exact h.hits d (hall d hd)
  obtain ⟨hits, hhits⟩ := hread
  exact ⟨⟨hits, results⟩, search_onTables_eq_ok.mpr ⟨hname, hthere, rfl, p, hplan, hresults,
    allRows ds, hplanned.hits ▸ hds, hhits⟩⟩

end

/-- The buckets of a response divide the documents that the query asks for: they are the first of a
bucket for each key of those documents, in the order of the buckets. -/
theorem search_partitions {w : World Tables} {index : String} {rows : List TableRow}
    (hrows : w.store.rows? index = some rows) {r : SearchRequest}
    (hdocuments : AreDocuments r.query rows) {p : Plan} (hplan : compile index r = .ok p)
    {i : Nat} {label : String} {a : Aggregate}
    (ha : r.aggs[i]? = some (label, a)) {kind : AggregateKind} (hkind : a.kind = .ok kind)
    (hbucket : kind.type.isBucket = true) (hfield : FieldAccepted kind.field) :
    ∃ keys, IsPartition kind r.query rows keys ∧
      (∀ response w', onTables (search index r) w = (.ok response, w') →
        ∃ bs, response.aggregations[i]? = some (label, .buckets bs) ∧
          List.Forall₂ (IsBucketOf r.query kind.field rows) (firstOf kind.bucketLimit keys) bs) ∧
      (isIndexName index = true → w.store.contains index = true →
        Answerable index r p (w.registry.lookup index) rows →
        ∃ response, onTables (search index r) w = (.ok response, w)) := by
  obtain ⟨ps, hplanned⟩ := compile_eq_ok.mp hplan
  obtain ⟨n, hn, hnode⟩ := getElem?_of_forall₂ hplanned.aggregations ha
  obtain ⟨subs, hsubs, rfl⟩ := hnode.exists_buckets hkind hbucket
  obtain ⟨keys, hpartition, hassembles⟩ := bucketNode_assembles label subs
    hplanned.predicates hrows hdocuments.documents hfield
  refine ⟨keys, hpartition, ?_, fun hname hthere h =>
    search_total hrows hdocuments.documents hplan hname hthere h⟩
  intro response w' hsearch
  obtain ⟨-, -, -, p', hplan', hresults, -⟩ := search_onTables_eq_ok.mp hsearch
  rw [hplan] at hplan'
  cases hplan'
  obtain ⟨result, hresult, found, x, hrun, hassemble, rfl⟩ := getElem?_of_forall₂ hresults hn
  obtain ⟨bs, hbs, hbuckets⟩ := hassembles found hrun
  cases hassemble.symm.trans hbs
  exact ⟨bs, hresult, hbuckets⟩

/-! ## An example -/

/-- An index of two documents of a service, and one of none. -/
def slowestWorld : World Tables where
  store := { tables := [⟨"logs", slowestRows⟩] }

theorem rows?_slowestWorld : slowestWorld.store.rows? "logs" = some slowestRows := by
  decide +kernel

theorem isDocument_slowestRows : ∀ d ∈ slowestRows, IsDocument d.content := by
  unfold IsDocument
  decide +kernel

/-- Without a query nothing depends on the present instant. -/
theorem areDocuments_slowestRows : AreDocuments none slowestRows :=
  ⟨isDocument_slowestRows, fun _ _ => List.forall_mem_nil _⟩

/-- Its documents can be shown. -/
theorem exists_hit_slowestRows : ∀ d ∈ slowestRows, ∃ hit,
    hitOfRow "logs" (slowestWorld.registry.lookup "logs")
      [(hitNumber, .int d.id), (hitDocument, .text d.content)] = .ok hit := by
  have hread : ∀ d ∈ slowestRows, (hitOfRow "logs" (slowestWorld.registry.lookup "logs")
      [(hitNumber, .int d.id), (hitDocument, .text d.content)]).toOption.isSome = true := by
    decide +kernel
  intro d hd
  have hsome := hread d hd
  cases hhit : hitOfRow "logs" (slowestWorld.registry.lookup "logs")
      [(hitNumber, .int d.id), (hitDocument, .text d.content)] with
  | error e =>
    rw [hhit] at hsome
    cases hsome
  | ok hit => exact ⟨hit, rfl⟩

/-- A request for the slowest document of each service can be answered. -/
theorem slowest_answerable : ∃ p, compile "logs" slowestRequest = .ok p ∧
    Answerable "logs" slowestRequest p (slowestWorld.registry.lookup "logs") slowestRows := by
  have haccepted : FieldAccepted "service" ∧ FieldAccepted "latency" := by
    unfold FieldAccepted
    decide +kernel
  have hmoderate : Moderate slowestRequest :=
    ⟨by decide, fun _ _ _ => by decide, by decide, by decide⟩
  refine ⟨_, rfl, compile_isAccepted rfl hmoderate (by decide +kernel), by decide, by decide, ?_,
    List.forall_mem_nil _, ?_, ?_, List.forall_mem_nil _, exists_hit_slowestRows⟩
  · rintro e he kind hkind n hn
    obtain rfl := List.mem_singleton.mp he
    cases hkind
    cases hn
  · rintro e he kind hkind
    obtain rfl := List.mem_singleton.mp he
    cases hkind
    exact haccepted.1
  · rintro e he sub hsub kind hkind
    obtain rfl := List.mem_singleton.mp he
    obtain rfl := List.mem_singleton.mp hsub
    cases hkind
    exact haccepted.2

/-- The buckets of the example divide its three documents. -/
theorem search_partitions_example : ∃ keys response bs,
    IsPartition (.terms { field := "service" }) none slowestRows keys ∧
      onTables (search "logs" slowestRequest) slowestWorld = (.ok response, slowestWorld) ∧
      response.aggregations[0]? = some ("services", .buckets bs) ∧
      List.Forall₂ (IsBucketOf none "service" slowestRows) keys bs := by
  obtain ⟨p, hplan, hanswerable⟩ := slowest_answerable
  have hfield : FieldAccepted "service" := by
    unfold FieldAccepted
    decide +kernel
  have ha : slowestRequest.aggs[0]? = some ("services",
      { terms := some { field := "service" }
        aggs := [("slowest", { max := some { field := "latency" } })] }) := rfl
  have hrows : slowestWorld.store.rows? "logs" = some slowestRows := rows?_slowestWorld
  obtain ⟨keys, hpartition, hbuckets, htotal⟩ :=
    search_partitions hrows areDocuments_slowestRows hplan ha rfl rfl hfield
  obtain ⟨response, hresponse⟩ := htotal (by decide) (by decide) hanswerable
  obtain ⟨bs, hbs, hall⟩ := hbuckets response slowestWorld hresponse
  exact ⟨keys, response, bs, hpartition, hresponse, hbs, hall⟩

/-- A request with a query, for the documents of each service. -/
def servicesOf (query : Query) : SearchRequest where
  query := some query
  aggs := [("services", { terms := some { field := "service" } })]

/-- The same index after a template was set up that makes a number of its documents a date. -/
def datedWorld : World Tables where
  store := slowestWorld.store
  registry := (Program.registerIn {} "dates" ⟨"logs", [("latency", "epoch_millis")]⟩).2

/-- A query with a number of conditions. -/
def allOf (n : Nat) : Query where
  bool := some { must := List.replicate n { term := some [("service", { value := "a" })] } }

theorem length_leaves_allOf (n : Nat) : (leaves (some (allOf n))).length = n := by
  show (Query.leaves _).length = n
  rw [Query.leaves_eq]
  show ((List.replicate n _).flatMap Query.leaves).length = n
  simp [List.length_flatMap, Query.leaves]

/-- A request for numbers of each service, under labels of different lengths. -/
def numbersOf (n : Nat) (query : Query) : SearchRequest where
  query := some query
  aggs :=
    [("services",
      { terms := some { field := "service" }
        aggs := (List.range n).map fun i =>
          (String.ofList (List.replicate (i + 1) 'n'), { max := some { field := "latency" } }) })]

theorem length_numbersOf (n : Nat) (query : Query) :
    ∃ e ∈ (numbersOf n query).aggs, e.2.aggs.length = n :=
  ⟨_, List.mem_singleton_self _, by simp⟩

/-- Buckets of an index of JSON documents by a field whose path has no mistakes are not returned for
a query that compares with a text with a character of code zero, compares a field whose path has a
mistake, or has a bound that is no instant; nor beside such a field in the sort or in another
aggregation, or beside a size or a start above all signed numbers of 64 bits; nor where a document
cannot be read back. They are not returned either for too many conditions, or beside too many sort
keys or numbers of each bucket. -/
theorem search_without_buckets :
    FieldAccepted "service" ∧ (∀ d ∈ slowestRows, IsDocument d.content) ∧
    (onTables (search "logs" (servicesOf { term := some [("a", { value := "\x00" })] }))
      slowestWorld).1 matches .error (.storage (.reported "incomplete statement")) ∧
    (onTables (search "logs" (servicesOf { term := some [("", { value := "a" })] }))
      slowestWorld).1 matches .error (.storage (.reported "malformed path: $.")) ∧
    (onTables (search "logs" (servicesOf { range := some [("a", { gte := some (.ofInt (2 ^ 62)) })] }))
      slowestWorld).1 matches .error (.format _) ∧
    (onTables (search "logs" { servicesOf {} with sort := [⟨"", .asc⟩] }) slowestWorld).1 matches
      .error (.storage (.reported "malformed path: $.")) ∧
    (onTables (search "logs" { servicesOf {} with
        aggs := ("largest", { max := some { field := "" } }) :: (servicesOf {}).aggs })
      slowestWorld).1 matches .error (.storage (.reported "malformed path: $.")) ∧
    (onTables (search "logs" { servicesOf {} with size := some (2 ^ 63) }) slowestWorld).1 matches
      .error (.storage (.reported "limit or offset too large")) ∧
    (onTables (search "logs" { servicesOf {} with start := some (2 ^ 63) }) slowestWorld).1 matches
      .error (.storage (.reported "limit or offset too large")) ∧
    (onTables (search "logs" (servicesOf {})) datedWorld).1 matches .error (.format _) ∧
    ∀ response w',
      onTables (search "logs" (servicesOf (allOf 999))) slowestWorld ≠ (.ok response, w') ∧
      onTables (search "logs" (numbersOf 1 (allOf 497))) slowestWorld ≠ (.ok response, w') ∧
      onTables (search "logs" { servicesOf {} with sort := .replicate 2001 ⟨"latency", .asc⟩ })
        slowestWorld ≠ (.ok response, w') ∧
      onTables (search "logs" (numbersOf 1999 {})) slowestWorld ≠ (.ok response, w') := by
  refine ⟨?_, isDocument_slowestRows, by decide +kernel, by decide +kernel, by decide +kernel,
    by decide +kernel, by decide +kernel, by decide +kernel, by decide +kernel, by decide +kernel,
    fun response w' => ⟨?_, ?_, ?_, ?_⟩⟩
  · unfold FieldAccepted
    decide +kernel
  -- The large requests are not planned here: their numbers alone rule a response out.
  · exact search_ne_ok (.inl ((length_leaves_allOf 999).symm ▸ by decide))
  · exact search_ne_ok (.inr (.inl ⟨_, List.mem_singleton_self _, List.cons_ne_nil _ _,
      (length_leaves_allOf 497).symm ▸ by decide⟩))
  · exact search_ne_ok (.inr (.inr (.inr (List.length_replicate.symm ▸ by decide))))
  · obtain ⟨e, he, hlength⟩ := length_numbersOf 1999 {}
    exact search_ne_ok (.inr (.inr (.inl ⟨e, he, hlength.symm ▸ by decide⟩)))

end Engine

end Quarry
