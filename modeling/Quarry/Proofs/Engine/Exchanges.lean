/-
# The calls of a search

What a search asks of a store, whatever the store answers.

* `Exchange`, `Program.exchanges` — a call with its answer, and those of a run in their order.
* `Observes` — an activity makes some exchanges and has an outcome.
* `outcome` — what comes of the answer to the statement of a node.
* `RunsAggregations`, `RunsStatements` — statements that are run up to the first failure.
* `searchBody_carriedOut` — a search makes the first of the calls planned for it, stops at the first
  that fails and then answers with that failure, and has results only of all of them.
-/
import Quarry.Proofs.Engine.Runs
import Quarry.Proofs.Request.Ordered
import Quarry.Proofs.Plan.Nodes
import Quarry.Store.Scripted

namespace Quarry.Engine

open Quarry.Engine.Program (World)
open Quarry.Outcome Quarry.Plan Quarry.Request Quarry.Result Quarry.Sql Quarry.Store Quarry.Template

variable {σ : Type}

/-! ## Exchanges -/

/-- A call on a store with its answer. -/
structure Exchange where
  {α : Type}
  call : StoreCall α
  answer : Except StorageError α

/-- The call of an exchange, as it goes on record. -/
def Exchange.record (x : Exchange) : CallRecord := x.call.record

/-- The exchanges of a run, in their order. -/
def Program.exchanges {α : Type} (s : Store σ) : Program α → World σ → List Exchange
  | .done _, _ => []
  | .call c next, w =>
    ⟨c, (s.perform c w.store).1⟩ ::
      (next (s.perform c w.store).1).exchanges s { w with store := (s.perform c w.store).2 }
  | .registry next, w => (next w.registry).exchanges s w
  | .register name m next, w =>
    (next (registerIn w.registry name m).1).exchanges s
      { w with registry := (registerIn w.registry name m).2 }

/-- The exchanges of a program come before those of the one after it. -/
theorem Program.exchanges_bind {α β : Type} (s : Store σ) (p : Program α) (f : α → Program β)
    (w : World σ) : (p.bind f).exchanges s w =
      p.exchanges s w ++ (f (p.run s w).1).exchanges s (p.run s w).2 := by
  induction p generalizing w with
  | done a => rfl
  | call c next ih => exact congrArg (List.cons _) (ih _ _)
  | registry next ih => exact ih _ _
  | register name m next ih => exact ih _ _

/-- An activity makes some exchanges, has an outcome, and leaves a store and a registry. -/
structure Observes {α : Type} (s : Store σ) (p : Engine α) (w : World σ) (t : List Exchange)
    (x : Except Error α) (w' : World σ) : Prop where
  exchanges : (attempt p).exchanges s w = t
  run : (attempt p).run s w = (x, w')

namespace Observes

variable {α β : Type} {s : Store σ} {p : Engine α} {f : α → Engine β} {w v v' : World σ}
  {t u : List Exchange}

theorem pure (a : α) : Observes s (Pure.pure a : Engine α) w [] (.ok a) w := ⟨rfl, rfl⟩

theorem throw (e : Error) : Observes s (MonadExcept.throw e : Engine α) w [] (.error e) w :=
  ⟨rfl, rfl⟩

theorem orFail (x : Except Error α) : Observes s (Engine.orFail x) w [] x w := ⟨rfl, rfl⟩

theorem registry : Observes s Engine.registry w [] (.ok w.registry) w := ⟨rfl, rfl⟩

theorem call (c : StoreCall α) :
    Observes s (Engine.call c) w [⟨c, (s.perform c w.store).1⟩]
      ((s.perform c w.store).1.mapError .storage) { w with store := (s.perform c w.store).2 } :=
  ⟨rfl, rfl⟩

/-- An activity goes on with what the one before it gave. -/
theorem bind {a : α} {y : Except Error β} (h : Observes s p w t (.ok a) v)
    (hf : Observes s (f a) v u y v') : Observes s (p >>= f) w (t ++ u) y v' where
  exchanges := by
    show ((attempt p).bind (ExceptT.bindCont f)).exchanges s w = _
    rw [Program.exchanges_bind, h.exchanges, h.run]
    exact congrArg (t ++ ·) hf.exchanges
  run := by
    show ((attempt p).bind (ExceptT.bindCont f)).run s w = _
    rw [Program.run_bind, h.run]
    exact hf.run

/-- It ends where the one before it failed. -/
theorem bind_error {e : Error} (h : Observes s p w t (.error e) v) :
    Observes s (p >>= f) w t (.error e) v where
  exchanges := by
    show ((attempt p).bind (ExceptT.bindCont f)).exchanges s w = _
    rw [Program.exchanges_bind, h.exchanges, h.run]
    exact List.append_nil t
  run := by
    show ((attempt p).bind (ExceptT.bindCont f)).run s w = _
    rw [Program.run_bind, h.run]
    rfl

/-- After what is known to be there, an activity goes on. -/
theorem orFail_bind {a : α} {y : Except Error β} (hf : Observes s (f a) w t y v) :
    Observes s (Engine.orFail (.ok a) >>= f) w t y v :=
  bind (orFail (.ok a)) hf

end Observes

/-! ## Statements -/

/-- A node whose statement was run, with the answer of the store. -/
abbrev Ran := Node × Except StorageError (List Row)

/-- The exchange for a statement. -/
def exchangeOf (m : Ran) : Exchange := ⟨.execute m.1.statement, m.2⟩

/-- What comes of the answer to the statement of a node: an error of the store, an error of the rows,
or a result. -/
def outcome (index : String) (mapping : Option Mapping) (m : Ran) : Except Error Unit := do
  let rows ← m.2.mapError .storage
  match m.1 with
  | .aggregation n => ((assembleAggregation n rows).mapError .rowShape).map fun _ => ()
  | .hits _ => (hitsOfRows index mapping rows).map fun _ => ()

@[simp] theorem outcome_aggregation (index : String) (mapping : Option Mapping)
    (n : AggregationNode) (rows : List Row) : outcome index mapping (.aggregation n, .ok rows) =
      ((assembleAggregation n rows).mapError .rowShape).map fun _ => () := rfl

@[simp] theorem outcome_hits (index : String) (mapping : Option Mapping) (s : Statement)
    (rows : List Row) : outcome index mapping (.hits s, .ok rows) =
      (hitsOfRows index mapping rows).map fun _ => () := rfl

/-- The result of an aggregation is made of the rows of its statement. -/
def MadeFrom (m : Ran) (result : String × Aggregation) : Prop :=
  ∃ n rows, m = (.aggregation n, .ok rows) ∧ result.1 = n.label ∧
    assembleAggregation n rows = .ok result.2

/-- The statements of aggregations are run up to the first that has no result. -/
inductive RunsAggregations (index : String) (mapping : Option Mapping) :
    List AggregationNode → List Ran → Except Error (List (String × Aggregation)) → Prop
  | done : RunsAggregations index mapping [] [] (.ok [])
  | failed {n : AggregationNode} {rest : List AggregationNode}
    {answer : Except StorageError (List Row)} {e : Error} :
    outcome index mapping (.aggregation n, answer) = .error e →
      RunsAggregations index mapping (n :: rest) [(.aggregation n, answer)] (.error e)
  | next {n : AggregationNode} {rest : List AggregationNode} {rows : List Row}
    {result : Aggregation} {runs : List Ran} {x : Except Error (List (String × Aggregation))} :
    assembleAggregation n rows = .ok result → RunsAggregations index mapping rest runs x →
      RunsAggregations index mapping (n :: rest) ((.aggregation n, .ok rows) :: runs)
        (x.map ((n.label, result) :: ·))

/-- Whatever the store answers, aggregations are run up to the first that has no result. -/
theorem runAggregations_observes (s : Store σ) (index : String) (mapping : Option Mapping)
    (nodes : List AggregationNode) (w : World σ) : ∃ runs x v,
      Observes s (runAggregations nodes) w (runs.map exchangeOf) x v ∧ v.registry = w.registry ∧
      RunsAggregations index mapping nodes runs x := by
  induction nodes generalizing w with
  | nil => exact ⟨[], .ok [], w, .pure [], rfl, .done⟩
  | cons n rest ih =>
    have hcall := Observes.call (s := s) (w := w) (.execute n.statement)
    generalize hanswer : s.perform (.execute n.statement) w.store = answer at hcall
    obtain ⟨answer, store⟩ := answer
    cases answer with
    | error e =>
      exact ⟨[(.aggregation n, .error e)], .error (.storage e), _, hcall.bind_error, rfl,
        .failed rfl⟩
    | ok rows =>
      cases hresult : assembleAggregation n rows with
      | error e =>
        have hfails : outcome index mapping (.aggregation n, .ok rows) = .error (.rowShape e) := by
          rw [outcome_aggregation, hresult]
          rfl
        refine ⟨[(.aggregation n, .ok rows)], .error (.rowShape e), { w with store := store }, ?_,
          rfl, .failed hfails⟩
        refine hcall.bind (u := []) ?_
        rw [hresult]
        exact (Observes.orFail _).bind_error
      | ok result =>
        -- The rest is run in what this statement leaves of the store.
        obtain ⟨runs, x, v, hrest, hregistry, hruns⟩ := ih { w with store := store }
        refine ⟨(.aggregation n, .ok rows) :: runs, _, v, ?_, hregistry, .next hresult hruns⟩
        refine hcall.bind (u := runs.map exchangeOf) ?_
        rw [hresult]
        refine Observes.orFail_bind ?_
        cases x with
        | error e => exact hrest.bind_error
        | ok results => exact List.append_nil (runs.map exchangeOf) ▸ hrest.bind (.pure _)

namespace RunsAggregations

variable {index : String} {mapping : Option Mapping} {nodes : List AggregationNode}
  {runs : List Ran} {x : Except Error (List (String × Aggregation))}

/-- With results, all statements were run, and each result is made of its rows. -/
theorem all_of_ok {results : List (String × Aggregation)}
    (h : RunsAggregations index mapping nodes runs (.ok results)) :
    runs.map Prod.fst = nodes.map .aggregation ∧ (∀ m ∈ runs, outcome index mapping m = .ok ()) ∧
      results.map Prod.fst = nodes.map AggregationNode.label ∧
      List.Forall₂ MadeFrom runs results := by
  generalize hx : Except.ok results = x at h
  induction h generalizing results with
  | done =>
    cases hx
    exact ⟨rfl, List.forall_mem_nil _, rfl, .nil⟩
  | failed hfails => cases hx
  | @next n rest rows result runs x hresult _ ih =>
    obtain ⟨others, rfl, rfl⟩ := map_eq_ok.mp hx.symm
    obtain ⟨hnodes, hnone, hlabels, hmade⟩ := ih rfl
    have hfirst : outcome index mapping (.aggregation n, .ok rows) = .ok () := by
      rw [outcome_aggregation, hresult]
      rfl
    refine ⟨?_, List.forall_mem_cons.mpr ⟨hfirst, hnone⟩, ?_, ?_⟩
    · rw [List.map_cons, List.map_cons, hnodes]
    · rw [List.map_cons, List.map_cons, hlabels]
    · exact .cons ⟨n, rows, rfl, rfl, hresult⟩ hmade

/-- With an error, the last statement that was run has failed with it, and none before. -/
theorem last_of_error {e : Error} (h : RunsAggregations index mapping nodes runs (.error e)) :
    ∃ done last, runs = done ++ [last] ∧ runs.map Prod.fst <+: nodes.map .aggregation ∧
      (∀ m ∈ done, outcome index mapping m = .ok ()) ∧ outcome index mapping last = .error e := by
  generalize hx : Except.error e = x at h
  induction h with
  | done => cases hx
  | @failed n rest answer e' hfails =>
    cases hx
    exact ⟨[], _, rfl, List.prefix_append [Node.aggregation n] _, List.forall_mem_nil _,
      hfails⟩
  | @next n rest rows result runs x hresult _ ih =>
    have hrest : x = .error e := by
      cases x with
      | error e' => exact hx.symm
      | ok others => cases hx
    obtain ⟨done, last, rfl, hstart, hnone, hfails⟩ := ih hrest.symm
    have hfirst : outcome index mapping (.aggregation n, .ok rows) = .ok () := by
      rw [outcome_aggregation, hresult]
      rfl
    refine ⟨(.aggregation n, .ok rows) :: done, last, rfl, ?_,
      List.forall_mem_cons.mpr ⟨hfirst, hnone⟩, hfails⟩
    exact (List.prefix_cons_inj _).mpr hstart

end RunsAggregations

/-! ## Responses -/

/-- The member of an object under a name. -/
def memberOf? (name : String) : Json → Option Json
  | .object members => Named.get? name members
  | _ => none

/-- A response holds the results of all statements that were run: under the labels of the request
those of the aggregations, and one hit for each row of the hits, in the order of the rows. -/
structure HoldsResults (index : String) (mapping : Option Mapping) (r : SearchRequest)
    (runs : List Ran) (response : SearchResponse) : Prop where
  labels : response.aggregations.map Prod.fst = r.aggs.names
  hits : ∃ done s rows, runs = done ++ [(.hits s, .ok rows)] ∧
    List.Forall₂ MadeFrom done response.aggregations ∧
    List.Forall₂ (fun row hit => hitOfRow index mapping row = .ok hit) rows response.hits ∧
    (memberOf? "hits" response.toJson).bind (memberOf? "total") = some (.ofNat rows.length)

/-- The first statements of a plan are run, up to the end or to the first that fails. -/
structure RunsStatements (index : String) (mapping : Option Mapping) (r : SearchRequest) (p : Plan)
    (runs : List Ran) (answer : Except Error SearchResponse) : Prop where
  nonempty : runs ≠ []
  first : runs.map Prod.fst <+: p.nodes
  /-- Before the last statement that is run none fails. -/
  before : ∀ done last, runs = done ++ [last] → ∀ m ∈ done, outcome index mapping m = .ok ()
  /-- Where one fails, the answer is its error. -/
  failed : ∀ m ∈ runs, ∀ e, outcome index mapping m = .error e → answer = .error e
  /-- There is a response exactly when all statements are run and none fails. -/
  answered : (∃ response, answer = .ok response) ↔
    runs.map Prod.fst = p.nodes ∧ ∀ m ∈ runs, outcome index mapping m = .ok ()
  /-- As long as none fails, the next is run. -/
  complete : (∀ m ∈ runs, outcome index mapping m = .ok ()) → runs.map Prod.fst = p.nodes
  response : ∀ response, answer = .ok response → HoldsResults index mapping r runs response

section

variable {index : String} {mapping : Option Mapping} {r : SearchRequest} {p : Plan}

/-- Statements are run up to the first that fails. -/
theorem RunsStatements.of_error {done : List Ran} {last : Ran} {e : Error}
    (hfirst : (done ++ [last]).map Prod.fst <+: p.nodes)
    (hnone : ∀ m ∈ done, outcome index mapping m = .ok ())
    (hfails : outcome index mapping last = .error e) :
    RunsStatements index mapping r p (done ++ [last]) (.error e) where
  nonempty := by simp
  first := hfirst
  before := by
    intro done' last' heq
    obtain ⟨rfl, -⟩ := List.append_inj' heq rfl
    exact hnone
  failed := by
    intro m hm e' he'
    rcases List.mem_append.mp hm with hm | hm
    · rw [hnone m hm] at he'
      cases he'
    · rw [List.mem_singleton.mp hm, hfails] at he'
      cases he'
      rfl
  answered := by
    refine ⟨nofun, ?_⟩
    rintro ⟨-, hall⟩
    have hlast := hall last (List.mem_append_right done (List.mem_singleton_self last))
    rw [hfails] at hlast
    cases hlast
  complete := by
    intro hall
    have hlast := hall last (List.mem_append_right done (List.mem_singleton_self last))
    rw [hfails] at hlast
    cases hlast
  response := nofun

/-- Statements that all have results make a response. -/
theorem RunsStatements.of_ok {runs : List Ran} {results : List (String × Aggregation)}
    (hruns : RunsAggregations index mapping p.aggregations runs (.ok results))
    (hlabels : p.aggregations.map AggregationNode.label = r.aggs.names) {rows : List Row}
    {hits : List Hit} (hhits : hitsOfRows index mapping rows = .ok hits) :
    RunsStatements index mapping r p (runs ++ [(.hits p.hits, .ok rows)]) (.ok ⟨hits, results⟩) := by
  obtain ⟨hnodes, hnone, hkeys, hmade⟩ := hruns.all_of_ok
  have hlast : outcome index mapping (.hits p.hits, .ok rows) = .ok () := by
    rw [outcome_hits, hhits]
    rfl
  have hall : ∀ m ∈ runs ++ [(.hits p.hits, Except.ok rows)], outcome index mapping m = .ok () :=
    List.forall_mem_append.mpr ⟨hnone, List.forall_mem_singleton.mpr hlast⟩
  have hrun : (runs ++ [(Node.hits p.hits, Except.ok rows)]).map Prod.fst = p.nodes := by
    rw [List.map_append, hnodes]
    rfl
  refine ⟨by simp, hrun ▸ List.prefix_refl _, ?_, ?_, ⟨fun _ => ⟨hrun, hall⟩, fun _ => ⟨_, rfl⟩⟩,
    fun _ => hrun, ?_⟩
  · intro done last heq m hm
    exact hall m (heq ▸ List.mem_append_left _ hm)
  · intro m hm e he
    rw [hall m hm] at he
    cases he
  · rintro response heq
    cases heq
    have hone := (traverses_hitsOfRows index mapping).ok_iff.mp hhits
    refine ⟨hkeys.trans hlabels, runs, p.hits, rows, rfl, hmade, hone, ?_⟩
    rw [hone.length_eq]
    rfl

end

/-! ## Searches -/

/-- The calls planned for a request: whether its index is there, and the statements in order. -/
def plannedCalls (index : String) (p : Plan) : List CallRecord :=
  .tableExists index :: p.nodes.map fun n => .execute n.sql

/-- How a search is carried out once it has a plan. -/
inductive CarriesOut (index : String) (mapping : Option Mapping) (r : SearchRequest) (p : Plan) :
    List Exchange → Except Error SearchResponse → Prop
  /-- The store cannot say whether the index is there. -/
  | unknown (e : StorageError) :
    CarriesOut index mapping r p [⟨.tableExists index, .error e⟩] (.error (.storage e))
  /-- The index is not there. -/
  | absent :
    CarriesOut index mapping r p [⟨.tableExists index, .ok false⟩] (.error (.indexNotFound index))
  /-- The index is there, and statements are run. -/
  | present {runs : List Ran} {answer : Except Error SearchResponse} :
    RunsStatements index mapping r p runs answer →
      CarriesOut index mapping r p (⟨.tableExists index, .ok true⟩ :: runs.map exchangeOf) answer

/-- What a search asks of a store and what it answers. The first problem with the body, the name and
the plan, in this order, is reported before anything is asked. With a plan, the calls are the first
of those planned, where the labels of the aggregations ascend. -/
inductive CarriedOut (index : String) (body : List UInt8) (templates : Registry) :
    List Exchange → Except Error SearchResponse → Prop
  | unreadable {e : Json.DecodeError} : SearchRequest.ofBytes body = .error e →
      CarriedOut index body templates [] (.error (.decode e))
  | misnamed {r : SearchRequest} : SearchRequest.ofBytes body = .ok r →
      isIndexName index = false → CarriedOut index body templates [] (.error (.invalidIndexName index))
  | unplanned {r : SearchRequest} {e : Error} : SearchRequest.ofBytes body = .ok r →
      isIndexName index = true → compile index r = .error e →
      CarriedOut index body templates [] (.error e)
  | planned {r : SearchRequest} {p : Plan} {t : List Exchange}
    {answer : Except Error SearchResponse} : SearchRequest.ofBytes body = .ok r →
      isIndexName index = true → compile index r = .ok p →
      r.aggs.Ascending → p.aggregations.map AggregationNode.label = r.aggs.names →
      t ≠ [] → t.map Exchange.record <+: plannedCalls index p →
      CarriesOut index (templates.lookup index) r p t answer →
      CarriedOut index body templates t answer

section

variable {index : String} {mapping : Option Mapping} {r : SearchRequest} {p : Plan}

/-- The nodes of a plan have the labels of the request. -/
theorem labels_of_compile (h : compile index r = .ok p) :
    p.aggregations.map AggregationNode.label = r.aggs.names := by
  obtain ⟨ps, hplanned⟩ := compile_eq_ok.mp h
  have hlabels := hplanned.aggregations
  generalize r.aggs = aggs at hlabels ⊢
  generalize p.aggregations = nodes at hlabels ⊢
  induction hlabels with
  | nil => rfl
  | @cons e n aggs nodes hplanned _ ih =>
    have hlabel : n.label = e.1 := by cases hplanned <;> rfl
    rw [List.map_cons, Named.names, List.map_cons, hlabel, ih]
    rfl

/-- The calls of a search that is carried out are the first of those planned, and there are some. -/
theorem CarriesOut.calls {t : List Exchange} {answer : Except Error SearchResponse}
    (h : CarriesOut index mapping r p t answer) :
    t ≠ [] ∧ t.map Exchange.record <+: plannedCalls index p := by
  cases h with
  | unknown e => exact ⟨by simp, List.prefix_append [CallRecord.tableExists index] _⟩
  | absent => exact ⟨by simp, List.prefix_append [CallRecord.tableExists index] _⟩
  | @present runs answer hruns =>
    refine ⟨by simp, (List.prefix_cons_inj _).mpr ?_⟩
    have hrecords : (runs.map exchangeOf).map Exchange.record =
        (runs.map Prod.fst).map fun n => CallRecord.execute n.sql := by
      rw [List.map_map, List.map_map]
      rfl
    rw [hrecords]
    exact hruns.first.map _

/-- The part of a search that runs its statements. -/
def runPlan (index : String) (p : Plan) : Engine SearchResponse := do
  let templates ← registry
  let aggregations ← runAggregations p.aggregations
  let rows ← call (.execute p.hits)
  let hits ← orFail (hitsOfRows index (templates.lookup index) rows)
  return ⟨hits, aggregations⟩

/-- Whatever the store answers, statements are run up to the first that fails. -/
theorem runPlan_observes (s : Store σ) (w : World σ) (hplan : compile index r = .ok p) :
    ∃ runs answer v, Observes s (runPlan index p) w (runs.map exchangeOf) answer v ∧
      RunsStatements index (w.registry.lookup index) r p runs answer := by
  obtain ⟨runs, x, v, hruns, -, haggregations⟩ := runAggregations_observes s index
    (w.registry.lookup index) p.aggregations w
  unfold runPlan
  cases x with
  | error e =>
    obtain ⟨done, last, rfl, hfirst, hnone, hfails⟩ := haggregations.last_of_error
    refine ⟨_, _, _, Observes.registry.bind hruns.bind_error, ?_⟩
    exact .of_error (hfirst.trans (List.prefix_append _ _)) hnone hfails
  | ok results =>
    obtain ⟨hnodes, hnone, -⟩ := haggregations.all_of_ok
    have hhits := Observes.call (s := s) (w := v) (.execute p.hits)
    generalize s.perform (.execute p.hits) v.store = answer at hhits
    obtain ⟨answer, store⟩ := answer
    -- The hits come last, so with them all statements are run.
    have hlast : ∀ e, outcome index (w.registry.lookup index) (.hits p.hits, answer) = .error e →
        RunsStatements index (w.registry.lookup index) r p
          (runs ++ [(.hits p.hits, answer)]) (.error e) := by
      intro e hfails
      refine .of_error ?_ hnone hfails
      rw [List.map_append, hnodes]
      exact List.prefix_refl _
    refine ⟨runs ++ [(.hits p.hits, answer)], ?_⟩
    rw [List.map_append]
    cases answer with
    | error e =>
      exact ⟨.error (.storage e), _, Observes.registry.bind (hruns.bind hhits.bind_error),
        hlast _ rfl⟩
    | ok rows =>
      have hread : Observes s (orFail (hitsOfRows index (w.registry.lookup index) rows) >>=
          fun hits => Pure.pure (SearchResponse.mk hits results)) { v with store := store } []
          ((hitsOfRows index (w.registry.lookup index) rows).map (SearchResponse.mk · results))
          { v with store := store } := by
        cases hitsOfRows index (w.registry.lookup index) rows with
        | error e => exact (Observes.orFail _).bind_error
        | ok hits => exact .orFail_bind (.pure _)
      refine ⟨_, _, Observes.registry.bind (hruns.bind (hhits.bind hread)), ?_⟩
      cases hhit : hitsOfRows index (w.registry.lookup index) rows with
      | error e =>
        refine hlast e ?_
        rw [outcome_hits, hhit]
        rfl
      | ok hits => exact .of_ok haggregations (labels_of_compile hplan) hhit

/-- Whatever the store answers, a plan is carried out. -/
theorem search_observes (s : Store σ) (w : World σ) (hname : isIndexName index = true)
    (hplan : compile index r = .ok p) : ∃ t answer v,
      Observes s (search index r) w t answer v ∧
      CarriesOut index (w.registry.lookup index) r p t answer := by
  unfold search
  have hcheck : checkName index = .ok () := checkName_eq_ok.mpr hname
  rw [hcheck, hplan]
  have hcall := Observes.call (s := s) (w := w) (.tableExists index)
  generalize hthere : s.perform (.tableExists index) w.store = there at hcall
  obtain ⟨there, store⟩ := there
  match there with
  | .error e => exact ⟨_, _, _, .orFail_bind (.orFail_bind hcall.bind_error), .unknown e⟩
  | .ok false =>
    exact ⟨_, _, _, .orFail_bind (.orFail_bind (hcall.bind (Observes.throw _).bind_error)), .absent⟩
  | .ok true =>
    -- What comes after the first call is carried out in what that call leaves of the store.
    suffices h : ∃ runs answer v, Observes s (runPlan index p) { w with store := store }
        (runs.map exchangeOf) answer v ∧
          RunsStatements index (w.registry.lookup index) r p runs answer by
      obtain ⟨runs, answer, v, hrun, hruns⟩ := h
      exact ⟨_, _, v, .orFail_bind (.orFail_bind (hcall.bind hrun)), .present hruns⟩
    exact runPlan_observes s _ hplan

end

/-- A search makes the first of the calls planned for it, stops at the first that fails and then
answers with that failure, and has results only of all of them. -/
theorem searchBody_carriedOut (s : Store σ) (w : World σ) (index : String) (body : List UInt8) :
    CarriedOut index body w.registry ((attempt (searchBody index body)).exchanges s w)
      ((attempt (searchBody index body)).run s w).1 := by
  suffices h : ∃ t answer v, Observes s (searchBody index body) w t answer v ∧
      CarriedOut index body w.registry t answer by
    obtain ⟨t, answer, v, hobserves, hcarried⟩ := h
    rw [hobserves.exchanges, hobserves.run]
    exact hcarried
  unfold searchBody
  -- The cases are those of the problems, in the order in which they are looked for.
  cases hread : SearchRequest.ofBytes body with
  | error e => exact ⟨[], _, w, (Observes.orFail _).bind_error, .unreadable hread⟩
  | ok r =>
    cases hname : isIndexName index with
    | false =>
      have hcheck : checkName index = .error (.invalidIndexName index) := by
        unfold checkName
        rw [hname]
        rfl
      refine ⟨[], _, w, .orFail_bind ?_, .misnamed hread hname⟩
      unfold search
      rw [hcheck]
      exact (Observes.orFail _).bind_error
    | true =>
      cases hplan : compile index r with
      | error e =>
        refine ⟨[], _, w, .orFail_bind ?_, .unplanned hread hname hplan⟩
        have hcheck : checkName index = .ok () := checkName_eq_ok.mpr hname
        unfold search
        rw [hcheck, hplan]
        exact .orFail_bind (Observes.orFail _).bind_error
      | ok p =>
        obtain ⟨t, answer, v, hobserves, hcarries⟩ := search_observes s w hname hplan
        obtain ⟨hsome, hcalls⟩ := hcarries.calls
        exact ⟨t, answer, v, .orFail_bind hobserves, .planned hread hname hplan
          (SearchRequest.ofBytes_ordered hread).labels (labels_of_compile hplan) hsome hcalls
          hcarries⟩

end Quarry.Engine
