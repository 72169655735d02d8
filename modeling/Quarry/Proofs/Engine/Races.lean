/-
# Requests to set up templates beside one another

A request puts its template into the registry in one step, and keeps it in the store in another.

* `InStep` — the store keeps the templates of the registry, in their order.
* `Racing` — the registry holds templates as requests came to their first turns, the store as they
  came to their second.
* `puts_beside_one_another` — when registry and store are in step once all requests are answered.
-/
import Quarry.Proofs.Engine.Interleaved
import Quarry.Proofs.Engine.Restarts

namespace Quarry.Engine

open Quarry.Engine.Program (World)
open Quarry.Outcome Quarry.Store Quarry.Store.Tables Quarry.Template

/-! ## In step -/

/-- The store loads the templates of the registry, which have different names. -/
structure InStep (w : World Tables) : Prop where
  loaded : w.store.loadTemplates = .ok w.registry.toList
  nodup : (w.registry.toList.map Prod.fst).Nodup

/-- A store that loads templates with different names is in step with the registry if and only if an
engine that is opened on it has the same templates. -/
theorem reopens_iff_inStep {w : World Tables} {l : List (String × Mapping)}
    (hload : w.store.loadTemplates = .ok l) (hnodup : (l.map Prod.fst).Nodup) :
    Reopens w ↔ InStep w := by
  have hplaced : placed [] l = l := placed_of_nodup (l := []) hnodup
  rw [reopens_iff]
  constructor
  · rintro ⟨l', hload', -, hlist⟩
    rw [hload] at hload'
    cases hload'
    rw [hplaced] at hlist
    exact ⟨by rw [hload, hlist], by rw [hlist]; exact hnodup⟩
  · rintro ⟨hloaded, -⟩
    rw [hload] at hloaded
    obtain rfl := Except.ok.inj hloaded
    exact ⟨_, hload, fun e he => Registry.isReadable_of_mem_toList he, hplaced.symm⟩

/-! ## One request -/

/-- What is left to do of a request after a number of steps. -/
def stage (name : String) (r : TemplateRequest) : Nat → Program (Except Error Mapping)
  | 0 => attempt (putTemplate name r)
  | 1 => attempt (do
    call (.saveTemplate name r.mapping)
    return r.mapping)
  | _ => .done (.ok r.mapping)

section

variable {name : String} {r : TemplateRequest}

/-- The first step puts the template into the registry. -/
theorem stage_zero (name : String) (h : r.mapping.IsReadable) (w : World Tables) :
    ∃ registry : Registry, registry.toList = replaceOrAppend name r.mapping w.registry.toList ∧
    (stage name r 0).step Tables.store w = (stage name r 1, { w with registry := registry }) := by
  obtain ⟨registry, hput⟩ := Registry.exists_put h w.registry name
  have hstep : (stage name r 0).step Tables.store w =
      (attempt (do
        ExceptT.mk (.done (Program.registerIn w.registry name r.mapping).1)
        call (.saveTemplate name r.mapping)
        return r.mapping),
        { w with registry := (Program.registerIn w.registry name r.mapping).2 }) := rfl
  refine ⟨registry, (Registry.put_eq_ok.mp hput).2, ?_⟩
  rw [hstep, Program.registerIn, hput]
  rfl

/-- The second keeps it in the store. -/
theorem stage_one (w : World Tables) : (stage name r 1).step Tables.store w =
    (stage name r 2, { w with store := { w.store with
      templates := keep (rowOf name r.mapping) w.store.templates } }) := by
  have hstep : (stage name r 1).step Tables.store w =
      (attempt (do
        ExceptT.mk (.done ((Tables.store.perform (.saveTemplate name r.mapping) w.store).1.mapError
          .storage))
        return r.mapping),
        { w with store := (Tables.store.perform (.saveTemplate name r.mapping) w.store).2 }) := rfl
  rw [hstep, perform_saveTemplate]
  rfl

/-- There is no third. -/
theorem stage_done (k : Nat) (w : World Tables) :
    (stage name r (k + 2)).step Tables.store w = (stage name r (k + 3), w) := rfl

theorem answer?_stage (k : Nat) :
    (stage name r k).answer? = if 2 ≤ k then some (.ok r.mapping) else none := by
  match k with
  | 0 => rfl
  | 1 => rfl
  | k + 2 =>
    rw [if_pos (Nat.le_add_left 2 k)]
    rfl

end

/-! ## Several requests -/

/-- What some of the requests set up. -/
def calls (xs : List (String × TemplateRequest)) (parties : List Nat) : List (String × Mapping) :=
  parties.filterMap fun i => xs[i]?.map fun x => (x.1, x.2.mapping)

theorem calls_append (xs : List (String × TemplateRequest)) (parties more : List Nat) :
    calls xs (parties ++ more) = calls xs parties ++ calls xs more := List.filterMap_append

theorem calls_singleton {xs : List (String × TemplateRequest)} {i : Nat}
    {x : String × TemplateRequest} (h : xs[i]? = some x) :
    calls xs [i] = [(x.1, x.2.mapping)] := by
  simp [calls, h]

/-- Requests that all begin at once. -/
def begun (w : World Tables) (xs : List (String × TemplateRequest)) :
    Crowd Tables (Except Error Mapping) :=
  ⟨xs.map fun x => attempt (putTemplate x.1 x.2), w⟩

/-- Every request is as far as it had turns. -/
def InStages (xs : List (String × TemplateRequest)) (schedule : List Nat)
    (c : Crowd Tables (Except Error Mapping)) : Prop :=
  ∀ i, c.parties[i]? = xs[i]?.map fun x => stage x.1 x.2 (schedule.count i)

/-- The registry holds what was set up as the requests came to their first turns, and the store as
they came to their second. -/
structure Racing (l : List (String × Mapping)) (xs : List (String × TemplateRequest))
    (schedule : List Nat) (c : Crowd Tables (Except Error Mapping)) : Prop where
  stages : InStages xs schedule c
  registry : c.world.registry.toList = placed l (calls xs (turns 0 schedule))
  store : c.world.store.loadTemplates = .ok (placed l (calls xs (turns 1 schedule)))

section

variable {l : List (String × Mapping)} {xs : List (String × TemplateRequest)}
  {schedule : List Nat} {c : Crowd Tables (Except Error Mapping)} {i : Nat}

/-- A turn brings a request to its next stage. -/
theorem InStages.advance (h : InStages xs schedule c) {x : String × TemplateRequest}
    (hx : xs[i]? = some x) {w : World Tables}
    (hstep : (stage x.1 x.2 (schedule.count i)).step Tables.store c.world =
      (stage x.1 x.2 (schedule.count i + 1), w)) :
    InStages xs (schedule ++ [i]) (c.advance Tables.store i) ∧
      (c.advance Tables.store i).world = w := by
  have hparty : c.parties[i]? = some (stage x.1 x.2 (schedule.count i)) := by
    rw [h i, hx]
    rfl
  constructor
  · intro j
    rw [Crowd.getElem?_advance hparty, hstep]
    by_cases hj : j = i
    · subst hj
      rw [if_pos rfl, count_concat_self, hx]
      rfl
    · rw [if_neg hj, count_concat_of_ne hj, h j]
  · rw [Crowd.advance_of_some hparty, hstep]

/-- A turn of a request that is not there changes nothing. -/
theorem InStages.advance_of_none (h : InStages xs schedule c) (hx : xs[i]? = none) :
    InStages xs (schedule ++ [i]) c ∧ c.advance Tables.store i = c := by
  constructor
  · intro j
    rw [h j]
    by_cases hj : j = i
    · subst hj
      rw [hx]
      rfl
    · rw [count_concat_of_ne hj]
  · rw [Crowd.advance_of_none]
    rw [h i, hx]
    rfl

/-- What is set up when one more request comes to a turn. -/
theorem calls_turns_concat (k : Nat) {x : String × TemplateRequest} (hx : xs[i]? = some x) :
    placed l (calls xs (turns k (schedule ++ [i]))) =
      if schedule.count i = k then
        replaceOrAppend x.1 x.2.mapping (placed l (calls xs (turns k schedule)))
      else placed l (calls xs (turns k schedule)) := by
  rw [turns_concat, calls_append]
  split_ifs
  · rw [calls_singleton hx, placed_concat]
  · exact congrArg _ (List.append_nil _)

/-- A party that is not there sets up nothing. -/
theorem calls_turns_of_none (k : Nat) (hx : xs[i]? = none) :
    calls xs (turns k (schedule ++ [i])) = calls xs (turns k schedule) := by
  rw [turns_concat, calls_append]
  split_ifs
  · rw [show calls xs [i] = [] by simp [calls, hx], List.append_nil]
  · exact List.append_nil _

/-- Whoever takes the next turn, this stays so. -/
theorem Racing.advance (hl : (l.map Prod.fst).Nodup) (hordered : ∀ x ∈ xs, x.2.Ordered)
    (hreadable : ∀ x ∈ xs, x.2.mapping.IsReadable) (h : Racing l xs schedule c) (i : Nat) :
    Racing l xs (schedule ++ [i]) (c.advance Tables.store i) := by
  cases hx : xs[i]? with
  | none =>
    obtain ⟨hstages, hsame⟩ := h.stages.advance_of_none hx
    rw [hsame]
    exact ⟨hstages, by rw [calls_turns_of_none 0 hx, h.registry],
      by rw [calls_turns_of_none 1 hx, h.store]⟩
  | some x =>
    have hmem : x ∈ xs := List.mem_of_getElem? hx
    -- The first turn changes the registry only, the second the store only, later ones nothing.
    match hcount : schedule.count i with
    | 0 =>
      obtain ⟨registry, hlist, hstep⟩ := stage_zero x.1 (hreadable x hmem) c.world
      obtain ⟨hstages, hworld⟩ := h.stages.advance hx (by rw [hcount]; exact hstep)
      refine ⟨hstages, ?_, ?_⟩
      · rw [hworld, calls_turns_concat 0 hx, if_pos hcount, ← h.registry]
        exact hlist
      · rw [hworld, calls_turns_concat 1 hx, if_neg (by omega)]
        exact h.store
    | 1 =>
      obtain ⟨hstages, hworld⟩ := h.stages.advance hx (by rw [hcount]; exact stage_one c.world)
      refine ⟨hstages, ?_, ?_⟩
      · rw [hworld, calls_turns_concat 0 hx, if_neg (by omega)]
        exact h.registry
      · rw [hworld, calls_turns_concat 1 hx, if_pos hcount, ← replaceAll_eq (nodup_placed hl _)]
        exact loadTemplates_saved h.store (hordered x hmem).mapping
    | k + 2 =>
      obtain ⟨hstages, hworld⟩ := h.stages.advance hx (by rw [hcount]; exact stage_done k c.world)
      refine ⟨hstages, ?_, ?_⟩
      · rw [hworld, calls_turns_concat 0 hx, if_neg (by omega)]
        exact h.registry
      · rw [hworld, calls_turns_concat 1 hx, if_neg (by omega)]
        exact h.store

end

section

variable {w : World Tables} {xs : List (String × TemplateRequest)}

/-- So it is whatever the schedule. -/
theorem racing_after (hw : InStep w) (hordered : ∀ x ∈ xs, x.2.Ordered)
    (hreadable : ∀ x ∈ xs, x.2.mapping.IsReadable) (schedule : List Nat) :
    Racing w.registry.toList xs schedule ((begun w xs).after Tables.store schedule) := by
  induction schedule using List.reverseRecOn with
  | nil =>
    refine ⟨fun i => ?_, rfl, hw.loaded⟩
    exact List.getElem?_map
  | append_singleton schedule i ih =>
    rw [Crowd.after_concat]
    exact ih.advance hw.nodup hordered hreadable i

/-- Once all requests had two turns, what was put into the registry was kept, and nothing else. -/
theorem mem_calls_iff {schedule : List Nat} (hdone : ∀ i < xs.length, 2 ≤ schedule.count i)
    (e : String × Mapping) :
    e ∈ calls xs (turns 0 schedule) ↔ e ∈ calls xs (turns 1 schedule) := by
  have hturns : ∀ k < 2, ∀ i < xs.length, i ∈ turns k schedule := fun k hk i hi =>
    mem_turns.mpr (Nat.lt_of_lt_of_le hk (hdone i hi))
  have hmem : ∀ k < 2, (e ∈ calls xs (turns k schedule) ↔
      ∃ i : Nat, (xs[i]?.map fun x => (x.1, x.2.mapping)) = some e) := by
    intro k hk
    rw [calls, List.mem_filterMap]
    constructor
    · rintro ⟨i, -, hi⟩
      exact ⟨i, hi⟩
    · rintro ⟨i, hi⟩
      obtain ⟨x, hx, -⟩ := Option.map_eq_some_iff.mp hi
      exact ⟨i, hturns k hk i (List.getElem?_eq_some_iff.mp hx).1, hi⟩
  rw [hmem 0 (by decide), hmem 1 (by decide)]

/-- Requests beside one another are all answered with their mappings. The registry then holds the
templates as the requests came to their first turns, and the store keeps them as they came to their
second. These are the same, and an engine opened on the store has them, if and only if the requests
came alike to both. -/
theorem puts_beside_one_another (hw : InStep w) (hordered : ∀ x ∈ xs, x.2.Ordered)
    (hreadable : ∀ x ∈ xs, x.2.mapping.IsReadable) (schedule : List Nat) :
    let c := (begun w xs).after Tables.store schedule
    (∀ i x, xs[i]? = some x →
      c.answer? i = if 2 ≤ schedule.count i then some (.ok x.2.mapping) else none) ∧
    c.world.registry.toList = placed w.registry.toList (calls xs (turns 0 schedule)) ∧
    c.world.store.loadTemplates = .ok (placed w.registry.toList (calls xs (turns 1 schedule))) ∧
    ((∀ i < xs.length, 2 ≤ schedule.count i) →
      (InStep c.world ↔ ComeAlike (w.registry.toList.map Prod.fst)
        (calls xs (turns 0 schedule)) (calls xs (turns 1 schedule))) ∧
      (Reopens c.world ↔ InStep c.world)) := by
  intro c
  have hracing : Racing w.registry.toList xs schedule c :=
    racing_after hw hordered hreadable schedule
  refine ⟨fun i x hx => ?_, hracing.registry, hracing.store, fun hdone => ⟨?_, ?_⟩⟩
  · rw [Crowd.answer?, hracing.stages i, hx]
    exact answer?_stage (schedule.count i)
  · have hnames : ∀ name, name ∈ (calls xs (turns 0 schedule)).map Prod.fst ↔
        name ∈ (calls xs (turns 1 schedule)).map Prod.fst := by
      intro name
      simp only [List.mem_map, mem_calls_iff hdone]
    rw [← placed_eq_iff hw.nodup hnames]
    constructor
    · intro h
      have hloaded := h.loaded
      rw [hracing.store, hracing.registry] at hloaded
      exact (Except.ok.inj hloaded).symm
    · intro h
      refine ⟨?_, ?_⟩
      · rw [hracing.store, hracing.registry, h]
      · rw [hracing.registry]
        exact nodup_placed hw.nodup _
  · exact reopens_iff_inStep hracing.store (nodup_placed hw.nodup _)

end

/-- Two requests whose templates both apply to some index. -/
def crossing : List (String × TemplateRequest) :=
  [("first", ⟨"logs-*", [("at", ⟨"date", "epoch_second"⟩)]⟩),
    ("second", ⟨"*", [("at", ⟨"date", "epoch_millis"⟩)]⟩)]

/-- When the template that is registered first also is kept first, a restart changes nothing. -/
theorem puts_beside_one_another_example :
    let c := (begun { store := {} } crossing).after Tables.store [0, 1, 0, 1]
    c.answer? 0 = some (.ok ⟨"logs-.*", [("at", "epoch_second")]⟩) ∧ InStep c.world ∧
      Reopens c.world := by
  intro c
  have hw : InStep { store := {} } := ⟨rfl, List.nodup_nil⟩
  have hordered : ∀ x ∈ crossing, x.2.Ordered := by decide
  have hreadable : ∀ x ∈ crossing, x.2.mapping.IsReadable := by decide +kernel
  obtain ⟨hanswers, -, -, hdone⟩ :=
    puts_beside_one_another hw hordered hreadable [0, 1, 0, 1]
  obtain ⟨hstep, hopens⟩ := hdone (by decide)
  have hcalls : calls crossing (turns 0 [0, 1, 0, 1]) = calls crossing (turns 1 [0, 1, 0, 1]) := by
    decide
  have hinStep : InStep c.world := hstep.mpr ⟨by rw [hcalls], fun name => by rw [hcalls]⟩
  exact ⟨hanswers 0 _ rfl, hinStep, hopens.mpr hinStep⟩

/-- When the template that is registered last is kept first, another one applies to an index after a
restart. -/
theorem puts_cross : ∃ w,
    let c := (begun { store := {} } crossing).after Tables.store [0, 1, 1, 0]
    (c.answer? 0).isSome ∧ (c.answer? 1).isSome ∧
    c.world.registry.toList.map Prod.fst = ["first", "second"] ∧
    Opens c.world.store w ∧ w.registry.toList.map Prod.fst = ["second", "first"] ∧
    c.world.registry.lookup "logs-1" = some ⟨"logs-.*", [("at", "epoch_second")]⟩ ∧
    w.registry.lookup "logs-1" = some ⟨".*", [("at", "epoch_millis")]⟩ := by
  refine ⟨(onTables reloadTemplates
    { store := ((begun { store := {} } crossing).after Tables.store [0, 1, 1, 0]).world.store }).2,
    by decide +kernel, by decide +kernel, by decide +kernel, ⟨2, Prod.ext ?_ rfl⟩,
    by decide +kernel, by decide +kernel, by decide +kernel⟩
  decide +kernel

end Quarry.Engine
