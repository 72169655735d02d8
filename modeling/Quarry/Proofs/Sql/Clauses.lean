/-
# The clauses of statements made by steps

Each clause of a statement holds what the steps for it added, in their order. Steps for different
clauses do not affect one another.

* `Select.Step.column?` and others — what a step adds to a clause.
* `Select.step_eq`, `Select.build_eq` — the clauses after one step, and after some.
* `Select.AddAlike` — sequences of steps that add the same to every clause.
* `SelectText.Clause`, `SelectText.HasClauses` — the clauses of a statement, in their fixed order.
* `SelectText.sql_build` — the text of a statement made by steps.
-/
import Mathlib.Data.List.ReduceOption
import Quarry.Sql.Select

namespace Quarry.Sql

open Quarry.Text

/-! ## Steps -/

namespace Select

section

variable {κ ε δ : Type}

namespace Step

/-- The column that a step adds. -/
def column? : Step κ ε δ → Option (Column κ)
  | .column expr name => some ⟨expr, name⟩
  | _ => none

/-- The table that a step sets. -/
def source? : Step κ ε δ → Option Source
  | .source table name => some ⟨table, name⟩
  | _ => none

/-- The predicate that a step adds. -/
def predicate? : Step κ ε δ → Option ε
  | .predicate expr => some expr
  | _ => none

/-- The group that a step adds. -/
def group? : Step κ ε δ → Option ε
  | .group expr => some expr
  | _ => none

/-- The key of the order that a step adds. -/
def order? : Step κ ε δ → Option (OrderKey ε δ)
  | .order expr direction => some ⟨expr, direction⟩
  | _ => none

/-- The limit that a step sets. -/
def limit? : Step κ ε δ → Option Nat
  | .limit n => some n
  | _ => none

/-- The offset that a step sets. -/
def offset? : Step κ ε δ → Option Nat
  | .offset n => some n
  | _ => none

end Step

/-- A step adds to the end of one list, or replaces one value. -/
theorem step_eq (s : Select κ ε δ) (a : Step κ ε δ) :
    s.step a =
      { columns := s.columns ++ a.column?.toList
        source := a.source?.or s.source
        predicates := s.predicates ++ a.predicate?.toList
        groups := s.groups ++ a.group?.toList
        order := s.order ++ a.order?.toList
        limit := a.limit?.or s.limit
        offset := a.offset?.or s.offset } := by
  cases a <;> simp [step, Step.column?, Step.source?, Step.predicate?, Step.group?, Step.order?,
    Step.limit?, Step.offset?]

theorem filterMap_cons_toList {α β : Type} (f : α → Option β) (a : α) (l : List α) :
    (a :: l).filterMap f = (f a).toList ++ l.filterMap f := by
  cases h : f a <;> simp [h]

/-- The last value set is that of the first step only if no later one sets it. -/
theorem getLast?_filterMap_cons {α β : Type} (f : α → Option β) (a : α) (l : List α)
    (o : Option β) :
    ((a :: l).filterMap f).getLast?.or o = (l.filterMap f).getLast?.or ((f a).or o) := by
  rw [filterMap_cons_toList]
  cases f a with
  | none => rfl
  | some b => rw [Option.toList_some, List.singleton_append, List.getLast?_cons, Option.some_or,
      Option.some_or, Option.or_some]

/-- The clauses after some steps: the lists are longer by what the steps add, in the order of the
steps, and of the other values the last one counts. -/
theorem foldl_step (s : Select κ ε δ) (steps : List (Step κ ε δ)) :
    steps.foldl step s =
      { columns := s.columns ++ steps.filterMap Step.column?
        source := (steps.filterMap Step.source?).getLast?.or s.source
        predicates := s.predicates ++ steps.filterMap Step.predicate?
        groups := s.groups ++ steps.filterMap Step.group?
        order := s.order ++ steps.filterMap Step.order?
        limit := (steps.filterMap Step.limit?).getLast?.or s.limit
        offset := (steps.filterMap Step.offset?).getLast?.or s.offset } := by
  induction steps generalizing s with
  | nil => simp
  | cons a rest ih =>
    rw [List.foldl_cons, ih, step_eq]
    simp only [List.append_assoc, ← filterMap_cons_toList, ← getLast?_filterMap_cons]

/-- A statement made by steps, clause by clause. -/
theorem build_eq (steps : List (Step κ ε δ)) :
    build steps =
      { columns := steps.filterMap Step.column?
        source := (steps.filterMap Step.source?).getLast?
        predicates := steps.filterMap Step.predicate?
        groups := steps.filterMap Step.group?
        order := steps.filterMap Step.order?
        limit := (steps.filterMap Step.limit?).getLast?
        offset := (steps.filterMap Step.offset?).getLast? } := by
  rw [build, foldl_step]
  simp

/-- Sequences of steps add the same to every clause: the steps for one list are the same in the same
order, and of the steps that set one value the last ones are. -/
structure AddAlike (steps steps' : List (Step κ ε δ)) : Prop where
  columns : steps.filterMap Step.column? = steps'.filterMap Step.column?
  source : (steps.filterMap Step.source?).getLast? = (steps'.filterMap Step.source?).getLast?
  predicates : steps.filterMap Step.predicate? = steps'.filterMap Step.predicate?
  groups : steps.filterMap Step.group? = steps'.filterMap Step.group?
  order : steps.filterMap Step.order? = steps'.filterMap Step.order?
  limit : (steps.filterMap Step.limit?).getLast? = (steps'.filterMap Step.limit?).getLast?
  offset : (steps.filterMap Step.offset?).getLast? = (steps'.filterMap Step.offset?).getLast?

/-- Such steps make one statement. -/
theorem AddAlike.build_eq {steps steps' : List (Step κ ε δ)} (h : AddAlike steps steps') :
    build steps = build steps' := by
  rw [Select.build_eq, Select.build_eq, h.columns, h.source, h.predicates, h.groups, h.order,
    h.limit, h.offset]

end

end Select

/-! ## Clauses -/

namespace SelectText

open Select

/-- A clause that is written. -/
inductive Clause where
  | columns (cs : List (Column String))
  | source (s : Option Source)
  /-- The predicate that holds of every row, where there is no other. -/
  | everyRow
  | predicates (ps : List String)
  | groups (gs : List String)
  | order (ks : List (OrderKey String String))
  | limit (n : Nat)
  | offset (n : Nat)

namespace Clause

/-- The place of a clause in a statement. -/
def place : Clause → Nat
  | .columns _ => 0
  | .source _ => 1
  | .everyRow => 2
  | .predicates _ => 2
  | .groups _ => 3
  | .order _ => 4
  | .limit _ => 5
  | .offset _ => 6

/-- The text of a clause. -/
def sql : Clause → String
  | .columns cs => "SELECT " ++ ", ".intercalate (cs.map fun c => c.expr ++ " AS " ++ c.name)
  | .source s => "FROM " ++ (s.map Source.sql).getD ""
  | .everyRow => "WHERE 1 = 1"
  | .predicates ps => "WHERE " ++ " AND ".intercalate ps
  | .groups gs => "GROUP BY " ++ ", ".intercalate gs
  | .order ks => "ORDER BY " ++ ", ".intercalate (ks.map fun k => k.expr ++ " " ++ k.direction)
  | .limit n => "LIMIT " ++ Digits.ofNat n
  | .offset n => "OFFSET " ++ Digits.ofNat n

end Clause

/-- The clauses of a statement made by steps, in their fixed order. Each holds what the steps for it
added, in the order of the steps. -/
structure HasClauses (steps : List (Step String String String)) (cs : List Clause) : Prop where
  ordered : cs.Pairwise fun a b => a.place < b.place
  columns : ∀ l, .columns l ∈ cs ↔ l = steps.filterMap Step.column?
  source : ∀ s, .source s ∈ cs ↔ s = (steps.filterMap Step.source?).getLast?
  everyRow : .everyRow ∈ cs ↔ steps.filterMap Step.predicate? = []
  predicates : ∀ ps, .predicates ps ∈ cs ↔ ps = steps.filterMap Step.predicate? ∧ ps ≠ []
  groups : ∀ gs, .groups gs ∈ cs ↔ gs = steps.filterMap Step.group? ∧ gs ≠ []
  order : ∀ ks, .order ks ∈ cs ↔ ks = steps.filterMap Step.order? ∧ ks ≠ []
  limit : ∀ n, .limit n ∈ cs ↔ (steps.filterMap Step.limit?).getLast? = some n
  /-- An offset is written beside a limit only, and only if it leaves something out. -/
  offset : ∀ n, .offset n ∈ cs ↔ (∃ m, (steps.filterMap Step.limit?).getLast? = some m) ∧
    (steps.filterMap Step.offset?).getLast? = some n ∧ 0 < n

/-! ## Text -/

theorem separated_eq (between : String) (l : List String) :
    separated between l = between.intercalate l := by
  induction l with
  | nil => rw [separated, String.intercalate_nil]
  | cons a rest ih =>
    cases rest with
    | nil => rw [separated, String.intercalate_singleton]
    | cons b rest => rw [separated, ih, String.intercalate_cons_cons]

/-- The clause of the predicates. -/
def whereClause : List String → Clause
  | [] => .everyRow
  | p :: ps => .predicates (p :: ps)

/-- The clause of the groups, if there are any. -/
def groupClause? : List String → Option Clause
  | [] => none
  | g :: gs => some (.groups (g :: gs))

/-- The clause of the order, if there is one. -/
def orderClause? : List (OrderKey String String) → Option Clause
  | [] => none
  | k :: ks => some (.order (k :: ks))

/-- The clause of the offset, where it is written. -/
def offsetClause? : (limit offset : Option Nat) → Option Clause
  | some _, some (n + 1) => some (.offset (n + 1))
  | _, _ => none

/-- The clauses of a statement behind its columns, where they are written. -/
def clausesAfter (s : SelectText) : List (Option Clause) :=
  [some (.source s.source), some (whereClause s.predicates), groupClause? s.groups,
    orderClause? s.order, s.limit.map .limit, offsetClause? s.limit s.offset]

/-- The clauses of a statement that are written. -/
def clauses (s : SelectText) : List Clause := .columns s.columns :: s.clausesAfter.reduceOption

/-- The text of clauses behind others, each after a space. -/
def behind : List (Option Clause) → String
  | [] => ""
  | none :: rest => behind rest
  | some c :: rest => " " ++ c.sql ++ behind rest

theorem intercalate_reduceOption (c : Clause) (rest : List (Option Clause)) :
    " ".intercalate ((c :: rest.reduceOption).map Clause.sql) = c.sql ++ behind rest := by
  induction rest generalizing c with
  | nil => rw [List.reduceOption_nil, List.map_singleton, String.intercalate_singleton, behind,
      String.append_empty]
  | cons o rest ih =>
    cases o with
    | none => rw [List.reduceOption_cons_of_none, ih, behind]
    | some d =>
      rw [List.reduceOption_cons_of_some, List.map_cons, List.map_cons,
        String.intercalate_cons_cons, ← List.map_cons, ih, behind]
      simp only [String.append_assoc]

section

variable (rest : List (Option Clause))

theorem behind_where (ps : List String) :
    behind (some (whereClause ps) :: rest) = whereSql ps ++ behind rest := by
  cases ps with
  | nil => rfl
  | cons p ps =>
    show " " ++ ("WHERE " ++ " AND ".intercalate (p :: ps)) ++ behind rest =
      " WHERE " ++ separated " AND " (p :: ps) ++ behind rest
    rw [separated_eq, ← String.append_assoc]
    rfl

theorem behind_groups (gs : List String) :
    behind (groupClause? gs :: rest) = groupSql gs ++ behind rest := by
  cases gs with
  | nil => exact String.empty_append.symm
  | cons g gs =>
    show " " ++ ("GROUP BY " ++ ", ".intercalate (g :: gs)) ++ behind rest =
      " GROUP BY " ++ separated ", " (g :: gs) ++ behind rest
    rw [separated_eq, ← String.append_assoc]
    rfl

theorem behind_order (ks : List (OrderKey String String)) :
    behind (orderClause? ks :: rest) = orderSql ks ++ behind rest := by
  cases ks with
  | nil => exact String.empty_append.symm
  | cons k ks =>
    show " " ++ ("ORDER BY " ++ ", ".intercalate _) ++ behind rest =
      " ORDER BY " ++ separated ", " _ ++ behind rest
    rw [separated_eq, ← String.append_assoc]
    rfl

theorem behind_limit (limit offset : Option Nat) :
    behind [limit.map .limit, offsetClause? limit offset] = limitSql limit offset := by
  rcases limit with _ | m
  · rfl
  · rcases offset with _ | n | n <;>
      simp [behind, offsetClause?, limitSql, Clause.sql, ← String.append_assoc]

end

/-- The text of a statement is that of its clauses. -/
theorem sql_eq (s : SelectText) : s.sql = " ".intercalate (s.clauses.map Clause.sql) := by
  rw [clauses, intercalate_reduceOption, clausesAfter, behind, behind_where, behind_groups,
    behind_order, behind_limit, sql, separated_eq]
  simp only [Clause.sql, String.append_assoc]
  rfl

/-! ## Clauses that are written -/

section

variable {c : Clause} {ps gs : List String} {ks : List (OrderKey String String)}
  {limit offset : Option Nat}

theorem eq_whereClause : c = whereClause ps ↔
    (c = .everyRow ∧ ps = []) ∨ (c = .predicates ps ∧ ps ≠ []) := by
  cases ps <;> simp [whereClause]

theorem some_eq_groupClause? : some c = groupClause? gs ↔ c = .groups gs ∧ gs ≠ [] := by
  cases gs <;> simp [groupClause?]

theorem some_eq_orderClause? : some c = orderClause? ks ↔ c = .order ks ∧ ks ≠ [] := by
  cases ks <;> simp [orderClause?]

theorem some_eq_map_limit :
    some c = limit.map Clause.limit ↔ ∃ n, c = .limit n ∧ limit = some n := by
  cases limit <;> simp

theorem some_eq_offsetClause? : some c = offsetClause? limit offset ↔
    ∃ n, c = .offset n ∧ (∃ m, limit = some m) ∧ offset = some n ∧ 0 < n := by
  rcases limit with _ | m
  · simp [offsetClause?]
  · rcases offset with _ | n | n <;> simp [offsetClause?]

end

/-- Which clauses are written. -/
theorem mem_clauses {s : SelectText} {c : Clause} : c ∈ s.clauses ↔
    c = .columns s.columns ∨ c = .source s.source ∨
      ((c = .everyRow ∧ s.predicates = []) ∨ (c = .predicates s.predicates ∧ s.predicates ≠ [])) ∨
      (c = .groups s.groups ∧ s.groups ≠ []) ∨ (c = .order s.order ∧ s.order ≠ []) ∨
      (∃ n, c = .limit n ∧ s.limit = some n) ∨
      ∃ n, c = .offset n ∧ (∃ m, s.limit = some m) ∧ s.offset = some n ∧ 0 < n := by
  rw [clauses, List.mem_cons, List.reduceOption_mem_iff, clausesAfter]
  simp only [List.mem_cons, List.not_mem_nil, or_false, Option.some.injEq, eq_whereClause,
    some_eq_groupClause?, some_eq_orderClause?, some_eq_map_limit, some_eq_offsetClause?]

/-- Clauses are written in the order of their places. -/
theorem pairwise_clauses (s : SelectText) :
    s.clauses.Pairwise fun a b => a.place < b.place := by
  have hwhere : (whereClause s.predicates).place = 2 := by cases s.predicates <;> rfl
  have hgroups : ∀ c ∈ groupClause? s.groups, c.place = 3 := by
    intro c hc
    rw [(some_eq_groupClause?.mp hc.symm).1, Clause.place]
  have horder : ∀ c ∈ orderClause? s.order, c.place = 4 := by
    intro c hc
    rw [(some_eq_orderClause?.mp hc.symm).1, Clause.place]
  have hlimit : ∀ c ∈ s.limit.map Clause.limit, c.place = 5 := by
    intro c hc
    obtain ⟨n, rfl, -⟩ := some_eq_map_limit.mp hc.symm
    rfl
  have hoffset : ∀ c ∈ offsetClause? s.limit s.offset, c.place = 6 := by
    intro c hc
    obtain ⟨n, rfl, -⟩ := some_eq_offsetClause?.mp hc.symm
    rfl
  -- Each clause that is written has the place of its position among all of them.
  show (List.filterMap id (some (.columns s.columns) :: s.clausesAfter)).Pairwise _
  rw [List.pairwise_filterMap, clausesAfter]
  simp only [List.pairwise_cons, List.mem_cons, List.not_mem_nil, id]
  grind [Clause.place]

/-- The clauses that are written of a statement made by steps. -/
theorem hasClauses_build (steps : List (Step String String String)) :
    HasClauses steps (clauses (build steps)) := by
  -- A list that is written whole and the list of what was added are empty together.
  have hsame : ∀ {α : Type} (l l' : List α), (l = l' ∧ l' ≠ []) ↔ (l = l' ∧ l ≠ []) :=
    fun l l' => and_congr_right fun h => h ▸ Iff.rfl
  rw [Select.build_eq]
  refine ⟨pairwise_clauses _, fun l => ?_, fun s => ?_, ?_, fun ps => ?_, fun gs => ?_,
    fun ks => ?_, fun n => ?_, fun n => ?_⟩ <;>
    rw [mem_clauses] <;>
    simp only [reduceCtorEq, false_and, exists_false, false_or, or_false, true_and,
      Clause.columns.injEq, Clause.source.injEq, Clause.predicates.injEq, Clause.groups.injEq,
      Clause.order.injEq, Clause.limit.injEq, Clause.offset.injEq, exists_eq_left', hsame]

/-! ## Statements made by steps -/

/-- Steps that add the same to every clause make the same text, in whatever order they come; and the
text of a statement made by steps is that of its clauses one after another, in their fixed order. -/
theorem sql_build :
    (∀ steps steps' : List (Step String String String), AddAlike steps steps' →
      sql (build steps) = sql (build steps')) ∧
    ∀ steps : List (Step String String String), ∃ cs, HasClauses steps cs ∧
      sql (build steps) = " ".intercalate (cs.map Clause.sql) := by
  constructor
  · intro steps steps' h
    rw [h.build_eq]
  · intro steps
    exact ⟨_, hasClauses_build steps, sql_eq _⟩

/-- The steps for the buckets of a field, with the order and the limit first and the table once
replaced. -/
def bucketSteps : List (Step String String String) :=
  [.offset 4, .column "JSON_EXTRACT(content, '$.service')" "g1", .column "COUNT(*)" "f1",
    .order "f1" "DESC", .limit 9, .order "g1" "ASC", .limit 3, .source "traces" none,
    .predicate "a = 1", .source "spans" (some "t0"), .group "g1", .predicate "b = 'x'"]

/-- The same steps in the order of the clauses. -/
def bucketStepsByClause : List (Step String String String) :=
  [.column "JSON_EXTRACT(content, '$.service')" "g1", .column "COUNT(*)" "f1",
    .source "spans" (some "t0"), .predicate "a = 1", .predicate "b = 'x'", .group "g1",
    .order "f1" "DESC", .order "g1" "ASC", .limit 3, .offset 4]

/-- Both make one text. -/
theorem sql_build_example :
    AddAlike bucketSteps bucketStepsByClause ∧
      sql (build bucketSteps) = sql (build bucketStepsByClause) ∧
      sql (build bucketSteps) =
        "SELECT JSON_EXTRACT(content, '$.service') AS g1, COUNT(*) AS f1 FROM \"spans\" AS t0" ++
          " WHERE a = 1 AND b = 'x' GROUP BY g1 ORDER BY f1 DESC, g1 ASC LIMIT 3 OFFSET 4" := by
  have halike : AddAlike bucketSteps bucketStepsByClause := ⟨rfl, rfl, rfl, rfl, rfl, rfl, rfl⟩
  exact ⟨halike, sql_build.1 _ _ halike, by decide +kernel⟩

end SelectText

end Quarry.Sql
