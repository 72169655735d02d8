/-
# Requests that write beside one another

Requests that make indices and put documents into them take their steps in any order.

* `Answered` — what a request is answered, with the rows that were put into tables so far.
* `At` — how far a request is, and how many steps it has left at most.
* `Crowding` — all requests are somewhere on their way, and the tables have the rows that they had
  and those that the requests put there. `Crowding.advance` — it stays so with every step.
* `writes_beside_one_another` — no document is lost, and none is there twice.
-/
import Quarry.Proofs.Engine.Writes

namespace Quarry.Engine

open Quarry.Engine.Program (World)
open Quarry.Json Quarry.Sql Quarry.Store Quarry.Store.Tables Quarry.Template

/-! ## One request -/

/-- A row that one of the requests put into a table. -/
structure Insertion where
  party : Nat
  index : String
  row : TableRow
  deriving DecidableEq, Repr

/-- What a request is answered: whether an index is new, the number of a document that was put into
its table, or why it was not. -/
inductive Answered (r : Registry) (log : List Insertion) (i : Nat) :
    Write → Except Error Reply → Prop where
  | made (index : String) (isNew : Bool) : Answered r log i (.create index) (.ok (.made isNew))
  | failed {index : String} {d : Json} {e : Error}
    (h : writeDocument (r.lookup index) d = .error e) : Answered r log i (.put index d) (.error e)
  | tooDeep {index : String} {d stored : Json} (h : writeDocument (r.lookup index) d = .ok stored)
    (hdeep : Verbatim.nestingLimit < stored.nesting) :
    Answered r log i (.put index d)
      (.error (.storage (.reported Failure.malformedDocument.message)))
  | indexed {index : String} {d stored : Json} {id : Nat}
    (h : writeDocument (r.lookup index) d = .ok stored)
    (hdeep : stored.nesting ≤ Verbatim.nestingLimit)
    (hlog : ⟨i, index, ⟨id, stored.text⟩⟩ ∈ log) :
    Answered r log i (.put index d) (.ok (.indexed id))

/-- How far a request is: it has some steps left at most. Once it is past its table, this is
there. -/
inductive At (r : Registry) (t : Tables) (log : List Insertion) (i : Nat) :
    Nat → Write → Program (Except Error Reply) → Prop where
  | looking (x : Write) : At r t log i 4 x x.program
  | making (x : Write) : At r t log i 3 x (x.goOn (makeTable x.index))
  | choosing {index : String} (d : Json) (isNew : Bool) (h : (t.rows? index).isSome = true) :
    At r t log i 2 (.put index d) ((Write.put index d).goOn (pure isNew))
  | inserting {index : String} {d stored : Json} (h : (t.rows? index).isSome = true)
    (hstored : writeDocument (r.lookup index) d = .ok stored) :
    At r t log i 1 (.put index d) (Write.inserting index stored)
  | done {x : Write} {a : Except Error Reply} (h : Answered r log i x a) : At r t log i 0 x (.done a)

/-- What one step of a request does to the tables. -/
inductive Effect (i : Nat) : Write → Tables → List Insertion → Program (Except Error Reply) →
    Tables → List Insertion → Prop where
  | none {x : Write} {t : Tables} {log : List Insertion} (p : Program (Except Error Reply)) :
    Effect i x t log p t log
  | created {x : Write} {t t' : Tables} {log : List Insertion} (p : Program (Except Error Reply))
    (h : t.create x.index = .ok t') : Effect i x t log p t' log
  | inserted {index text : String} {d : Json} {t t' : Tables} {log : List Insertion} {id : Nat}
    (h : t.insert index text = .ok (id, t'))
    (hkept : ∀ v, Verbatim.ofText? text = some v → v.text = text) :
    Effect i (.put index d) t log (.done (.ok (.indexed id))) t' (log ++ [⟨i, index, ⟨id, text⟩⟩])

section

variable {r : Registry} {t t' : Tables} {log log' : List Insertion} {i left : Nat} {x : Write}
  {p : Program (Except Error Reply)}

theorem Effect.grows (h : Effect i x t log p t' log') : Grows t t' := by
  cases h with
  | none => exact .refl t
  | created p h => exact (Change.create h : Change _ (fun _ => True) _ _).grows
  | inserted h hkept => exact (Change.insert trivial h : Change _ (fun _ => True) _ _).grows

theorem Effect.subset (h : Effect i x t log p t' log') : log ⊆ log' := by
  cases h with
  | none => exact List.Subset.refl log
  | created => exact List.Subset.refl log
  | inserted => exact List.subset_append_left log _

/-- The rows of every table are those that it had, and the one that was put there. -/
theorem Effect.rowsOf (h : Effect i x t log p t' log') {name : String} {rows : List TableRow}
    (hrows : t.rowsOf name =
      rows ++ (log.filter fun e => sameName e.index name).map Insertion.row) :
    t'.rowsOf name = rows ++ (log'.filter fun e => sameName e.index name).map Insertion.row := by
  cases h with
  | none => exact hrows
  | created p h => rw [rowsOf_created h, hrows]
  | @inserted index text d _ _ _ id h hkept =>
    obtain ⟨v, hv, -, hafter⟩ := rowsOf_inserted h
    rw [hafter name, hkept v hv, List.filter_append, List.map_append, hrows, List.append_assoc]
    cases hname : sameName index name <;> simp [hname]

theorem Effect.rising (h : Effect i x t log p t' log') (hrising : ∀ name, Rising (t.rowsOf name))
    (name : String) : Rising (t'.rowsOf name) := by
  cases h with
  | none => exact hrising name
  | created p h =>
    rw [rowsOf_created h]
    exact hrising name
  | @inserted index text d _ _ _ id h hkept =>
    obtain ⟨v, -, rfl, hafter⟩ := rowsOf_inserted h
    rw [hafter name]
    split_ifs with hname
    · have hsame : t.rowsOf name = t.rowsOf index := by
        rw [Tables.rowsOf, rows?, ← find?_congr hname]
        rfl
      rw [hsame]
      exact (hrising index).concat v.text
    · exact hrising name

/-- What a step puts into a table is what the request is answered. -/
theorem Effect.mem (h : Effect i x t log p t' log') {e : Insertion} (he : e ∈ log') :
    e ∈ log ∨ e.party = i ∧ (∃ d, x = .put e.index d) ∧ p = .done (.ok (.indexed e.row.id)) := by
  cases h with
  | none => exact .inl he
  | created => exact .inl he
  | inserted h hkept =>
    rcases List.mem_append.mp he with he | he
    · exact .inl he
    · rw [List.mem_singleton.mp he]
      exact .inr ⟨rfl, ⟨_, rfl⟩, rfl⟩

theorem Effect.templates (h : Effect i x t log p t' log') : t'.templates = t.templates := by
  cases h with
  | none => rfl
  | created p h => exact templates_created h
  | inserted h hkept => exact templates_inserted h

/-- An answer stands while rows are added. -/
theorem Answered.mono {a : Except Error Reply} (h : Answered r log i x a) (hlog : log ⊆ log') :
    Answered r log' i x a := by
  cases h with
  | made index isNew => exact .made index isNew
  | failed h => exact .failed h
  | tooDeep h hdeep => exact .tooDeep h hdeep
  | indexed h hdeep hmem => exact .indexed h hdeep (hlog hmem)

/-- A request stays where it is while others go on. -/
theorem At.mono (h : At r t log i left x p) (ht : Grows t t') (hlog : log ⊆ log') :
    At r t' log' i left x p := by
  have hthere : ∀ {index : String}, (t.rows? index).isSome = true →
      (t'.rows? index).isSome = true := by
    intro index h
    obtain ⟨rows, hrows⟩ := Option.isSome_iff_exists.mp h
    obtain ⟨more, hmore⟩ := ht.rows index rows hrows
    rw [hmore]
    rfl
  cases h with
  | looking => exact .looking x
  | making => exact .making x
  | choosing d isNew h => exact .choosing d isNew (hthere h)
  | inserting h hstored => exact .inserting (hthere h) hstored
  | done h => exact .done (h.mono hlog)

/-- A request that is past its table has two steps left, or none. -/
theorem At.entered (r : Registry) (log : List Insertion) (i : Nat) (x : Write) (isNew : Bool)
    (h : (t.rows? x.index).isSome = true) :
    ∃ left ≤ 2, At r t log i left x (x.goOn (pure isNew)) := by
  cases x with
  | create index => exact ⟨0, Nat.zero_le 2, .done (.made index isNew)⟩
  | put index d => exact ⟨2, Nat.le_refl 2, .choosing d isNew h⟩

/-- A table that exists under its name is found. -/
theorem isSome_rows?_of_contains {index : String} (hname : isIndexName index = true)
    (h : t.contains index = true) : (t.rows? index).isSome = true := by
  obtain ⟨rows, hrows⟩ := rows?_of_mem_names ((contains_iff_mem_names hname).mp h)
  rw [hrows]
  rfl

/-- A table can be made for every index. -/
theorem exists_create (hx : x.IsSound) (t : Tables) : ∃ t', t.create x.index = .ok t' ∧
    (t'.rows? x.index).isSome = true := by
  have htemplates := sameName_templatesTable hx.name
  have hwritable := isWritable_of_isIndexName hx.name
  cases hfind : t.find? x.index with
  | some table =>
    have hcreate : t.create x.index = .ok t := create_eq_ok.mpr
      ⟨hx.notReserved, hwritable, .inl ⟨.inl (by rw [hfind]; rfl), rfl⟩⟩
    exact ⟨t, hcreate, isSome_rows?_created hcreate htemplates⟩
  | none =>
    have hcreate : t.create x.index =
        .ok { t with tables := t.tables ++ [⟨x.index, []⟩] } := create_eq_ok.mpr
      ⟨hx.notReserved, hwritable, .inr ⟨hfind, htemplates, rfl⟩⟩
    exact ⟨_, hcreate, isSome_rows?_created hcreate htemplates⟩

/-- A document that is not nested too deeply is put into its table; any other is refused. -/
theorem At.step_inserting (log : List Insertion) (i : Nat) {w : World Tables} {index : String}
    {d stored : Json} (hd : d.Writable)
    (hthere : (w.store.rows? index).isSome = true)
    (hstored : writeDocument (r.lookup index) d = .ok stored) :
    ∃ p' t' log', (Write.inserting index stored).step Tables.store w =
        (p', { w with store := t' }) ∧
      Effect i (.put index d) w.store log p' t' log' ∧ At r t' log' i 0 (.put index d) p' := by
  have hwritable := writeDocument_writable hd hstored
  have htext := Verbatim.ofText?_text hwritable
  rw [Write.step_inserting]
  by_cases hdeep : stored.nesting ≤ Verbatim.nestingLimit
  · rw [if_pos hdeep] at htext
    obtain ⟨id, t', hinsert⟩ := exists_insert hthere htext
    have hkept : ∀ v, Verbatim.ofText? stored.text = some v → v.text = stored.text := by
      intro v hv
      rw [htext] at hv
      rw [← Option.some.inj hv, Verbatim.text_ofJson hwritable]
    rw [hinsert]
    exact ⟨_, t', _, rfl, .inserted hinsert hkept,
      .done (.indexed hstored hdeep (List.mem_append_right log (List.mem_singleton_self _)))⟩
  · rw [if_neg hdeep] at htext
    rw [insert_malformed hthere htext]
    exact ⟨_, w.store, log, rfl, .none _, .done (.tooDeep hstored (Nat.lt_of_not_le hdeep))⟩

/-- A step brings a request further, if it has one left. -/
theorem At.step (hx : x.IsSound) {w : World Tables} (hr : w.registry = r)
    (h : At r w.store log i left x p) :
    ∃ p' t' log', p.step Tables.store w = (p', { w with store := t' }) ∧
      Effect i x w.store log p' t' log' ∧ ∃ left' ≤ left - 1, At r t' log' i left' x p' := by
  obtain rfl := hr
  cases h with
  | looking =>
    refine ⟨_, w.store, log, Write.step_looking hx, .none _, ?_⟩
    cases hthere : w.store.contains x.index with
    | true =>
      have hrows := isSome_rows?_of_contains hx.name hthere
      obtain ⟨left, hleft, hat⟩ :=
        At.entered w.registry log i x false hrows
      exact ⟨left, by omega, hat⟩
    | false => exact ⟨3, Nat.le_refl 3, .making x⟩
  | making =>
    obtain ⟨t', hcreate, hthere⟩ := exists_create hx w.store
    obtain ⟨left, hleft, hat⟩ := At.entered w.registry log i x true hthere
    exact ⟨_, t', log, Write.step_making hcreate, .created _ hcreate, left, hleft, hat⟩
  | @choosing index d isNew hthere =>
    rw [Write.step_choosing]
    cases hstored : writeDocument (w.registry.lookup index) d with
    | error e => exact ⟨_, w.store, log, rfl, .none _, 0, Nat.zero_le 1, .done (.failed hstored)⟩
    | ok stored =>
      exact ⟨_, w.store, log, rfl, .none _, 1, Nat.le_refl 1, .inserting hthere hstored⟩
  | @inserting index d stored hthere hstored =>
    have hd := (hx.documents d (List.mem_singleton_self d)).2
    obtain ⟨p', t', log', hstep, heffect, hat⟩ :=
      At.step_inserting log i hd hthere hstored
    exact ⟨p', t', log', hstep, heffect, 0, Nat.le_refl 0, hat⟩
  | done hanswer => exact ⟨_, w.store, log, rfl, .none _, 0, Nat.le_refl 0, .done hanswer⟩

/-- A request that is done has its answer. -/
theorem At.answered (hx : x.IsSound) (h : At r t log i left x p) {a : Except Error Reply}
    (ha : p.answer? = some a) : Answered r log i x a := by
  cases h with
  | looking =>
    rw [Write.program_eq hx, Write.createIndex_eq hx.name] at ha
    cases x <;> cases ha
  | making => cases x <;> cases ha
  | choosing => cases ha
  | inserting => cases ha
  | done h =>
    cases ha
    exact h

/-- A request without steps left is done. -/
theorem At.exists_answer (h : At r t log i 0 x p) : ∃ a, p.answer? = some a := by
  cases h with
  | @done _ a h => exact ⟨a, rfl⟩

end

/-! ## Several requests -/

/-- Requests that are all sent at once. -/
def sent (w : World Tables) (xs : List Write) : Crowd Tables (Except Error Reply) :=
  ⟨xs.map Write.program, w⟩

/-- Every request is on its way, and every table has the rows that it had with those of the log,
whose numbers the requests were answered. -/
structure Crowding (xs : List Write) (w : World Tables) (schedule : List Nat)
    (c : Crowd Tables (Except Error Reply)) (log : List Insertion) : Prop where
  registry : c.world.registry = w.registry
  templates : c.world.store.templates = w.store.templates
  absent : ∀ i : Nat, xs[i]? = none → c.parties[i]? = none
  /-- With every turn a request has a step less to do. -/
  parties : ∀ (i : Nat) x, xs[i]? = some x → ∃ left ≤ 4 - schedule.count i, ∃ p,
    c.parties[i]? = some p ∧ At w.registry c.world.store log i left x p
  rows : ∀ name, c.world.store.rowsOf name =
    w.store.rowsOf name ++ (log.filter fun e => sameName e.index name).map Insertion.row
  rising : ∀ name, Rising (c.world.store.rowsOf name)
  /-- A row is logged in the step in which its request is answered. -/
  logged : ∀ e ∈ log, (∃ d, xs[e.party]? = some (.put e.index d)) ∧
    c.answer? e.party = some (.ok (.indexed e.row.id))

section

variable {xs : List Write} {w : World Tables} {schedule : List Nat}
  {c : Crowd Tables (Except Error Reply)} {log : List Insertion}

/-- Whoever takes the next turn, all this stays so. -/
theorem Crowding.advance (hxs : ∀ x ∈ xs, x.IsSound) (h : Crowding xs w schedule c log) (i : Nat) :
    ∃ log', Crowding xs w (schedule ++ [i]) (c.advance Tables.store i) log' := by
  cases hi : xs[i]? with
  | none =>
    rw [Crowd.advance_of_none (h.absent i hi)]
    refine ⟨log, h.registry, h.templates, h.absent, fun j x hj => ?_, h.rows, h.rising, h.logged⟩
    rw [count_concat_of_ne (by rintro rfl; rw [hi] at hj; cases hj)]
    exact h.parties j x hj
  | some x =>
    obtain ⟨left, hleft, p, hp, hat⟩ := h.parties i x hi
    obtain ⟨p', t', log', hstep, heffect, left', hleft', hat'⟩ :=
      hat.step (hxs x (List.mem_of_getElem? hi)) h.registry
    have hworld : (c.advance Tables.store i).world = { c.world with store := t' } := by
      rw [Crowd.advance_of_some hp, hstep]
    have hparties : ∀ j : Nat, (c.advance Tables.store i).parties[j]? =
        if j = i then some p' else c.parties[j]? := by
      intro j
      rw [Crowd.getElem?_advance hp, hstep]
    refine ⟨log', ?_⟩
    constructor
    case registry =>
      rw [hworld]
      exact h.registry
    case templates =>
      rw [hworld]
      exact heffect.templates.trans h.templates
    case absent =>
      intro j hj
      rw [hparties, if_neg (by rintro rfl; rw [hi] at hj; cases hj)]
      exact h.absent j hj
    case parties =>
      intro j y hj
      rw [hworld, hparties]
      -- The others are where they were: tables and rows that they rely on do not go away.
      by_cases hji : j = i
      · subst hji
        obtain rfl : x = y := Option.some.inj (hi.symm.trans hj)
        exact ⟨left', by rw [count_concat_self]; omega, p', if_pos rfl, hat'⟩
      · obtain ⟨left, hleft, q, hq, hat⟩ := h.parties j y hj
        rw [if_neg hji, count_concat_of_ne hji]
        exact ⟨left, hleft, q, hq, hat.mono heffect.grows heffect.subset⟩
    case rows =>
      intro name
      rw [hworld]
      exact heffect.rowsOf (h.rows name)
    case rising =>
      rw [hworld]
      exact heffect.rising h.rising
    case logged =>
      intro e he
      rcases heffect.mem he with he | ⟨rfl, ⟨d, rfl⟩, rfl⟩
      · obtain ⟨hput, hanswer⟩ := h.logged e he
        exact ⟨hput, Crowd.answer?_advance hanswer i⟩
      · refine ⟨⟨d, hi⟩, ?_⟩
        rw [Crowd.answer?, hparties, if_pos rfl]
        rfl

/-- So it is whatever the schedule. -/
theorem crowding_after (hxs : ∀ x ∈ xs, x.IsSound) (hw : Numbered w.store) (schedule : List Nat) :
    ∃ log, Crowding xs w schedule ((sent w xs).after Tables.store schedule) log := by
  induction schedule using List.reverseRecOn with
  | nil =>
    refine ⟨[], rfl, rfl, fun i hi => ?_,
      fun i x hi => ⟨4, Nat.le_refl 4, x.program, ?_, .looking x⟩,
      fun name => (List.append_nil _).symm, hw.rowsOf, fun e he => absurd he List.not_mem_nil⟩
    · show (xs.map Write.program)[i]? = none
      rw [List.getElem?_map, hi]
      rfl
    · show (xs.map Write.program)[i]? = some x.program
      rw [List.getElem?_map, hi]
      rfl
  | append_singleton schedule i ih =>
    obtain ⟨log, h⟩ := ih
    rw [Crowd.after_concat]
    exact h.advance hxs i

/-- A request that had four turns is answered. -/
theorem Crowding.isSome_answer? (h : Crowding xs w schedule c log) {i : Nat} (hi : i < xs.length)
    (hturns : 4 ≤ schedule.count i) : (c.answer? i).isSome = true := by
  obtain ⟨left, hleft, p, hp, hat⟩ := h.parties i xs[i] (List.getElem?_eq_getElem hi)
  obtain rfl : left = 0 := by omega
  obtain ⟨a, ha⟩ := hat.exists_answer
  rw [Crowd.answer?, hp, Option.bind_some, ha]
  rfl

theorem Crowding.answered (h : Crowding xs w schedule c log) (hxs : ∀ x ∈ xs, x.IsSound) {i : Nat}
    {x : Write} (hi : xs[i]? = some x) {a : Except Error Reply} (ha : c.answer? i = some a) :
    Answered w.registry log i x a := by
  obtain ⟨left, -, p, hp, hat⟩ := h.parties i x hi
  rw [Crowd.answer?, hp, Option.bind_some] at ha
  exact hat.answered (hxs x (List.mem_of_getElem? hi)) ha

/-- A row of the log is the only one of its table with its number. -/
theorem Crowding.filter_eq (h : Crowding xs w schedule c log) {e : Insertion} (he : e ∈ log) :
    (c.world.store.rowsOf e.index).filter (fun row => row.id == e.row.id) = [e.row] := by
  refine (h.rising e.index).filter_eq ?_
  rw [h.rows]
  exact List.mem_append_right _ (List.mem_map_of_mem
    (List.mem_filter.mpr ⟨he, sameName_self e.index⟩))

/-- Rows of the log that were put into one table under one number are the same. -/
theorem Crowding.eq_of_id_eq (h : Crowding xs w schedule c log) {e f : Insertion} (he : e ∈ log)
    (hf : f ∈ log) (hname : sameName e.index f.index = true) (hid : e.row.id = f.row.id) :
    e = f := by
  have hrising := h.rising f.index
  rw [h.rows, Rising, List.pairwise_append, List.pairwise_map] at hrising
  have hnodup : ((log.filter fun e => sameName e.index f.index).map fun e => e.row.id).Nodup :=
    List.pairwise_map.mpr (hrising.2.1.imp fun hlt => Nat.ne_of_lt hlt)
  have hmem : ∀ e ∈ log, sameName e.index f.index = true →
      e ∈ log.filter fun e => sameName e.index f.index := fun e he hname =>
    List.mem_filter.mpr ⟨he, hname⟩
  exact List.inj_on_of_nodup_map hnodup (hmem e he hname) (hmem f hf (sameName_self _)) hid

end

/-! ## What becomes of documents -/

/-- How a request to put a document into an index is answered: with the error of the conversion; or
with a number under which exactly one row of the table holds the converted document, unless this is
nested too deeply to be kept. -/
def PutAnswered (m : Option Mapping) (d : Json) (rows : List TableRow)
    (a : Except Error Reply) : Prop :=
  match writeDocument m d with
  | .error e => a = .error e
  | .ok stored =>
    if stored.nesting ≤ Verbatim.nestingLimit then
      ∃ id : Nat, a = .ok (.indexed id) ∧
        rows.filter (fun row => row.id == id) = [⟨id, stored.text⟩]
    else a = .error (.storage (.reported Failure.malformedDocument.message))

/-- Requests that write lose no document, and put none into a table twice. -/
structure LosesNothing (xs : List Write) (w : World Tables)
    (c : Crowd Tables (Except Error Reply)) : Prop where
  registry : c.world.registry = w.registry
  templates : c.world.store.templates = w.store.templates
  /-- Indices are made without fail. -/
  create : ∀ (i : Nat) index a, xs[i]? = some (.create index) → c.answer? i = some a →
    ∃ isNew, a = .ok (.made isNew)
  /-- Documents are put into their tables. -/
  put : ∀ (i : Nat) index d a, xs[i]? = some (.put index d) → c.answer? i = some a →
    PutAnswered (w.registry.lookup index) d (c.world.store.rowsOf index) a
  /-- Documents of one table have different numbers. -/
  distinct : ∀ (i j : Nat) x y id, xs[i]? = some x → xs[j]? = some y →
    sameName x.index y.index = true → c.answer? i = some (.ok (.indexed id)) →
    c.answer? j = some (.ok (.indexed id)) → i = j
  /-- The rows that were there stay, and those behind them are of requests to this table. -/
  added : ∀ name, ∃ added, c.world.store.rowsOf name = w.store.rowsOf name ++ added ∧
    ∀ row ∈ added, ∃ (i : Nat) (index : String) (d : Json), xs[i]? = some (.put index d) ∧
      sameName index name = true ∧ c.answer? i = some (.ok (.indexed row.id))

section

variable {xs : List Write} {w : World Tables} {schedule : List Nat}
  {c : Crowd Tables (Except Error Reply)} {log : List Insertion}

/-- A request that is answered with a number has a row of that number in the log. -/
theorem Answered.exists_insertion {i : Nat} {x : Write} {id : Int} {r : Registry}
    (h : Answered r log i x (.ok (.indexed id))) :
    ∃ e ∈ log, e.party = i ∧ e.index = x.index ∧ (e.row.id : Int) = id := by
  cases h with
  | indexed h hdeep hlog => exact ⟨_, hlog, rfl, rfl, rfl⟩

theorem Crowding.losesNothing (h : Crowding xs w schedule c log) (hxs : ∀ x ∈ xs, x.IsSound) :
    LosesNothing xs w c where
  registry := h.registry
  templates := h.templates
  create i index a hi ha := by
    cases h.answered hxs hi ha with
    | made index isNew => exact ⟨isNew, rfl⟩
  put i index d a hi ha := by
    unfold PutAnswered
    cases h.answered hxs hi ha with
    | failed hstored => rw [hstored]
    | tooDeep hstored hdeep =>
      simp only [hstored, if_neg (Nat.not_le_of_lt hdeep)]
    | indexed hstored hdeep hlog =>
      simp only [hstored, if_pos hdeep]
      exact ⟨_, rfl, h.filter_eq hlog⟩
  distinct i j x y id hi hj hname hidi hidj := by
    obtain ⟨e, he, rfl, hex, heid⟩ := (h.answered hxs hi hidi).exists_insertion
    obtain ⟨f, hf, rfl, hfy, hfid⟩ := (h.answered hxs hj hidj).exists_insertion
    have hef : e = f := by
      refine h.eq_of_id_eq he hf (by rw [hex, hfy]; exact hname) ?_
      exact Int.ofNat_inj.mp (heid.trans hfid.symm)
    rw [hef]
  added name := by
    refine ⟨_, h.rows name, fun row hrow => ?_⟩
    obtain ⟨e, he, rfl⟩ := List.mem_map.mp hrow
    obtain ⟨helog, hename⟩ := List.mem_filter.mp he
    obtain ⟨⟨d, hd⟩, hanswer⟩ := h.logged e helog
    exact ⟨e.party, e.index, d, hd, hename, hanswer⟩

/-- However requests that write take turns, no document is lost and none is put into a table twice;
and whoever had four turns is answered. -/
theorem writes_beside_one_another (hxs : ∀ x ∈ xs, x.IsSound) (hw : Numbered w.store)
    (schedule : List Nat) :
    LosesNothing xs w ((sent w xs).after Tables.store schedule) ∧
    ∀ i < xs.length, 4 ≤ schedule.count i →
      (((sent w xs).after Tables.store schedule).answer? i).isSome = true := by
  obtain ⟨log, h⟩ := crowding_after hxs hw schedule
  exact ⟨h.losesNothing hxs, fun i hi => h.isSome_answer? hi⟩

end

/-- Two documents for an index that is being made. -/
def crowdedWrites : List Write :=
  [.put "logs" exampleDocument, .create "logs", .put "logs" (.object [])]

theorem isSound_crowdedWrites : ∀ x ∈ crowdedWrites, x.IsSound := by
  have hdocument : ∀ d ∈ [exampleDocument, .object []], d.isObject = true ∧ d.Writable := by
    intro d hd
    rcases List.mem_cons.mp hd with rfl | hd
    · exact ⟨rfl, isReadBack_example.valid.writable⟩
    · rw [List.mem_singleton.mp hd]
      exact ⟨rfl, .object [] nofun⟩
  intro x hx
  simp only [crowdedWrites, List.mem_cons, List.not_mem_nil, or_false] at hx
  rcases hx with rfl | rfl | rfl
  · exact ⟨by decide, by decide, fun d hd => hdocument d (by simp_all [Write.documents])⟩
  · exact ⟨by decide, by decide, fun d hd => absurd hd List.not_mem_nil⟩
  · exact ⟨by decide, by decide, fun d hd => hdocument d (by simp_all [Write.documents])⟩

/-- All three find no table at first. -/
theorem writes_beside_one_another_example :
    let c := (sent { store := {} } crowdedWrites).after Tables.store
      [0, 1, 2, 1, 2, 0, 2, 0, 2, 0, 1, 1]
    ∃ id : Nat, c.answer? 0 = some (.ok (.indexed id)) ∧
      (c.world.store.rowsOf "logs").filter (fun row => row.id == id) =
        [⟨id, exampleDocument.text⟩] := by
  intro c
  obtain ⟨hkeeps, hdone⟩ := writes_beside_one_another (w := { store := {} }) isSound_crowdedWrites
    (fun _ htable => absurd htable List.not_mem_nil) [0, 1, 2, 1, 2, 0, 2, 0, 2, 0, 1, 1]
  obtain ⟨a, ha⟩ := Option.isSome_iff_exists.mp (hdone 0 (by decide) (by decide))
  have hput : PutAnswered none exampleDocument (c.world.store.rowsOf "logs") a :=
    hkeeps.put 0 "logs" exampleDocument a rfl ha
  obtain ⟨id, rfl, hrow⟩ := hput
  exact ⟨id, ha, hrow⟩

/-- Arrays inside one another. -/
def stacked : Nat → Json
  | 0 => .array []
  | n + 1 => .array [stacked n]

theorem nesting_stacked (n : Nat) : (stacked n).nesting = n + 1 := by
  induction n with
  | zero => rfl
  | succ n ih =>
    show max (stacked n).nesting 0 + 1 = n + 1 + 1
    rw [ih, Nat.max_zero]

theorem writable_stacked (n : Nat) : (stacked n).Writable := by
  induction n with
  | zero => exact .array [] nofun
  | succ n ih => exact .array _ fun v hv => List.mem_singleton.mp hv ▸ ih

/-- An object with arrays inside one another. -/
def deepDocument (n : Nat) : Json := .object [("a", stacked n)]

theorem nesting_deepDocument (n : Nat) : (deepDocument n).nesting = n + 2 := by
  show max (stacked n).nesting 0 + 1 = n + 2
  rw [nesting_stacked, Nat.max_zero]

theorem writable_deepDocument (n : Nat) : (deepDocument n).Writable :=
  .object _ fun _ hm => List.mem_singleton.mp hm ▸ writable_stacked n

/-- A document without dates is not put into its table if it is nested too deeply. -/
theorem put_of_deep_document :
    writeDocument none (deepDocument 1999) = .ok (deepDocument 1999) ∧
    ((sent { store := {} } [.put "logs" (deepDocument 1999)]).after Tables.store
      [0, 0, 0, 0]).answer? 0 =
        some (.error (.storage (.reported "malformed document"))) := by
  refine ⟨rfl, ?_⟩
  have hsound : ∀ x ∈ [Write.put "logs" (deepDocument 1999)], x.IsSound := by
    intro x hx
    rw [List.mem_singleton.mp hx]
    refine ⟨by decide, by decide, fun d hd => ?_⟩
    rw [List.mem_singleton.mp hd]
    exact ⟨rfl, writable_deepDocument 1999⟩
  obtain ⟨log, h⟩ := crowding_after (w := { store := {} }) hsound
    (fun _ htable => absurd htable List.not_mem_nil) [0, 0, 0, 0]
  obtain ⟨a, ha⟩ := Option.isSome_iff_exists.mp
    (h.isSome_answer? (i := 0) (by decide) (by decide))
  rw [ha]
  cases h.answered hsound rfl ha with
  | failed hstored => cases hstored
  | tooDeep => rfl
  | indexed hstored hlevels =>
    obtain rfl := Except.ok.inj hstored
    rw [nesting_deepDocument] at hlevels
    exact absurd hlevels (by decide)

end Quarry.Engine
