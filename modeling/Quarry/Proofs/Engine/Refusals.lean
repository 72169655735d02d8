/-
# Documents that are refused

Putting a document into an index can fail at any of its steps. What was done up to there is that the
index has a table, which is empty if it is new; no row is added before the last step succeeds.

* `Prepares`, `Puts` — the calls made for a table and for a document, up to the first that fails.
* `MakesTable`, `AddsRow` — what becomes of the rows of a store.
* `Orderly` — a store of rows in which calls that fail do nothing.
* `indexDocument_atomic` — a document that is refused changes no row, and any other adds one.
-/
import Quarry.Proofs.Engine.Exchanges
import Quarry.Proofs.Engine.Registrations
import Quarry.Proofs.Engine.Writes

namespace Quarry.Engine

open Quarry.Engine.Program (World)
open Quarry.Json Quarry.Outcome Quarry.Sql Quarry.Store Quarry.Template

variable {σ : Type} {s : Store σ}

/-! ## Steps -/

/-- The calls for the table of an index, which is made unless it is there. -/
inductive Prepares (s : Store σ) (index : String) (t : σ) :
    List Exchange → Except Error Unit → σ → Prop
  | there {t' : σ} : s.perform (.tableExists index) t = (.ok true, t') →
    Prepares s index t [⟨.tableExists index, .ok true⟩] (.ok ()) t'
  | made {t₁ t' : σ} : s.perform (.tableExists index) t = (.ok false, t₁) →
    s.perform (.createTable index) t₁ = (.ok (), t') →
    Prepares s index t [⟨.tableExists index, .ok false⟩, ⟨.createTable index, .ok ()⟩] (.ok ()) t'
  | unknown {e : StorageError} {t' : σ} : s.perform (.tableExists index) t = (.error e, t') →
    Prepares s index t [⟨.tableExists index, .error e⟩] (.error (.storage e)) t'
  | unmade {e : StorageError} {t₁ t' : σ} : s.perform (.tableExists index) t = (.ok false, t₁) →
    s.perform (.createTable index) t₁ = (.error e, t') →
    Prepares s index t [⟨.tableExists index, .ok false⟩, ⟨.createTable index, .error e⟩]
      (.error (.storage e)) t'

/-- The calls for a document, up to the first step that fails. -/
inductive Puts (s : Store σ) (index : String) (document : Json) (w : World σ) :
    List Exchange → Except Error Int → σ → Prop
  | notObject : document.isObject = false →
    Puts s index document w [] (.error (.decode .notAnObject)) w.store
  | notName : document.isObject = true → isIndexName index = false →
    Puts s index document w [] (.error (.invalidIndexName index)) w.store
  | unprepared {calls : List Exchange} {e : Error} {t : σ} : document.isObject = true →
    isIndexName index = true → Prepares s index w.store calls (.error e) t →
    Puts s index document w calls (.error e) t
  | unwritten {calls : List Exchange} {e : Error} {t : σ} : document.isObject = true →
    isIndexName index = true → Prepares s index w.store calls (.ok ()) t →
    writeDocument (w.registry.lookup index) document = .error e →
    Puts s index document w calls (.error e) t
  | put {calls : List Exchange} {stored : Json} {t t' : σ} {answer : Except StorageError Int} :
    document.isObject = true → isIndexName index = true →
    Prepares s index w.store calls (.ok ()) t →
    writeDocument (w.registry.lookup index) document = .ok stored →
    s.perform (.insert index stored.text) t = (answer, t') →
    Puts s index document w (calls ++ [⟨.insert index stored.text, answer⟩])
      (answer.mapError .storage) t'

/-- Whatever the store answers, an index is made by these calls. -/
theorem createIndex_observes (s : Store σ) {index : String} (hname : isIndexName index = true)
    (w : World σ) : ∃ calls x t, Observes s (createIndex index) w calls x { w with store := t } ∧
      Prepares s index w.store calls (x.map fun _ => ()) t := by
  have hcheck : checkName index = .ok () := checkName_eq_ok.mpr hname
  have hexists := Observes.call (s := s) (w := w) (.tableExists index)
  rw [createIndex, hcheck]
  cases hthere : s.perform (.tableExists index) w.store with
  | mk answer t₁ =>
    rw [hthere] at hexists
    cases answer with
    | error e =>
      exact ⟨_, _, _, .orFail_bind hexists.bind_error, .unknown hthere⟩
    | ok there =>
      cases there with
      | true =>
        exact ⟨_, _, _, .orFail_bind (hexists.bind (.pure false)), .there hthere⟩
      | false =>
        have hcreate := Observes.call (s := s) (w := { w with store := t₁ }) (.createTable index)
        cases hmade : s.perform (.createTable index) t₁ with
        | mk answer t =>
          simp only [hmade] at hcreate
          cases answer with
          | error e =>
            exact ⟨_, _, _, .orFail_bind (hexists.bind hcreate.bind_error), .unmade hthere hmade⟩
          | ok u =>
            exact ⟨_, _, _, .orFail_bind (hexists.bind (hcreate.bind (.pure true))),
              .made hthere hmade⟩

/-- What is done with a document once its index is made. -/
theorem storing_observes (s : Store σ) (index : String) (document : Json) (w : World σ) :
    ∃ calls x t, Observes s (do
        let templates ← registry
        let stored ← orFail (writeDocument (templates.lookup index) document)
        call (.insert index stored.text)) w calls x { w with store := t } ∧
      ((∃ e, writeDocument (w.registry.lookup index) document = .error e ∧ calls = [] ∧
          x = .error e ∧ t = w.store) ∨
        ∃ stored answer, writeDocument (w.registry.lookup index) document = .ok stored ∧
          s.perform (.insert index stored.text) w.store = (answer, t) ∧
          calls = [⟨.insert index stored.text, answer⟩] ∧ x = answer.mapError .storage) := by
  have hregistry := Observes.registry (s := s) (w := w)
  cases hwrite : writeDocument (w.registry.lookup index) document with
  | error e =>
    refine ⟨[], .error e, w.store, hregistry.bind (u := []) ?_, .inl ⟨e, rfl, rfl, rfl, rfl⟩⟩
    rw [hwrite]
    exact (Observes.orFail _).bind_error
  | ok stored =>
    refine ⟨_, _, _, hregistry.bind (u := [_]) ?_, .inr ⟨stored, _, rfl, rfl, rfl, rfl⟩⟩
    rw [hwrite]
    exact .orFail_bind (Observes.call _)

/-- Whatever the store answers, a document is put into an index by these calls. -/
theorem indexDocument_observes (s : Store σ) (index : String) (document : Json) (w : World σ) :
    ∃ calls x t, Observes s (indexDocument index document) w calls x { w with store := t } ∧
      Puts s index document w calls x t := by
  unfold indexDocument
  cases hobject : document.isObject with
  | false => exact ⟨_, _, _, (Observes.throw _).bind_error, .notObject hobject⟩
  | true =>
    cases hname : isIndexName index with
    | false =>
      have hcheck : checkName index = .error (.invalidIndexName index) := by
        rw [checkName, hname]
        rfl
      have hcreate : Observes s (createIndex index) w [] (.error (.invalidIndexName index)) w := by
        rw [createIndex, hcheck]
        exact (Observes.orFail _).bind_error
      exact ⟨_, _, _, hcreate.bind_error, .notName hobject hname⟩
    | true =>
      obtain ⟨calls, x, t, hcreate, hprepares⟩ := createIndex_observes s hname w
      cases x with
      | error e => exact ⟨_, _, _, hcreate.bind_error, .unprepared hobject hname hprepares⟩
      | ok isNew =>
        obtain ⟨more, y, t', hstoring, ⟨e, hwrite, rfl, rfl, rfl⟩ |
          ⟨stored, answer, hwrite, hinsert, rfl, rfl⟩⟩ :=
            storing_observes s index document { w with store := t }
        · have hputs := Puts.unwritten hobject hname hprepares hwrite
          exact ⟨_, _, _, hcreate.bind hstoring, (List.append_nil calls).symm ▸ hputs⟩
        · exact ⟨_, _, _, hcreate.bind hstoring, .put hobject hname hprepares hwrite hinsert⟩

/-! ## Rows -/

section

variable (s : Store σ) (rows : σ → String → Option (List TableRow)) (known : String → String → Prop)

/-- What a store holds is the same. -/
structure Same (t t' : σ) : Prop where
  rows : rows t' = rows t
  templates : loaded s t' = loaded s t

/-- A table that is empty is made under the names of an index, or nothing is. -/
structure MakesTable (index : String) (t t' : σ) : Prop where
  rows : ∀ name, rows t' name = rows t name ∨
    known index name ∧ rows t name = none ∧ rows t' name = some []
  templates : loaded s t' = loaded s t

/-- A row is put behind those of an index, and nothing else happens. -/
structure AddsRow (index : String) (row : TableRow) (t t' : σ) : Prop where
  added : ∀ name, known index name → rows t' name = some ((rows t name).getD [] ++ [row])
  others : ∀ name, ¬ known index name → rows t' name = rows t name
  templates : loaded s t' = loaded s t

/-- A store keeps rows under names, of which several may be those of one table. Calls that fail do
nothing, nor do questions. A table that is made is empty, unless it was there. A document that is
put into a table is a new row of this table. -/
structure Orderly : Prop where
  known_self : ∀ name, known name name
  failed : ∀ {β : Type} {c : StoreCall β} {t t' : σ} {e : StorageError},
    s.perform c t = (.error e, t') → Same s rows t t'
  asked : ∀ {table : String} {t t' : σ} {there : Bool},
    s.perform (.tableExists table) t = (.ok there, t') → Same s rows t t'
  made : ∀ {table : String} {t t' : σ},
    s.perform (.createTable table) t = (.ok (), t') → MakesTable s rows known table t t'
  inserted : ∀ {table : String} {v : Json} {t t' : σ} {id : Int}, v.Writable →
    s.perform (.insert table v.text) t = (.ok id, t') →
      ∃ n : Nat, id = n ∧ AddsRow s rows known table ⟨n, v.text⟩ t t'

end

section

variable {rows : σ → String → Option (List TableRow)} {known : String → String → Prop}
  {index : String} {t t₁ t' : σ}

theorem Same.refl (t : σ) : Same s rows t t := ⟨rfl, rfl⟩

theorem Same.trans (h : Same s rows t t₁) (h' : Same s rows t₁ t') : Same s rows t t' :=
  ⟨h'.rows.trans h.rows, h'.templates.trans h.templates⟩

theorem Same.makesTable (h : Same s rows t t') : MakesTable s rows known index t t' :=
  ⟨fun name => .inl (congrFun h.rows name), h.templates⟩

theorem MakesTable.of_same (h : Same s rows t t₁) (h' : MakesTable s rows known index t₁ t') :
    MakesTable s rows known index t t' where
  rows name := by
    rw [← h.rows]
    exact h'.rows name
  templates := h'.templates.trans h.templates

theorem MakesTable.then_same (h : MakesTable s rows known index t t₁) (h' : Same s rows t₁ t') :
    MakesTable s rows known index t t' where
  rows name := by
    rw [h'.rows]
    exact h.rows name
  templates := h'.templates.trans h.templates

/-- No row is changed or added where a table is made. -/
theorem MakesTable.getD_eq (h : MakesTable s rows known index t t') (name : String) :
    (rows t' name).getD [] = (rows t name).getD [] := by
  rcases h.rows name with hsame | ⟨-, hnone, hempty⟩
  · rw [hsame]
  · rw [hnone, hempty]
    rfl

/-- A row that is put into a table just made is put into the table of the index. -/
theorem MakesTable.addsRow (h : MakesTable s rows known index t t₁) {row : TableRow}
    (h' : AddsRow s rows known index row t₁ t') : AddsRow s rows known index row t t' where
  added name hname := by rw [h'.added name hname, h.getD_eq]
  others name hname := by
    rw [h'.others name hname]
    exact (h.rows name).resolve_right fun hmade => hname hmade.1
  templates := h'.templates.trans h.templates

/-- Whether a table is made or not, nothing but an empty table is new. -/
theorem Prepares.makesTable (hs : Orderly s rows known) {calls : List Exchange}
    {x : Except Error Unit} (h : Prepares s index t calls x t') :
    MakesTable s rows known index t t' := by
  cases h with
  | there hthere => exact (hs.asked hthere).makesTable
  | made hthere hmade => exact .of_same (hs.asked hthere) (hs.made hmade)
  | unknown hthere => exact (hs.failed hthere).makesTable
  | unmade hthere hmade => exact ((hs.asked hthere).trans (hs.failed hmade)).makesTable

/-! ## Tables -/

/-- Tables that fail to answer a call are left as they are. -/
theorem perform_eq_error {β : Type} {c : StoreCall β} {t t' : Tables} {e : StorageError}
    (h : Tables.store.perform c t = (.error e, t')) : t' = t := by
  have hstays : (Tables.perform c t).2 = t ∨ ∃ b, (Tables.perform c t).1 = .ok b := by
    cases c with
    | insert table document =>
      rw [Tables.perform]
      cases t.insert table document with
      | error e => exact .inl rfl
      | ok inserted => exact .inr ⟨_, rfl⟩
    | createTable table =>
      rw [Tables.perform]
      cases t.create table with
      | error e => exact .inl rfl
      | ok made => exact .inr ⟨_, rfl⟩
    | saveTemplate name m =>
      rw [Tables.perform]
      cases t.saveTemplate name m with
      | error e => exact .inl rfl
      | ok saved => exact .inr ⟨_, rfl⟩
    | _ => exact .inl rfl
  have hperform : Tables.perform c t = (.error e, t') := h
  rw [hperform] at hstays
  rcases hstays with hstays | ⟨b, hb⟩
  · exact hstays
  · cases hb

theorem perform_createTable {t t' : Tables} {table : String}
    (h : Tables.store.perform (.createTable table) t = (.ok (), t')) :
    t.create table = .ok t' := by
  have hperform : Tables.perform (.createTable table) t = (.ok (), t') := h
  rw [Tables.perform] at hperform
  cases hcreate : t.create table with
  | error e =>
    rw [hcreate] at hperform
    cases hperform
  | ok made =>
    rw [hcreate] at hperform
    cases hperform
    rfl

theorem perform_insert {t t' : Tables} {table document : String} {id : Int}
    (h : Tables.store.perform (.insert table document) t = (.ok id, t')) :
    ∃ n : Nat, id = n ∧ t.insert table document = .ok (n, t') := by
  have hperform : Tables.perform (.insert table document) t = (.ok id, t') := h
  rw [Tables.perform] at hperform
  cases hinsert : t.insert table document with
  | error e =>
    rw [hinsert] at hperform
    cases hperform
  | ok inserted =>
    rw [hinsert] at hperform
    cases hperform
    exact ⟨inserted.1, rfl, rfl⟩

/-- Tables are orderly: a name is known in any case of its letters. -/
theorem orderly_tables : Orderly Tables.store Tables.rows? fun a b => sameName a b = true where
  known_self := sameName_self
  failed h := by
    rw [perform_eq_error h]
    exact .refl _
  asked h := by
    cases h
    exact .refl _
  made := by
    intro table t t' h
    obtain ⟨-, -, ⟨-, rfl⟩ | ⟨hnone, -, rfl⟩⟩ := Tables.create_eq_ok.mp (perform_createTable h)
    · exact (Same.refl _).makesTable
    · refine ⟨fun name => ?_, rfl⟩
      rw [Tables.rows?, Tables.find?_add, Tables.rows?]
      by_cases hname : sameName table name = true
      · rw [← Tables.find?_congr hname, hnone, if_pos hname]
        exact .inr ⟨hname, rfl, rfl⟩
      · rw [if_neg hname, Option.or_none]
        exact .inl rfl
  inserted := by
    intro table v t t' id hv h
    obtain ⟨n, hn, hinsert⟩ := perform_insert h
    obtain ⟨old, kept, hold, hkept, -, rfl⟩ := Tables.insert_eq_ok.mp hinsert
    have htext : kept.text = v.text := by
      rw [Verbatim.ofText?_text hv] at hkept
      split_ifs at hkept
      rw [← Option.some.inj hkept, Verbatim.text_ofJson hv]
    refine ⟨n, hn, fun name hname => ?_, fun name hname => ?_, rfl⟩
    · have hrows : t.rows? name = some old := by
        rw [Tables.rows?, ← Tables.find?_congr hname]
        exact hold
      rw [Tables.rows?_append, if_pos hname, hold, hrows, htext]
      rfl
    · rw [Tables.rows?_append, if_neg hname]

/-! ## Refusals -/

/-- A call puts a document into a table. -/
def Exchange.IsInsert (c : Exchange) : Prop := ∃ table document, c.record = .insert table document

theorem Prepares.not_isInsert {calls : List Exchange} {x : Except Error Unit}
    (h : Prepares s index t calls x t') : ∀ c ∈ calls, ¬ c.IsInsert := by
  cases h <;> simp [Exchange.IsInsert, Exchange.record, StoreCall.record]

/-- A document that is refused changes no row of any table, and leaves at most an empty table for
its index. If it is no object, or the index has no valid name, nothing is asked of the store, and if
one of its dates cannot be converted, nothing is put into the store. A document that is not refused
is one new row of its index, as it is written under the first template that applies to the index. -/
theorem indexDocument_atomic (hs : Orderly s rows known) {document : Json}
    (hdocument : document.Writable) (index : String) (w : World σ) :
    ∃ calls x t, Observes s (indexDocument index document) w calls x { w with store := t } ∧
      Puts s index document w calls x t ∧
      (∀ e, x = .error e → MakesTable s rows known index w.store t) ∧
      (document.isObject = false ∨ isIndexName index = false →
        calls = [] ∧ t = w.store ∧ ∃ e, x = .error e) ∧
      (∀ e, writeDocument (w.registry.lookup index) document = .error e →
        (∀ c ∈ calls, ¬ c.IsInsert) ∧ ∃ e', x = .error e') ∧
      ∀ id, x = .ok id → ∃ stored, ∃ n : Nat,
        writeDocument (w.registry.lookup index) document = .ok stored ∧ id = n ∧
          AddsRow s rows known index ⟨n, stored.text⟩ w.store t := by
  obtain ⟨calls, x, t, hobserves, hputs⟩ := indexDocument_observes s index document w
  refine ⟨calls, x, t, hobserves, hputs, fun e he => ?_, fun hnot => ?_, fun e he => ?_,
    fun id hid => ?_⟩
  · cases hputs with
    | notObject => exact (Same.refl _).makesTable
    | notName => exact (Same.refl _).makesTable
    | unprepared _ _ hprepares => exact hprepares.makesTable hs
    | unwritten _ _ hprepares => exact hprepares.makesTable hs
    | put _ _ hprepares _ hinsert =>
      obtain ⟨reason, rfl, -⟩ := mapError_eq_error.mp he
      exact (hprepares.makesTable hs).then_same (hs.failed hinsert)
  · cases hputs with
    | notObject => exact ⟨rfl, rfl, _, rfl⟩
    | notName => exact ⟨rfl, rfl, _, rfl⟩
    | unprepared hobject hname | unwritten hobject hname | put hobject hname =>
      rw [hobject, hname] at hnot
      rcases hnot with hnot | hnot <;> cases hnot
  · cases hputs with
    | notObject => exact ⟨List.forall_mem_nil _, _, rfl⟩
    | notName => exact ⟨List.forall_mem_nil _, _, rfl⟩
    | unprepared _ _ hprepares => exact ⟨hprepares.not_isInsert, _, rfl⟩
    | unwritten _ _ hprepares => exact ⟨hprepares.not_isInsert, _, rfl⟩
    | put _ _ _ hwrite =>
      rw [hwrite] at he
      cases he
  · cases hputs with
    | put _ _ hprepares hwrite hinsert =>
      obtain rfl := mapError_eq_ok.mp hid
      obtain ⟨n, hn, hadds⟩ := hs.inserted (writeDocument_writable hdocument hwrite) hinsert
      exact ⟨_, n, hwrite, hn, (hprepares.makesTable hs).addsRow hadds⟩
    | _ => cases hid

end

/-- A document whose date is none. -/
def undatedVisit : Json := .object [("at", .string "tomorrow")]

/-- An engine with one template and no index. -/
def visitsEngine : World Tables :=
  ((attempt (putTemplate "visits" visitsRequest)).run Tables.store ⟨{}, {}⟩).2

/-- A visit that is refused leaves an empty index, and one that is not is its first row. -/
theorem indexDocument_atomic_example :
    (∃ calls e t, Observes Tables.store (indexDocument "visits-1" undatedVisit) visitsEngine calls
        (.error e) { visitsEngine with store := t } ∧ (∀ c ∈ calls, ¬ c.IsInsert) ∧
      MakesTable Tables.store Tables.rows? (fun a b => sameName a b = true) "visits-1"
        visitsEngine.store t) ∧
    ∃ calls n t, Observes Tables.store (indexDocument "visits-1" (.object [("at", .ofNat 0)]))
        visitsEngine calls (.ok n) { visitsEngine with store := t } ∧
      AddsRow Tables.store Tables.rows? (fun a b => sameName a b = true) "visits-1"
        ⟨1, "\x7b\"at\":\"1970-01-01T00:00:00Z\"\x7d"⟩ visitsEngine.store t := by
  refine ⟨?_, ?_⟩
  · have hwritable : undatedVisit.Writable :=
      .object _ (List.forall_mem_singleton.mpr (.string "tomorrow"))
    have hwrite : (writeDocument (visitsEngine.registry.lookup "visits-1") undatedVisit).isOk =
        false := by decide +kernel
    obtain ⟨calls, x, t, hobserves, -, herror, -, hdate, -⟩ :=
      indexDocument_atomic orderly_tables hwritable "visits-1" visitsEngine
    cases hfails : writeDocument (visitsEngine.registry.lookup "visits-1") undatedVisit with
    | ok stored =>
      rw [hfails] at hwrite
      cases hwrite
    | error e =>
      obtain ⟨hinsert, e', rfl⟩ := hdate e hfails
      exact ⟨calls, e', t, hobserves, hinsert, herror e' rfl⟩
  · have hwritable : (Json.object [("at", .ofNat 0)]).Writable :=
      .object _ (List.forall_mem_singleton.mpr (.int 0 (by decide)))
    have hrun : ((attempt (indexDocument "visits-1" (.object [("at", .ofNat 0)]))).run Tables.store
        visitsEngine).1 = .ok 1 := by decide +kernel
    have htext : (writeDocument (visitsEngine.registry.lookup "visits-1")
        (.object [("at", .ofNat 0)])).map Json.text =
          .ok "\x7b\"at\":\"1970-01-01T00:00:00Z\"\x7d" := by decide +kernel
    obtain ⟨calls, x, t, hobserves, -, -, -, -, hput⟩ :=
      indexDocument_atomic orderly_tables hwritable "visits-1" visitsEngine
    rw [hobserves.run] at hrun
    obtain rfl : x = .ok 1 := hrun
    obtain ⟨stored, n, hwrite, hn, hadds⟩ := hput 1 rfl
    obtain rfl : n = 1 := by omega
    rw [hwrite] at htext
    have hstored : stored.text = "\x7b\"at\":\"1970-01-01T00:00:00Z\"\x7d" := Except.ok.inj htext
    rw [hstored] at hadds
    exact ⟨calls, 1, t, hobserves, hadds⟩

end Quarry.Engine
