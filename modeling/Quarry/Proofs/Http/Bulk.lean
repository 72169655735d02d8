/-
# Bulk requests one by one

A bulk request does what the requests for its single documents do one after another.

* `parseBulk_eq` — the index of the path is that of the actions which name none.
* `OneByOne` — the documents of actions are put one by one, and each response is told in an item.
* `serve_bulk` — so does a bulk request answer.
-/
import Quarry.Proofs.Http.Runs

namespace Quarry.Http

open Quarry.Engine Quarry.Outcome Quarry.Text
open Quarry.Engine.Program (World)

/-! ## Actions -/

/-- The action, on the index given if it names none. -/
def BulkAction.on (index : Option String) (a : BulkAction) : BulkAction :=
  { a with index := a.index.orElse fun _ => index }

/-- The index given is that of the actions which name none. -/
theorem parseActions_eq (index : Option String) (lines : List String) :
    parseActions index lines = (parseActions none lines).map (List.map (BulkAction.on index)) := by
  induction lines using parseActions.induct with
  | case1 => rfl
  | case2 line rest ih ihSource =>
    rw [parseActions, parseActions]
    cases parseActionLine line with
    | error e => rfl
    | ok action =>
      obtain ⟨name, named⟩ := action
      have hon : ∀ source, (⟨name, named.orElse fun _ => index, source⟩ : BulkAction) =
          BulkAction.on index ⟨name, named.orElse fun _ => none, source⟩ := by
        intro source
        cases named <;> rfl
      simp only [bind, Except.bind]
      split_ifs with hdelete
      · rw [ih]
        cases parseActions none rest with
        | error e => rfl
        | ok actions => exact congrArg (fun a => Except.ok (a :: _)) (hon none)
      · cases rest with
        | nil => rfl
        | cons source rest =>
          simp only at ihSource ⊢
          rw [ihSource]
          cases parseActions none rest with
          | error e => rfl
          | ok actions => exact congrArg (fun a => Except.ok (a :: _)) (hon (some source))

/-- So it is for the actions of a text. -/
theorem parseBulk_eq (index : Option String) (text : String) :
    parseBulk index text = (parseBulk none text).map (List.map (BulkAction.on index)) :=
  parseActions_eq index (contentLines text)

/-- An action that puts a document has its line. -/
theorem exists_source {index : Option String} {lines : List String} {actions : List BulkAction}
    (h : parseActions index lines = .ok actions) :
    ∀ a ∈ actions, a.puts = true → ∃ line, a.source = some line := by
  induction lines using parseActions.induct generalizing actions with
  | case1 =>
    cases h
    simp
  | case2 line rest ih ihSource =>
    rw [parseActions] at h
    obtain ⟨⟨name, named⟩, -, h⟩ := bind_eq_ok.mp h
    simp only at h
    split_ifs at h with hdelete
    · obtain ⟨actions', hrest, h⟩ := bind_eq_ok.mp h
      cases h
      refine List.forall_mem_cons.mpr ⟨?_, ih hrest⟩
      intro hputs
      simp [BulkAction.puts, hdelete, deleteName] at hputs
    · cases rest with
      | nil => cases h
      | cons source rest =>
        obtain ⟨actions', hrest, h⟩ := bind_eq_ok.mp h
        cases h
        exact List.forall_mem_cons.mpr ⟨fun _ => ⟨source, rfl⟩, ihSource hrest⟩

/-! ## Single documents -/

/-- A request puts a document into an index. -/
structure PutsDocument (index : String) (source : List UInt8) (q : Request) : Prop where
  path : ∃ segment, segment.decoded = .ok index ∧
    (Target.ofPath? q.path = some (.document segment) ∧ (q.method = "POST" ∨ q.method = "PUT") ∨
      Target.ofPath? q.path = some (.creation segment) ∧ q.method = "POST")
  body : q.body = source

/-- Such a request is answered with what became of the document. -/
theorem PutsDocument.serve_eq {index : String} {source : List UInt8} {q : Request}
    (h : PutsDocument index source q) : serve q = (answerDocument index source).respond := by
  obtain ⟨⟨segment, hindex, htarget⟩, rfl⟩ := h
  have hname : withName "index" segment (fun index => answerDocument index q.body) =
      answerDocument index q.body := by rw [withName, hindex]
  rcases htarget with ⟨htarget, hmethod⟩ | ⟨htarget, hmethod⟩
  · rw [serve_of_target htarget, answer, hname]
    · rcases hmethod with hmethod | hmethod <;> simp [hmethod, Target.methods]
    · rcases hmethod with hmethod | hmethod <;> simp [hmethod]
  · rw [serve_of_target htarget, answer, hname]
    · simp [hmethod, Target.methods]
    · simp [hmethod]

/-! ## Items -/

/-- The item of an action that failed. -/
def failedItem (key index : String) (report : Report) : Json :=
  .object [(key, .object [("_index", .string index), ("status", .ofNat report.status),
    ("error", report.short)])]

/-- What an item tells of the response to a request for a single document. -/
inductive Tells (key index : String) : Response → Json → Prop
  | created (id : Int) : Tells key index (.ofJson 201 (.object (createdMembers index id)))
    (.object [(key, .object (createdMembers index id ++ [("status", .ofNat 201)]))])
  | failed (report : Report) (h : 400 ≤ report.status) :
    Tells key index (.ofJson report.status report.body) (failedItem key index report)

/-- An item has an error. -/
def HasError (item : Json) : Prop :=
  ∃ key members e, item = .object [(key, .object members)] ∧ ("error", e) ∈ members

section

variable {σ : Type} {s : Store σ} {w : World σ}

/-- The documents of actions are put one by one, each into the store that those before it leave. An
action that puts none, or names no index, is passed over. -/
inductive OneByOne (s : Store σ) : World σ → List BulkAction → List Json → World σ → Prop
  | nil {w : World σ} : OneByOne s w [] [] w
  | put {w w₁ w₂ : World σ} {a : BulkAction} {index line : String} {response : Response}
    {item : Json} {rest : List BulkAction} {items : List Json} :
    a.puts = true → a.index = some index → index ≠ "" → a.source = some line →
    (answerDocument index (Utf8.encode line)).respond.run s w = (response, w₁) →
    (∀ q, PutsDocument index (Utf8.encode line) q → (serve q).run s w = (response, w₁)) →
    Tells a.name index response item → OneByOne s w₁ rest items w₂ →
      OneByOne s w (a :: rest) (item :: items) w₂
  | passed {w w₁ : World σ} {a : BulkAction} {key : String} {report : Report}
    {rest : List BulkAction} {items : List Json} :
    a.puts = false ∨ a.index.getD "" = "" → report.status = 400 → OneByOne s w rest items w₁ →
      OneByOne s w (a :: rest) (failedItem key (a.index.getD "") report :: items) w₁

theorem OneByOne.length_eq {actions : List BulkAction} {items : List Json} {w' : World σ}
    (h : OneByOne s w actions items w') : items.length = actions.length := by
  induction h with
  | nil => rfl
  | put _ _ _ _ _ _ _ _ ih => exact congrArg Nat.succ ih
  | passed _ _ _ ih => exact congrArg Nat.succ ih

/-- The item of an action that puts a document has the name of the action as its key. -/
theorem key_of_puts {a : BulkAction} (h : a.puts = true) (index : String)
    (outcome : Except Report Int) : BulkItem.key ⟨a.name, index, outcome⟩ = a.name := by
  simp only [BulkAction.puts, Bool.or_eq_true, beq_iff_eq] at h
  rcases h with h | h <;> simp [BulkItem.key, h]

/-- An item tells what the response to the request for its document says. -/
theorem tells_toJson {a : BulkAction} (h : a.puts = true) (index : String)
    (outcome : Except Failure Int) :
    Tells a.name index
      (.ofOutcome (outcome.map fun id => .ofJson 201 (.object (createdMembers index id))))
      (BulkItem.toJson ⟨a.name, index, outcome.mapError Failure.report⟩) := by
  rw [BulkItem.toJson, key_of_puts h]
  cases outcome with
  | ok id => exact .created id
  | error f => exact .failed f.report (status_of_failure f)

theorem failed_iff (item : BulkItem) : item.failed = true ↔ HasError item.toJson := by
  obtain ⟨action, index, outcome⟩ := item
  cases outcome with
  | ok id =>
    simp [BulkItem.failed, HasError, BulkItem.toJson, BulkItem.members, createdMembers]
  | error report =>
    simp [BulkItem.failed, HasError, BulkItem.toJson, BulkItem.members]

/-! ## Runs -/

/-- The request for a document is answered with what became of it. -/
theorem run_answerDocument (s : Store σ) (index : String) (source : List UInt8) (w : World σ) :
    (answerDocument index source).respond.run s w =
      (.ofOutcome (((putDocument index source).attempt.run s w).1.map fun id =>
        .ofJson 201 (.object (createdMembers index id))),
        ((putDocument index source).attempt.run s w).2) := by
  rw [Handler.run_respond, answerDocument, Handler.run_bind]
  obtain ⟨outcome, w'⟩ := (putDocument index source).attempt.run s w
  cases outcome <;> rfl

/-- An action puts its document. -/
theorem run_performAction (s : Store σ) {a : BulkAction} {index line : String}
    (hputs : a.puts = true) (hindex : a.index = some index) (hne : index ≠ "")
    (hsource : a.source = some line) (w : World σ) :
    (performAction a).run s w =
      (⟨a.name, index,
        ((putDocument index (Utf8.encode line)).attempt.run s w).1.mapError Failure.report⟩,
        ((putDocument index (Utf8.encode line)).attempt.run s w).2) := by
  have hempty : index.isEmpty = false := by simpa using hne
  simp only [performAction, hputs, hindex, hsource, hempty, putSource, Option.getD_some,
    Bool.not_true, Bool.false_eq_true, ↓reduceIte]
  exact Program.run_bind s _ _ w

/-- An action that puts nothing, or names no index, only makes an item. -/
theorem performAction_passed {a : BulkAction} (h : a.puts = false ∨ a.index.getD "" = "") :
    ∃ report : Report, report.status = 400 ∧
      performAction a = .done ⟨a.name, a.index.getD "", .error report⟩ := by
  cases hputs : a.puts with
  | false =>
    refine ⟨unsupportedAction a.name, rfl, ?_⟩
    simp only [performAction, hputs, Bool.not_false, ↓reduceIte]
    rfl
  | true =>
    have hempty : (a.index.getD "").isEmpty = true := by
      rw [hputs] at h
      simpa using h
    refine ⟨missingIndex, rfl, ?_⟩
    simp only [performAction, hputs, hempty, Bool.not_true, Bool.false_eq_true, ↓reduceIte]
    rfl

/-- Actions put their documents one by one. -/
theorem run_performActions {actions : List BulkAction}
    (hsource : ∀ a ∈ actions, a.puts = true → ∃ line, a.source = some line) (w : World σ) :
    OneByOne s w actions (((performActions actions).run s w).1.map BulkItem.toJson)
      ((performActions actions).run s w).2 := by
  induction actions generalizing w with
  | nil => exact .nil
  | cons a rest ih =>
    obtain ⟨hfirst, hrest⟩ := List.forall_mem_cons.mp hsource
    have hrun : (performActions (a :: rest)).run s w =
        (((performAction a).run s w).1 ::
            ((performActions rest).run s ((performAction a).run s w).2).1,
          ((performActions rest).run s ((performAction a).run s w).2).2) := by
      refine (Program.run_bind s (performAction a) _ w).trans ?_
      exact Program.run_bind s (performActions rest) _ _
    rw [hrun]
    -- What the action leaves is the store that the rest starts with.
    have hnext := ih hrest ((performAction a).run s w).2
    by_cases hpassed : a.puts = false ∨ a.index.getD "" = ""
    · obtain ⟨report, hstatus, ha⟩ := performAction_passed hpassed
      rw [ha] at hnext ⊢
      exact .passed hpassed hstatus hnext
    · obtain ⟨hputs, hindex⟩ := not_or.mp hpassed
      have hputs : a.puts = true := by simpa using hputs
      obtain ⟨line, hline⟩ := hfirst hputs
      obtain ⟨index, hnamed⟩ : ∃ index, a.index = some index := by
        cases hnone : a.index with
        | none => exact absurd (by rw [hnone]; rfl) hindex
        | some index => exact ⟨index, rfl⟩
      have hne : index ≠ "" := by simpa [hnamed] using hindex
      have halone := run_answerDocument s index (Utf8.encode line) w
      rw [run_performAction s hputs hnamed hne hline] at hnext ⊢
      refine .put hputs hnamed hne hline halone ?_ (tells_toJson hputs index _) hnext
      intro q hq
      rw [hq.serve_eq]
      exact halone

/-- Nothing is done of a body whose lines cannot be read. -/
theorem answerBulk_eq (index : Option String) (body : List UInt8) :
    answerBulk index body =
      match textOfBody body >>= parseBulk none with
      | .ok actions => do
        let items ← ExceptT.lift (performActions (actions.map (BulkAction.on index)))
        return bulkJson items
      | .error e => ExceptT.mk (.done (.error (.body e))) := by
  rw [answerBulk]
  cases textOfBody body with
  | error e => rfl
  | ok text =>
    have hparse := parseBulk_eq index text
    change (Handler.orRefuse (parseBulk index text) >>= _) = match parseBulk none text with
      | .ok actions => _
      | .error e => _
    cases hnone : parseBulk none text with
    | error e =>
      rw [hparse, hnone]
      rfl
    | ok actions =>
      rw [hparse, hnone]
      rfl

/-- A bulk request whose lines can be read puts the documents of its actions one by one, and has an
item for each of them. If they cannot be read, nothing is done. -/
theorem serve_bulk (s : Store σ) (w : World σ) {q : Request} {segment : Option Segment}
    (hpath : Target.ofPath? q.path = some (.bulk segment)) (hmethod : q.method = "POST") :
    match textOfBody q.body >>= parseBulk none with
    | .ok actions => ∃ errors items w',
      (serve q).run s w = (.ofJson 200 (.object [("took", .ofNat 0), ("errors", .bool errors),
        ("items", .array items)]), w') ∧
      items.length = actions.length ∧
      OneByOne s w (actions.map (BulkAction.on (nameOf? segment))) items w' ∧
      (errors = true ↔ ∃ item ∈ items, HasError item)
    | .error _ => ∃ reason,
      serve q = .done (.ofJson 400 (Report.body ⟨"parse_exception", 400, reason⟩)) := by
  have hserve : serve q = (answer (.bulk segment) q.method q.body).respond :=
    serve_of_target hpath (by simp [hmethod, Target.methods]) (by simp [hmethod])
  rw [hserve, answer, answerBulk_eq]
  cases hparse : textOfBody q.body >>= parseBulk none with
  | error e => exact ⟨_, rfl⟩
  | ok actions =>
    obtain ⟨text, -, htext⟩ := bind_eq_ok.mp hparse
    have hsource : ∀ a ∈ actions.map (BulkAction.on (nameOf? segment)), a.puts = true →
        ∃ line, a.source = some line :=
      List.forall_mem_map.mpr fun a ha hputs => exists_source htext a ha hputs
    have hitems := run_performActions (s := s) hsource w
    generalize hrun :
      (performActions (actions.map (BulkAction.on (nameOf? segment)))).run s w = ran at hitems
    refine ⟨ran.1.any BulkItem.failed, ran.1.map BulkItem.toJson, ran.2, ?_, ?_, hitems, ?_⟩
    · rw [Handler.run_respond, Handler.run_bind, Handler.run_bind, Handler.run_lift, hrun]
      rfl
    · rw [hitems.length_eq, List.length_map]
    · simp only [List.any_eq_true, List.mem_map, exists_exists_and_eq_and, failed_iff]

/-- A bulk request with one document to put, and an action that is not supported. -/
def bulkExample : Request where
  method := "POST"
  path := "/logs/_bulk"
  body := Utf8.encode "\x7b\"create\":\x7b\x7d\x7d\n\x7b\"a\":1\x7d\n\x7b\"delete\":\x7b\x7d\x7d"

/-- The document of the example is put as if by itself. -/
theorem serve_bulk_example : Target.ofPath? bulkExample.path = some (.bulk (some ⟨"logs"⟩)) ∧
    ∃ errors items w',
      (serve bulkExample).run Store.Tables.store ⟨{}, {}⟩ = (.ofJson 200 (.object
        [("took", .ofNat 0), ("errors", .bool errors), ("items", .array items)]), w') ∧
      items.length = 2 ∧
      OneByOne Store.Tables.store ⟨{}, {}⟩
        [⟨"create", some "logs", some "\x7b\"a\":1\x7d"⟩, ⟨"delete", some "logs", none⟩] items w' ∧
      (errors = true ↔ ∃ item ∈ items, HasError item) := by
  have hpath : Target.ofPath? bulkExample.path = some (.bulk (some ⟨"logs"⟩)) := by decide
  have hparse : textOfBody bulkExample.body >>= parseBulk none =
      .ok [⟨"create", none, some "\x7b\"a\":1\x7d"⟩, ⟨"delete", none, none⟩] := by decide +kernel
  have hname : nameOf? (some ⟨"logs"⟩) = some "logs" := by decide +kernel
  have h := serve_bulk Store.Tables.store ⟨{}, {}⟩ hpath rfl
  rw [hparse, hname] at h
  exact ⟨hpath, h⟩

end

end Quarry.Http
