/-
# Several searches one by one

A request for several searches answers each of them like a request of its own.

* `InPairs`, `Unpaired` — which lines can be read as headers and searches.
* `Chosen` — the list of indices that a header leads to.
* `AnswersPair` — the item of a search is what a request for this search alone is answered with.
* `serve_multiSearch` — these are the items, and nothing else happens.
-/
import Quarry.Proofs.Engine.Searches
import Quarry.Proofs.Http.Runs

namespace Quarry.Http

open Quarry.Engine Quarry.Outcome Quarry.Store Quarry.Text
open Quarry.Engine.Program (World)

/-! ## Pairs of lines -/

/-- Lines are a header and a search in turn. -/
inductive InPairs : List String → List (SearchHeader × String) → Prop
  | nil : InPairs [] []
  | cons {line search : String} {header : SearchHeader} {rest : List String}
    {pairs : List (SearchHeader × String)} : SearchHeader.parse line = .ok header →
      InPairs rest pairs → InPairs (line :: search :: rest) ((header, search) :: pairs)

/-- Lines are left over, or one in the place of a header is none. -/
def Unpaired (lines : List String) : Prop :=
  lines.length % 2 = 1 ∨
    ∃ i line e, lines[2 * i]? = some line ∧ SearchHeader.parse line = .error e

theorem length_mod_two {α : Type} (a b : α) (rest : List α) :
    (a :: b :: rest).length % 2 = rest.length % 2 := Nat.add_mod_right _ 2

theorem InPairs.not_unpaired {lines : List String} {pairs : List (SearchHeader × String)}
    (h : InPairs lines pairs) : ¬ Unpaired lines := by
  induction h with
  | nil => simp [Unpaired]
  | @cons line search header rest pairs hheader _ ih =>
    rintro (hodd | ⟨i, other, e, hother, he⟩)
    · exact ih (.inl (length_mod_two line search rest ▸ hodd))
    · cases i with
      | zero =>
        obtain rfl : line = other := by simpa using hother
        rw [hheader] at he
        cases he
      | succ i => exact ih (.inr ⟨i, other, e, by simpa [Nat.mul_add] using hother, he⟩)

/-- Other lines than these are in pairs. -/
theorem unpaired_or_inPairs (lines : List String) :
    Unpaired lines ∨ ∃ pairs, InPairs lines pairs := by
  induction lines using List.twoStepInduction with
  | nil => exact .inr ⟨[], .nil⟩
  | singleton line => exact .inl (.inl rfl)
  | cons_cons line search rest ih _ =>
    cases hheader : SearchHeader.parse line with
    | error e => exact .inl (.inr ⟨0, line, e, rfl, hheader⟩)
    | ok header =>
      rcases ih with (hodd | ⟨i, other, e, hother, he⟩) | ⟨pairs, hpairs⟩
      · exact .inl (.inl ((length_mod_two line search rest).trans hodd))
      · exact .inl (.inr ⟨i + 1, other, e, by simpa [Nat.mul_add] using hother, he⟩)
      · exact .inr ⟨_, .cons hheader hpairs⟩

theorem InPairs.parsePairs_eq {lines : List String} {pairs : List (SearchHeader × String)}
    (h : InPairs lines pairs) : parsePairs lines = .ok pairs := by
  induction h with
  | nil => rfl
  | cons hheader _ ih => exact bind_eq_ok.mpr ⟨_, hheader, bind_eq_ok.mpr ⟨_, ih, rfl⟩⟩

theorem inPairs_of_parsePairs {lines : List String} {pairs : List (SearchHeader × String)}
    (heven : lines.length % 2 = 0) (h : parsePairs lines = .ok pairs) : InPairs lines pairs := by
  induction lines using List.twoStepInduction generalizing pairs with
  | nil =>
    cases h
    exact .nil
  | singleton line => cases heven
  | cons_cons line search rest ih _ =>
    obtain ⟨header, hheader, h⟩ := bind_eq_ok.mp h
    obtain ⟨pairs', hpairs, h⟩ := bind_eq_ok.mp h
    cases h
    exact .cons hheader (ih (length_mod_two line search rest ▸ heven) hpairs)

/-- Searches are read from the lines of a text that are in pairs. -/
theorem parseSearches_eq_ok {text : String} {pairs : List (SearchHeader × String)} :
    parseSearches text = .ok pairs ↔ InPairs (contentLines text) pairs := by
  unfold parseSearches
  simp only
  constructor
  · intro h
    split_ifs at h with heven
    exact inPairs_of_parsePairs heven h
  · intro h
    have heven : (contentLines text).length % 2 = 0 :=
      (Nat.mod_two_eq_zero_or_one _).resolve_right fun hodd => h.not_unpaired (.inl hodd)
    rw [if_pos heven]
    exact h.parsePairs_eq

/-! ## Indices -/

/-- The list of indices that a header leads to: what it says under `index`, the first of a list
there, if there is nothing under `index` the first under `indices`, and else that of the path. -/
inductive Chosen (path : Option String) (h : SearchHeader) : Option String → Prop
  | one {name : String} : h.index = some (.one name) → Chosen path h (some name)
  | first {name : String} {rest : List String} : h.index = some (.many (name :: rest)) →
      Chosen path h (some name)
  | indices {name : String} {rest : List String} : h.index = none →
      h.indices = some (name :: rest) → Chosen path h (some name)
  | path : h.index = some (.many []) ∨ h.index = none ∧ (h.indices = none ∨ h.indices = some []) →
      Chosen path h path

theorem chosen_named (path : Option String) (h : SearchHeader) :
    Chosen path h (h.named.orElse fun _ => path) := by
  cases hindex : h.index with
  | none =>
    cases hindices : h.indices with
    | none =>
      have hnamed : h.named = none := by rw [SearchHeader.named, hindex, hindices]; rfl
      rw [hnamed]
      exact .path (.inr ⟨hindex, .inl hindices⟩)
    | some names =>
      cases names with
      | nil =>
        have hnamed : h.named = none := by rw [SearchHeader.named, hindex, hindices]; rfl
        rw [hnamed]
        exact .path (.inr ⟨hindex, .inr hindices⟩)
      | cons name rest =>
        have hnamed : h.named = some name := by rw [SearchHeader.named, hindex, hindices]; rfl
        rw [hnamed]
        exact .indices hindex hindices
  | some target =>
    have hnamed : h.named = target.first? := by rw [SearchHeader.named, hindex]
    rw [hnamed]
    cases target with
    | one name => exact .one hindex
    | many names =>
      cases names with
      | nil => exact .path (.inl hindex)
      | cons name rest => exact .first hindex

/-! ## Single searches -/

/-- A request searches a list of indices. -/
structure Searches (indices : String) (search : List UInt8) (q : Request) : Prop where
  path : ∃ segment, segment.decoded = .ok indices ∧
    Target.ofPath? q.path = some (.search segment)
  method : q.method = "POST"
  body : q.body = search

/-- Such a request is answered with what is found. -/
theorem Searches.serve_eq {indices : String} {search : List UInt8} {q : Request}
    (h : Searches indices search q) : serve q = (answerSearch indices search).respond := by
  obtain ⟨⟨segment, hindices, htarget⟩, hmethod, rfl⟩ := h
  rw [serve_of_target htarget, answer, withName, hindices]
  · simp [hmethod, Target.methods]
  · simp [hmethod]

/-- What an item tells of the response to a request for a single search. -/
inductive TellsSearch : Response → Json → Prop
  | found (r : SearchResponse) : TellsSearch (.ofJson 200 r.toJson) r.toJson
  | failed (report : Report) (h : 400 ≤ report.status) :
    TellsSearch (.ofJson report.status report.body)
      (.object [("error", report.short), ("status", .ofNat report.status)])

/-- The item of a search is what a request for this search alone is answered with. -/
inductive AnswersPair (w : World Tables) (path : Option String) (pair : SearchHeader × String) :
    Json → Prop
  | searched {indices : String} {response : Response} {item : Json} :
    Chosen path pair.1 (some indices) →
    (answerSearch indices (Utf8.encode pair.2)).respond.run Tables.store w = (response, w) →
    (∀ q, Searches indices (Utf8.encode pair.2) q →
      (serve q).run Tables.store w = (response, w)) →
    TellsSearch response item → AnswersPair w path pair item
  | noIndex {report : Report} : Chosen path pair.1 none → report.status = 400 →
      AnswersPair w path pair (.object [("error", report.short), ("status", .ofNat 400)])

/-! ## Runs -/

/-- A search leaves everything as it is. -/
theorem searchBody_leaves (index : String) (body : List UInt8) (w : World Tables) :
    (onTables (searchBody index body) w).2 = w := by
  obtain ⟨x, hx, -⟩ : Agrees w w (searchBody index body) :=
    (Agrees.orFail _).bind fun r => Agrees.search rfl rfl rfl r
  rw [hx]

/-- What a search in an index is answered with, as it is told in an item. -/
def pairItem (w : World Tables) (path : Option String) (pair : SearchHeader × String) : Json :=
  searchItemJson ((searchIn (pair.1.target path) pair.2).attempt.run Tables.store w).1

theorem run_searchIn (index : Option String) (search : String) (w : World Tables) :
    ((searchIn index search).attempt.run Tables.store w).2 = w := by
  cases index with
  | none => rfl
  | some index =>
    rw [searchIn, Handler.run_ofEngine]
    exact searchBody_leaves index _ w

/-- Searches one after another find what each of them finds alone. -/
theorem run_performSearches (path : Option String) (pairs : List (SearchHeader × String))
    (w : World Tables) :
    (performSearches path pairs).run Tables.store w =
      (pairs.map fun pair =>
        ((searchIn (pair.1.target path) pair.2).attempt.run Tables.store w).1, w) := by
  induction pairs with
  | nil => rfl
  | cons pair rest ih =>
    obtain ⟨header, search⟩ := pair
    refine (Program.run_bind Tables.store (searchIn (header.target path) search).attempt
      _ w).trans ?_
    rw [run_searchIn]
    refine (Program.run_bind Tables.store (performSearches path rest) _ w).trans ?_
    rw [ih]
    rfl

/-- The request for a search is answered with what is found. -/
theorem run_answerSearch (indices : String) (search : List UInt8) (w : World Tables) :
    (answerSearch indices search).respond.run Tables.store w =
      (.ofOutcome (((Handler.ofEngine (searchBody (firstEntry indices) search)).attempt.run
        Tables.store w).1.map fun r => .ofJson 200 r.toJson), w) := by
  have hleaves : ((Handler.ofEngine (searchBody (firstEntry indices) search)).attempt.run
      Tables.store w).2 = w := by
    rw [Handler.run_ofEngine]
    exact searchBody_leaves (firstEntry indices) search w
  rw [Handler.run_respond, answerSearch, Handler.run_bind]
  generalize (Handler.ofEngine (searchBody (firstEntry indices) search)).attempt.run
    Tables.store w = ran at hleaves
  obtain ⟨outcome, w'⟩ := ran
  obtain rfl : w' = w := hleaves
  cases outcome <;> rfl

theorem tellsSearch (outcome : Except Failure SearchResponse) :
    TellsSearch (.ofOutcome (outcome.map fun r => .ofJson 200 r.toJson))
      (searchItemJson outcome) := by
  cases outcome with
  | ok r => exact .found r
  | error f => exact .failed f.report (status_of_failure f)

/-- The item of a search is that of a request for it alone. -/
theorem answersPair_pairItem (w : World Tables) (path : Option String)
    (pair : SearchHeader × String) : AnswersPair w path pair (pairItem w path pair) := by
  have hchosen := chosen_named path pair.1
  unfold pairItem SearchHeader.target
  cases hindices : pair.1.named.orElse fun _ => path with
  | none =>
    rw [hindices] at hchosen
    exact .noIndex hchosen rfl
  | some indices =>
    rw [hindices] at hchosen
    have halone := run_answerSearch indices (Utf8.encode pair.2) w
    refine .searched hchosen halone ?_ (tellsSearch _)
    intro q hq
    rw [hq.serve_eq]
    exact halone

/-! ## Requests for several searches -/

/-- Nothing is done of a body whose lines are not in pairs. -/
theorem answerMultiSearch_eq (index : Option String) (body : List UInt8) :
    answerMultiSearch index body =
      match textOfBody body >>= parseSearches with
      | .ok pairs => do
        let rs ← ExceptT.lift (performSearches index pairs)
        return multiSearchJson rs
      | .error e => ExceptT.mk (.done (.error (.body e))) := by
  rw [answerMultiSearch]
  cases textOfBody body with
  | error e => rfl
  | ok text =>
    change (Handler.orRefuse (parseSearches text) >>= _) = match parseSearches text with
      | .ok pairs => _
      | .error e => _
    cases parseSearches text <;> rfl

section

variable {w : World Tables} {segment : Option Segment} {q : Request}

theorem serve_of_multiSearch (hpath : Target.ofPath? q.path = some (.multiSearch segment))
    (hmethod : q.method = "GET" ∨ q.method = "POST") :
    serve q = (answer (.multiSearch segment) q.method q.body).respond := by
  refine serve_of_target hpath ?_ ?_
  · rcases hmethod with hmethod | hmethod <;> simp [hmethod, Target.methods]
  · rcases hmethod with hmethod | hmethod <;> simp [hmethod]

/-- Searches in pairs are answered in turn. -/
theorem run_of_inPairs (hpath : Target.ofPath? q.path = some (.multiSearch segment))
    (hmethod : q.method = "GET" ∨ q.method = "POST") {text : String}
    (htext : textOfBody q.body = .ok text) {pairs : List (SearchHeader × String)}
    (hpairs : InPairs (contentLines text) pairs) :
    (serve q).run Tables.store w = (.ofJson 200 (.object [("took", .ofNat 0),
      ("responses", .array (pairs.map (pairItem w (nameOf? segment))))]), w) := by
  have hparse : textOfBody q.body >>= parseSearches = .ok pairs :=
    bind_eq_ok.mpr ⟨text, htext, parseSearches_eq_ok.mpr hpairs⟩
  rw [serve_of_multiSearch hpath hmethod, answer, answerMultiSearch_eq, hparse,
    Handler.run_respond, Handler.run_bind, Handler.run_bind, Handler.run_lift, run_performSearches]
  have hitems : pairs.map (pairItem w (nameOf? segment)) = (pairs.map fun pair =>
      ((searchIn (pair.1.target (nameOf? segment)) pair.2).attempt.run Tables.store w).1).map
        searchItemJson := by
    rw [List.map_map]
    rfl
  rw [hitems]
  rfl

/-- Other bodies are refused as a whole. -/
theorem serve_of_unpaired (hpath : Target.ofPath? q.path = some (.multiSearch segment))
    (hmethod : q.method = "GET" ∨ q.method = "POST")
    (hunpaired : ∀ text, textOfBody q.body = .ok text → Unpaired (contentLines text)) :
    ∃ reason, serve q = .done (.ofJson 400 (Report.body ⟨"parse_exception", 400, reason⟩)) := by
  rw [serve_of_multiSearch hpath hmethod, answer, answerMultiSearch_eq]
  cases hparse : textOfBody q.body >>= parseSearches with
  | error e => exact ⟨_, rfl⟩
  | ok pairs =>
    obtain ⟨text, htext, hpairs⟩ := bind_eq_ok.mp hparse
    exact absurd (hunpaired text htext) (parseSearches_eq_ok.mp hpairs).not_unpaired

end

/-- Each of several searches is answered as if it were asked alone, whatever stands before and after
it, and all is left as it was. A body whose lines are not in pairs is refused as a whole. -/
theorem serve_multiSearch (w : World Tables) (segment : Option Segment) :
    ∃ item : SearchHeader × String → Json,
      (∀ pair, AnswersPair w (nameOf? segment) pair (item pair)) ∧
      (∀ pairs pairs' : List (SearchHeader × String), pairs.Perm pairs' →
        (pairs.map item).Perm (pairs'.map item)) ∧
      ∀ q, Target.ofPath? q.path = some (.multiSearch segment) →
        q.method = "GET" ∨ q.method = "POST" →
        (∀ text pairs, textOfBody q.body = .ok text → InPairs (contentLines text) pairs →
          (serve q).run Tables.store w = (.ofJson 200 (.object [("took", .ofNat 0),
            ("responses", .array (pairs.map item))]), w)) ∧
        ((∀ text, textOfBody q.body = .ok text → Unpaired (contentLines text)) → ∃ reason,
          serve q = .done (.ofJson 400 (Report.body ⟨"parse_exception", 400, reason⟩))) ∧
        ∀ text, textOfBody q.body = .ok text →
          Unpaired (contentLines text) ∨ ∃ pairs, InPairs (contentLines text) pairs := by
  refine ⟨pairItem w (nameOf? segment), answersPair_pairItem w _, fun _ _ h => h.map _, ?_⟩
  intro q hpath hmethod
  exact ⟨fun _ _ htext hpairs => run_of_inPairs hpath hmethod htext hpairs,
    serve_of_unpaired hpath hmethod, fun text _ => unpaired_or_inPairs (contentLines text)⟩

/-- Two searches, one of which names its index. -/
def multiSearchExample : Request where
  method := "POST"
  path := "/logs/_msearch"
  body := Utf8.encode "\x7b\x7d\n\x7b\x7d\n\x7b\"index\":\"metrics\"\x7d\n\x7b\x7d"

/-- The searches of the example are answered as if each were asked alone. -/
theorem serve_multiSearch_example : ∃ item : SearchHeader × String → Json,
    (∀ pair, AnswersPair ⟨{}, {}⟩ (some "logs") pair (item pair)) ∧
    (serve multiSearchExample).run Tables.store ⟨{}, {}⟩ = (.ofJson 200 (.object
      [("took", .ofNat 0), ("responses", .array [item ({}, "\x7b\x7d"),
        item ({ index := some (.one "metrics") }, "\x7b\x7d")])]), ⟨{}, {}⟩) := by
  have hpath : Target.ofPath? multiSearchExample.path = some (.multiSearch (some ⟨"logs"⟩)) := by
    decide
  have hname : nameOf? (some ⟨"logs"⟩) = some "logs" := by decide +kernel
  have hparse : textOfBody multiSearchExample.body >>= parseSearches =
      .ok [({}, "\x7b\x7d"), ({ index := some (.one "metrics") }, "\x7b\x7d")] := by decide +kernel
  obtain ⟨text, htext, hpairs⟩ := bind_eq_ok.mp hparse
  obtain ⟨item, hitem, -, hserve⟩ := serve_multiSearch ⟨{}, {}⟩ (some ⟨"logs"⟩)
  rw [hname] at hitem
  exact ⟨item, hitem, (hserve _ hpath (.inr rfl)).1 text _ htext (parseSearches_eq_ok.mp hpairs)⟩

end Quarry.Http
