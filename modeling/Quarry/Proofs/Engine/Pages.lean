/-
# Pages of hits

A search lists the documents that its query asks for, and returns a page of the list.

* `IsHitOf` — a hit shows a document.
* `SearchRequest.paged` — the same request for another page.
* `search_paged_eq_ok` — when such a request has a response, and which hits are on it.
* `search_pages` — every page is a slice of one list of the documents, and pages one after another
  show each of them once.
-/
import Quarry.Proofs.Engine.Answers

namespace Quarry

open Quarry.Engine.Program (World)
open Quarry.Outcome Quarry.Plan Quarry.Request Quarry.Result Quarry.Sql Quarry.Store
open Quarry.Store.Tables Quarry.Template Quarry.Text

/-- The same request for another page. -/
def Request.SearchRequest.paged (r : SearchRequest) (size start : Option Nat) : SearchRequest :=
  { r with size, start }

/-! ## The texts of pages -/

namespace Sql.SelectText

/-- The page of a statement stands at the end of its text. -/
theorem sql_eq_append_limitSql (s : SelectText) :
    s.sql = sql { s with limit := none, offset := none } ++ limitSql s.limit s.offset := by
  simp [sql, limitSql]

/-- It has no character of code zero. -/
theorem zero_not_mem_limitSql (limit offset : Option Nat) :
    Char.ofNat 0 ∉ (limitSql limit offset).toList := by
  unfold limitSql
  cases limit with
  | none => exact List.not_mem_nil
  | some n =>
    rcases offset with _ | _ | m <;> simp [String.toList_append, Engine.zero_not_mem_ofNat]

end Sql.SelectText

/-- Statements for pages of the same hits have a character of code zero together. -/
theorem Plan.contains_zero_paged (index : String) (ps : List Expr) (r : SearchRequest)
    (size start : Option Nat) :
    (Statement.sql (hitsStatement index ps (r.paged size start))).toList.contains (Char.ofNat 0) =
      (Statement.sql (hitsStatement index ps r)).toList.contains (Char.ofNat 0) := by
  rw [Statement.sql, Statement.sql, SelectText.sql_eq_append_limitSql,
    SelectText.sql_eq_append_limitSql (Select.mapParts _ _ _ (hitsStatement index ps r)),
    Bool.eq_iff_iff, List.contains_iff_mem, List.contains_iff_mem, String.toList_append,
    String.toList_append, List.mem_append, List.mem_append,
    or_iff_left (SelectText.zero_not_mem_limitSql _ _),
    or_iff_left (SelectText.zero_not_mem_limitSql _ _)]
  -- Apart from their pages the statements are the same.
  exact Iff.rfl

/-- They are accepted together. -/
theorem Plan.isAccepted_paged {index : String} {ps : List Expr} {r : SearchRequest}
    {size start : Option Nat} :
    (hitsStatement index ps (r.paged size start)).IsAccepted ↔
      (hitsStatement index ps r).IsAccepted := by
  have htext := contains_zero_paged index ps r size start
  exact ⟨fun h => ⟨htext ▸ h.text, h.depth, h.columns, h.groups, h.order⟩,
    fun h => ⟨htext.trans h.text, h.depth, h.columns, h.groups, h.order⟩⟩

namespace Engine

/-! ## Hits -/

/-- A hit shows a document: the value of its text, with its dates as the mapping says. -/
structure IsHitOf (index : String) (mapping : Option Mapping) (d : TableRow) (hit : Hit) :
    Prop where
  index : hit.index = index
  id : hit.id = d.id
  source : ∃ v, Json.ofText d.content = .ok v ∧ readDocument mapping v = .ok hit.source

theorem hitOfRow_eq_ok {index : String} {mapping : Option Mapping} {d : TableRow} {hit : Hit} :
    hitOfRow index mapping [(hitNumber, .int d.id), (hitDocument, .text d.content)] = .ok hit ↔
      IsHitOf index mapping d hit := by
  simp only [hitOfRow_document, bind_eq_ok, mapError_eq_ok, map_eq_ok]
  constructor
  · rintro ⟨v, hv, source, hsource, rfl⟩
    exact ⟨rfl, rfl, v, hv, hsource⟩
  · rintro ⟨hindex, hnumber, v, hv, hsource⟩
    obtain ⟨index', id, source⟩ := hit
    cases hindex
    cases hnumber
    exact ⟨v, hv, source, hsource, rfl⟩

/-- The hits of the rows of documents show them. -/
theorem hitsOfRows_allRows_eq_ok {index : String} {mapping : Option Mapping} {ds : List TableRow}
    {hits : List Hit} :
    hitsOfRows index mapping (allRows ds) = .ok hits ↔
      List.Forall₂ (IsHitOf index mapping) ds hits := by
  rw [(traverses_hitsOfRows index mapping).ok_iff, allRows, List.forall₂_map_left_iff]
  simp only [hitOfRow_eq_ok]

/-! ## Pages -/

/-- What a search needs besides its page: an index that is there, aggregations that have results,
and a statement for the hits that is accepted. -/
structure Serves (w : World Tables) (index : String) (p : Plan) : Prop where
  name : isIndexName index = true
  there : w.store.contains index = true
  aggregations : ∀ n ∈ p.aggregations, ∃ result, HasResult w.store.rows? n result
  accepted : p.hits.IsAccepted

/-- The pages of a request show a list of documents. -/
structure ShownInPages (w : World Tables) (index : String) (r : SearchRequest) (p : Plan)
    (ds : List TableRow) : Prop where
  /-- The hits of a response are those of the documents on the page. -/
  slice : ∀ size start response w',
    onTables (search index (r.paged size start)) w = (.ok response, w') →
      List.Forall₂ (IsHitOf index (w.registry.lookup index)) (pageOf size start ds) response.hits
  /-- There is a response if the page is not too large and its documents can be shown. -/
  total : ∀ size start, Serves w index p →
    (size.getD defaultSize : Int) ≤ Digits.int64Max → (start.getD 0 : Int) ≤ Digits.int64Max →
    (∀ d ∈ pageOf size start ds, ∃ hit, IsHitOf index (w.registry.lookup index) d hit) →
      ∃ response, onTables (search index (r.paged size start)) w = (.ok response, w)
  /-- Pages of one size that are enough for all documents show each of them once. -/
  complete : ∀ k n : Nat, Serves w index p → (k : Int) ≤ Digits.int64Max →
    (∀ i < n, ((i * k : Nat) : Int) ≤ Digits.int64Max) →
    (∀ d ∈ ds, ∃ hit, IsHitOf index (w.registry.lookup index) d hit) → ds.length ≤ n * k →
      ∃ responses : List SearchResponse,
        List.Forall₂ (fun i response =>
          onTables (search index (r.paged (some k) (some (i * k)))) w = (.ok response, w))
          (List.range n) responses ∧
        List.Forall₂ (IsHitOf index (w.registry.lookup index)) ds
          (responses.flatMap SearchResponse.hits)

section

variable {w : World Tables} {index : String} {rows : List TableRow}
  (hrows : w.store.rows? index = some rows) (hdocuments : ∀ d ∈ rows, IsDocument d.content)
  {r : SearchRequest} {p : Plan} (hplan : compile index r = .ok p)
  (hquery : ∀ a ∈ leaves r.query, FieldAccepted a.field)
  (hsort : ∀ e ∈ r.sort, FieldAccepted e.field)

include hrows hdocuments hplan hquery hsort

/-- A request for a page has a response when the search has what it needs, the page is not too
large, and its documents can be shown. -/
theorem search_paged_eq_ok {size start : Option Nat} {response : SearchResponse}
    {w' : World Tables} :
    onTables (search index (r.paged size start)) w = (.ok response, w') ↔
      isIndexName index = true ∧ w.store.contains index = true ∧ w = w' ∧
        List.Forall₂ (HasResult w.store.rows?) p.aggregations response.aggregations ∧
        p.hits.IsAccepted ∧
        (∃ win, window (some (size.getD defaultSize)) start = .ok win) ∧
        List.Forall₂ (IsHitOf index (w.registry.lookup index))
          (pageOf size start (listed r.sort (matched r.query rows))) response.hits := by
  obtain ⟨ps, hplanned⟩ := compile_eq_ok.mp hplan
  have hpaged : compile index (r.paged size start) =
      .ok ⟨p.aggregations, hitsStatement index ps (r.paged size start)⟩ :=
    compile_eq_ok.mpr ⟨ps, hplanned.predicates, hplanned.aggregations, rfl⟩
  rw [search_onTables_eq_ok, hpaged]
  constructor
  · rintro ⟨hname, hthere, rfl, p', hp', haggs, result, hresult, hhits⟩
    cases hp'
    obtain ⟨haccepted, hw, rfl⟩ := (hitsStatement_run_eq_ok (r := r.paged size start)
      hplanned.predicates hrows hdocuments hquery hsort).mp hresult
    exact ⟨hname, hthere, rfl, haggs, hplanned.hits ▸ isAccepted_paged.mp haccepted, hw,
      hitsOfRows_allRows_eq_ok.mp hhits⟩
  · rintro ⟨hname, hthere, rfl, haggs, haccepted, hw, hhits⟩
    rw [hplanned.hits] at haccepted
    have hresult := (hitsStatement_run_eq_ok (r := r.paged size start)
      hplanned.predicates hrows hdocuments hquery hsort).mpr
        ⟨isAccepted_paged.mpr haccepted, hw, rfl⟩
    exact ⟨hname, hthere, rfl, _, rfl, haggs, _, hresult, hitsOfRows_allRows_eq_ok.mpr hhits⟩

/-- The hits of a response show the documents of its page. -/
theorem search_paged_hits {size start : Option Nat} {response : SearchResponse} {w' : World Tables}
    (h : onTables (search index (r.paged size start)) w = (.ok response, w')) :
    List.Forall₂ (IsHitOf index (w.registry.lookup index))
      (pageOf size start (listed r.sort (matched r.query rows))) response.hits := by
  obtain ⟨-, -, -, -, -, -, hhits⟩ :=
    (search_paged_eq_ok hrows hdocuments hplan hquery hsort).mp h
  exact hhits

/-- A page that is not too large is returned if its documents can be shown. -/
theorem search_paged_total (h : Serves w index p) {size start : Option Nat}
    (hsize : (size.getD defaultSize : Int) ≤ Digits.int64Max)
    (hstart : (start.getD 0 : Int) ≤ Digits.int64Max)
    (hshown : ∀ d ∈ pageOf size start (listed r.sort (matched r.query rows)),
      ∃ hit, IsHitOf index (w.registry.lookup index) d hit) :
    ∃ response, onTables (search index (r.paged size start)) w = (.ok response, w) := by
  obtain ⟨results, hresults⟩ := exists_forall₂ h.aggregations
  obtain ⟨hits, hhits⟩ := exists_forall₂ hshown
  exact ⟨⟨hits, results⟩, (search_paged_eq_ok hrows hdocuments hplan hquery hsort).mpr
    ⟨h.name, h.there, rfl, hresults, h.accepted,
      Statement.window_total (by simpa using hsize) hstart, hhits⟩⟩

/-- The pages of a request show the documents that its query asks for, sorted by their keys. -/
theorem shownInPages_listed :
    ShownInPages w index r p (listed r.sort (matched r.query rows)) where
  slice size start response w' hsearch :=
    search_paged_hits hrows hdocuments hplan hquery hsort hsearch
  total size start h hsize hstart hshown :=
    search_paged_total hrows hdocuments hplan hquery hsort h hsize hstart hshown
  complete k n h hk hstarts hshown hlength := by
    have hpages : ∀ i ∈ List.range n, ∃ response,
        onTables (search index (r.paged (some k) (some (i * k)))) w = (.ok response, w) := by
      intro i hi
      refine search_paged_total hrows hdocuments hplan hquery hsort h hk
        (hstarts i (List.mem_range.mp hi)) fun d hd => ?_
      exact hshown d (mem_of_mem_pageOf hd)
    obtain ⟨responses, hresponses⟩ := exists_forall₂ hpages
    refine ⟨responses, hresponses, ?_⟩
    -- The hits of one page after another are those of the first `n * k` documents.
    have hhits := List.rel_flatMap hresponses fun i response hsearch =>
      search_paged_hits hrows hdocuments hplan hquery hsort hsearch
    rwa [Function.swap, Function.swap, flatMap_pageOf, List.take_of_length_le hlength] at hhits

end

/-- The documents that a query asks for are listed in the order of the sort keys, and of their
numbers where they have all keys in common; pages are slices of that list. -/
theorem search_pages {w : World Tables} {index : String} {rows : List TableRow}
    (hrows : w.store.rows? index = some rows) {r : SearchRequest}
    (hdocuments : AreDocuments r.query rows) {p : Plan} (hplan : compile index r = .ok p)
    (hquery : ∀ a ∈ leaves r.query, FieldAccepted a.field)
    (hsort : ∀ e ∈ r.sort, FieldAccepted e.field) (hrising : Rising rows) :
    ∃ ds, IsListing r.query r.sort rows ds ∧ ShownInPages w index r p ds :=
  ⟨_, isListing_listed hrising hdocuments.documents hsort,
    shownInPages_listed hrows hdocuments.documents hplan hquery hsort⟩

/-! ## An example -/

/-- A request for the documents of a service, the slowest one first. -/
def slowestFirst : SearchRequest where
  query := some { term := some [("service", { value := "a" })] }
  sort := [⟨"latency", .desc⟩]

/-- Two pages of two documents are enough for those of the service. -/
theorem search_pages_example : ∃ ds responses,
    IsListing slowestFirst.query slowestFirst.sort slowestRows ds ∧
      List.Forall₂ (fun i response =>
        onTables (search "logs" (slowestFirst.paged (some 2) (some (i * 2)))) slowestWorld =
          (.ok response, slowestWorld)) (List.range 2) responses ∧
      List.Forall₂ (IsHitOf "logs" (slowestWorld.registry.lookup "logs")) ds
        (responses.flatMap SearchResponse.hits) := by
  have haccepted : FieldAccepted "service" ∧ FieldAccepted "latency" := by
    unfold FieldAccepted
    decide +kernel
  have hquery : ∀ a ∈ leaves slowestFirst.query, FieldAccepted a.field :=
    List.forall_mem_singleton.mpr haccepted.1
  have hsort : ∀ e ∈ slowestFirst.sort, FieldAccepted e.field :=
    List.forall_mem_singleton.mpr haccepted.2
  have hrising : Rising slowestRows := by
    unfold Rising
    decide
  obtain ⟨p, hplan, hserves⟩ : ∃ p, compile "logs" slowestFirst = .ok p ∧
      Serves slowestWorld "logs" p :=
    ⟨_, rfl, by decide, by decide, List.forall_mem_nil _, by decide +kernel⟩
  have hdocuments : AreDocuments slowestFirst.query slowestRows :=
    ⟨isDocument_slowestRows, fun _ _ => List.forall_mem_singleton.mpr trivial⟩
  obtain ⟨ds, hds, hpages⟩ :=
    search_pages rows?_slowestWorld hdocuments hplan hquery hsort hrising
  have hmem : ∀ d ∈ ds, d ∈ slowestRows := fun d hd =>
    List.mem_of_mem_filter (hds.perm.mem_iff.mp hd)
  have hlength : ds.length ≤ 2 * 2 := by
    have hle : (matched slowestFirst.query slowestRows).length ≤ slowestRows.length :=
      List.length_filter_le _ _
    rw [hds.perm.length_eq]
    exact le_trans hle (by decide)
  obtain ⟨responses, hresponses, hhits⟩ := hpages.complete 2 2 hserves (by decide) (by decide)
    (fun d hd => (exists_hit_slowestRows d (hmem d hd)).imp fun _ => hitOfRow_eq_ok.mp) hlength
  exact ⟨ds, responses, hds, hresponses, hhits⟩

/-- The second page of one document. -/
example : ((onTables (search "logs" (slowestFirst.paged (some 1) (some 1)))
    slowestWorld).1.toOption.map fun response => response.hits.map Hit.id) = some [1] := by
  decide +kernel

/-- A request with a query and nothing else. -/
def asking (query : Query) : SearchRequest where
  query := some query

/-- A search of an index of JSON documents has no response for a query that compares with a text
with a character of code zero or has a bound that is no instant, and where a document cannot be read
back; nor for a size or a start that can be read but is above all signed numbers of 64 bits, nor for
too many conditions or sort keys. -/
theorem search_without_hits :
    FieldAccepted "a" ∧ (∀ d ∈ slowestRows, IsDocument d.content) ∧ Rising slowestRows ∧
    (onTables (search "logs" (asking { term := some [("a", { value := "\x00" })] }))
      slowestWorld).1 matches .error (.storage (.reported "incomplete statement")) ∧
    (onTables (search "logs" (asking { range := some [("a", { gte := some (.ofInt (2 ^ 62)) })] }))
      slowestWorld).1 matches .error (.format _) ∧
    (onTables (search "logs" {}) datedWorld).1 matches .error (.format _) ∧
    ((SearchRequest.ofBytes "\x7b\"size\":9223372036854775808\x7d".toUTF8.toList).toOption.any
      fun r => (onTables (search "logs" r) slowestWorld).1 matches
        .error (.storage (.reported "limit or offset too large"))) ∧
    ((SearchRequest.ofBytes "\x7b\"from\":9223372036854775808\x7d".toUTF8.toList).toOption.any
      fun r => (onTables (search "logs" r) slowestWorld).1 matches
        .error (.storage (.reported "limit or offset too large"))) ∧
    ∀ response w',
      onTables (search "logs" (asking (allOf 999))) slowestWorld ≠ (.ok response, w') ∧
      onTables (search "logs" { sort := .replicate 2001 ⟨"a", .asc⟩ }) slowestWorld ≠
        (.ok response, w') := by
  refine ⟨?_, isDocument_slowestRows, ?_, by decide +kernel, by decide +kernel, by decide +kernel,
    by decide +kernel, by decide +kernel, fun response w' => ⟨?_, ?_⟩⟩
  · unfold FieldAccepted
    decide +kernel
  · unfold Rising
    decide
  · exact search_ne_ok (.inl ((length_leaves_allOf 999).symm ▸ by decide))
  · exact search_ne_ok (.inr (.inr (.inr (List.length_replicate.symm ▸ by decide))))

end Engine

end Quarry
