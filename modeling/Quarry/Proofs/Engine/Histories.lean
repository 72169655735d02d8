/-
# Histories

What a store holds after clients have made indices and put documents into them.

* `made`, `documentsOf` — the indices that requests make, and the documents that they put into one.
* `Records` — a store holds these documents under these indices, numbered in order.
* `Records.created`, `Records.indexed` — each request goes on record. `records_after` — so do all of
  them.
* `Lossless` — what clients are answered, and what they find. `histories_lossless` — so it is after
  every history.
-/
import Quarry.Proofs.Engine.Indices
import Quarry.Proofs.Json.Parsed
import Quarry.Proofs.Sql.Sorted

namespace Quarry.Engine

open Quarry.Engine.Program (World)
open Quarry.Json Quarry.Outcome Quarry.Request Quarry.Sql Quarry.Store Quarry.Store.Tables
open Quarry.Text

/-! ## What requests ask for -/

/-- Whether a request puts nothing but objects, and so is not refused. -/
def Write.puts (x : Write) : Bool := x.documents.all Json.isObject

/-- The indices that requests make. -/
def made (xs : List Write) : List String := (xs.filter Write.puts).map Write.index

/-- The documents that requests put into an index, in order. -/
def documentsOf (index : String) (xs : List Write) : List Json :=
  (xs.filter fun x => x.puts && x.index == index).flatMap Write.documents

section

variable {xs : List Write} {x : Write} {index name : String} {d : Json}

theorem mem_made : index ∈ made xs ↔ ∃ x ∈ xs, x.puts = true ∧ x.index = index := by
  simp [made, and_assoc]

theorem made_concat : made (xs ++ [x]) = made xs ++ if x.puts then [x.index] else [] := by
  rw [made, List.filter_append, List.map_append, ← made]
  cases hputs : x.puts <;> simp [hputs]

theorem documentsOf_concat : documentsOf index (xs ++ [x]) =
    documentsOf index xs ++ if x.puts && x.index == index then x.documents else [] := by
  rw [documentsOf, List.filter_append, List.flatMap_append, ← documentsOf]
  cases hputs : x.puts && x.index == index <;> simp [hputs]

theorem documentsOf_of_not_mem (h : index ∉ made xs) : documentsOf index xs = [] := by
  rw [documentsOf, List.filter_eq_nil_iff.mpr]
  · rfl
  · intro x hx hputs
    rw [Bool.and_eq_true, beq_iff_eq] at hputs
    exact h (mem_made.mpr ⟨x, hx, hputs⟩)

theorem made_create : made (xs ++ [.create index]) = made xs ++ [index] := made_concat

theorem documentsOf_create : documentsOf name (xs ++ [.create index]) = documentsOf name xs := by
  rw [documentsOf_concat]
  split_ifs <;> exact List.append_nil _

theorem puts_put (hd : d.isObject = true) : (Write.put index d).puts = true := by
  simp [Write.puts, Write.documents, hd]

theorem made_put (hd : d.isObject = true) : made (xs ++ [.put index d]) = made xs ++ [index] := by
  rw [made_concat, if_pos (puts_put hd)]
  rfl

theorem documentsOf_put (hd : d.isObject = true) : documentsOf name (xs ++ [.put index d]) =
    if index = name then documentsOf name xs ++ [d] else documentsOf name xs := by
  rw [documentsOf_concat, puts_put hd, Bool.true_and]
  show documentsOf name xs ++ (if index == name then [d] else []) = _
  simp only [beq_iff_eq]
  split_ifs
  · rfl
  · exact List.append_nil _

end

/-! ## What stores hold -/

/-- The rows of documents, numbered from one in their order. -/
def numberedRows (ds : List Json) : List TableRow := ds.mapIdx fun i d => ⟨i + 1, d.text⟩

theorem length_numberedRows (ds : List Json) : (numberedRows ds).length = ds.length :=
  List.length_mapIdx

theorem numberedRows_concat (ds : List Json) (d : Json) :
    numberedRows (ds ++ [d]) = numberedRows ds ++ [⟨ds.length + 1, d.text⟩] :=
  List.mapIdx_concat

theorem nextId_numberedRows (ds : List Json) : nextId (numberedRows ds) = ds.length + 1 := by
  rcases List.eq_nil_or_concat' ds with rfl | ⟨before, d, rfl⟩
  · rfl
  · rw [numberedRows_concat, nextId, List.getLast?_concat, List.length_append]
    rfl

/-- The tables are those of the indices that requests make, and each holds the documents that they
put into it. -/
structure Records (xs : List Write) (w : World Tables) : Prop where
  registry : w.registry = {}
  distinct : w.store.names.Nodup
  named : ∀ name, name ∈ w.store.names ↔ name ∈ made xs
  rows : ∀ index ∈ made xs, w.store.rows? index = some (numberedRows (documentsOf index xs))

/-- A name is that of an index, is not kept for internal use, and is not spelled otherwise among the
indices that are made. -/
structure IsFit (xs : List Write) (index : String) : Prop where
  name : isIndexName index = true
  notReserved : isReserved index = false
  spelled : ∀ name ∈ made xs, sameName name index = true → name = index

section

variable {xs : List Write} {w : World Tables} {index : String}

theorem Records.find?_eq_none (h : Records xs w) (hindex : IsFit xs index)
    (hnew : index ∉ made xs) : w.store.find? index = none := by
  rw [find?_eq, List.find?_eq_none]
  intro table hmem hsame
  have hmade := (h.named table.name).mp (mem_names.mpr ⟨table, hmem, rfl⟩)
  exact hnew (hindex.spelled table.name hmade hsame ▸ hmade)

/-- The names stay different when a table with another name is added. -/
theorem nodup_names_add {t : Tables} (h : t.names.Nodup) (hnew : index ∉ t.names) :
    (names { t with tables := t.tables ++ [⟨index, []⟩] }).Nodup := by
  rw [mem_names] at hnew
  rw [names, (perm_sortStable _ _).nodup_iff] at h ⊢
  rw [List.map_append]
  refine List.nodup_append.mpr ⟨h, List.nodup_singleton index, ?_⟩
  rintro _ hmem _ hother rfl
  obtain ⟨table, htable, rfl⟩ := List.mem_map.mp hmem
  exact hnew ⟨table, htable, List.mem_singleton.mp hother⟩

/-- Making an index goes on record. -/
theorem Records.created (h : Records xs w) (hindex : IsFit xs index) :
    ∃ t, onTables (createIndex index) w = (.ok (decide (index ∉ made xs)), { w with store := t }) ∧
      Records (xs ++ [.create index]) { w with store := t } := by
  have hok : checkName index = .ok () := checkName_eq_ok.mpr hindex.name
  rw [createIndex_onTables, hok]
  simp only
  by_cases hmade : index ∈ made xs
  · have hthere := (contains_iff_mem_names hindex.name).mpr ((h.named index).mpr hmade)
    have hsame : ∀ name, name ∈ made (xs ++ [.create index]) ↔ name ∈ made xs := by
      intro name
      rw [made_create, List.mem_append, List.mem_singleton, or_iff_left_iff_imp]
      rintro rfl
      exact hmade
    refine ⟨w.store, ?_, h.registry, h.distinct, fun name => (h.named name).trans (hsame name).symm,
      fun name hname => ?_⟩
    · rw [if_pos hthere, decide_eq_false (not_not.mpr hmade)]
    · rw [documentsOf_create]
      exact h.rows name ((hsame name).mp hname)
  · have hnone := h.find?_eq_none hindex hmade
    have hlisted : index ∉ w.store.names := fun hmem => hmade ((h.named index).mp hmem)
    have hthere : ¬ w.store.contains index = true := fun hthere =>
      hlisted ((contains_iff_mem_names hindex.name).mp hthere)
    have hcreate : w.store.create index =
        .ok { w.store with tables := w.store.tables ++ [⟨index, []⟩] } :=
      create_eq_ok.mpr ⟨hindex.notReserved, isWritable_of_isIndexName hindex.name,
        .inr ⟨hnone, sameName_templatesTable hindex.name, rfl⟩⟩
    refine ⟨{ w.store with tables := w.store.tables ++ [⟨index, []⟩] }, ?_, h.registry,
      nodup_names_add h.distinct hlisted, fun name => ?_, fun name hname => ?_⟩
    · rw [if_neg hthere, hcreate, decide_eq_true hmade]
    · rw [mem_names_add, h.named, made_create, List.mem_append, List.mem_singleton]
    · rw [documentsOf_create]
      rw [made_create, List.mem_append, List.mem_singleton] at hname
      rw [rows?, find?_add]
      rcases hname with hname | rfl
      · -- A table that was there is found before the new one.
        have hold := h.rows name hname
        obtain ⟨table, hfind, hrows⟩ := Option.map_eq_some_iff.mp hold
        rw [hfind, Option.some_or, Option.map_some, hrows]
      · rw [hnone, sameName_self, documentsOf_of_not_mem hmade]
        rfl

/-- Putting an object into an index goes on record, under the next number. -/
theorem Records.indexed (h : Records xs w) (hindex : IsFit xs index) {d : Json}
    (hd : d.IsReadBack) (hobject : d.isObject = true) :
    ∃ t, onTables (indexDocument index d) w =
        (.ok ((documentsOf index xs).length + 1 : Nat), { w with store := t }) ∧
      Records (xs ++ [.put index d]) { w with store := t } := by
  obtain ⟨t, hcreated, hmade⟩ := h.created hindex
  have hmem : index ∈ made (xs ++ [.create index]) := by
    rw [made_create]
    exact List.mem_append_right _ (List.mem_singleton_self index)
  have hrows := hmade.rows index hmem
  rw [documentsOf_create] at hrows
  have hkept : Verbatim.ofText? d.text = some (Verbatim.ofJson d) := by
    rw [Verbatim.ofText?_text hd.valid.writable]
    exact if_pos (Nat.le_trans hd.nesting (by decide))
  have hinsert : t.insert index d.text = .ok ((documentsOf index xs).length + 1,
      { t with tables := append index ⟨(documentsOf index xs).length + 1, d.text⟩ t.tables }) := by
    refine insert_eq_ok.mpr ⟨_, _, hrows, hkept, (nextId_numberedRows _).symm, ?_⟩
    rw [Verbatim.text_ofJson hd.valid.writable]
  refine ⟨{ t with tables := append index ⟨(documentsOf index xs).length + 1, d.text⟩ t.tables },
    ?_, h.registry, ?_, fun name => ?_, fun name hname => ?_⟩
  · refine indexDocument_of_insert hobject hcreated ?_ hinsert
    rw [h.registry]
    rfl
  · rw [names_append]
    exact hmade.distinct
  · rw [names_append, hmade.named, made_create, made_put hobject]
  · rw [made_put hobject, ← made_create] at hname
    have hold := hmade.rows name hname
    rw [documentsOf_create] at hold
    rw [rows?_append, documentsOf_put hobject]
    by_cases heq : index = name
    · subst heq
      rw [if_pos (sameName_self index), if_pos rfl, hold, numberedRows_concat]
      rfl
    · have hother : ¬ sameName index name = true := by
        intro hsame
        rw [made_create, List.mem_append, List.mem_singleton] at hname
        rcases hname with hname | rfl
        · exact heq (hindex.spelled name hname (sameName_comm index name ▸ hsame)).symm
        · exact heq rfl
      rw [if_neg hother, if_neg heq, hold]

/-- A document that is no object is refused, and nothing goes on record. -/
theorem indexDocument_notObject (w : World Tables) (index : String) {d : Json}
    (hd : d.isObject = false) :
    onTables (indexDocument index d) w = (.error (.decode .notAnObject), w) := by
  rw [indexDocument_onTables, if_neg (by simp [hd])]

theorem Records.refused (h : Records xs w) {d : Json} (hd : d.isObject = false) :
    Records (xs ++ [.put index d]) w := by
  have hputs : (Write.put index d).puts = false := by simp [Write.puts, Write.documents, hd]
  have hmade : made (xs ++ [.put index d]) = made xs := by
    rw [made_concat, hputs]
    exact List.append_nil _
  have hdocuments : ∀ name, documentsOf name (xs ++ [.put index d]) = documentsOf name xs := by
    intro name
    rw [documentsOf_concat, hputs, Bool.false_and]
    exact List.append_nil _
  refine ⟨h.registry, h.distinct, ?_, ?_⟩
  · rw [hmade]
    exact h.named
  · rw [hmade]
    intro name hname
    rw [hdocuments]
    exact h.rows name hname

/-! ## What is found -/

theorem forall₂_mapIdx {α β γ : Type} {R : β → γ → Prop} {f : Nat → α → β} {g : Nat → α → γ}
    {l : List α} (h : ∀ i, ∀ a ∈ l, R (f i a) (g i a)) :
    List.Forall₂ R (l.mapIdx f) (l.mapIdx g) := by
  refine List.forall₂_iff_get.mpr ⟨by simp, fun i hi _ => ?_⟩
  simp only [List.get_eq_getElem, List.getElem_mapIdx]
  exact h i _ (List.getElem_mem _)

/-- The hits of documents, numbered from one in their order. -/
def numberedHits (index : String) (ds : List Json) : List Hit :=
  ds.mapIdx fun i d => ⟨index, (i + 1 : Nat), d⟩

/-- Documents that are read back are found as they were put. -/
theorem hitsOfRows_numberedRows {ds : List Json} (h : ∀ d ∈ ds, d.IsReadBack) :
    hitsOfRows index none (allRows (numberedRows ds)) = .ok (numberedHits index ds) := by
  refine (traverses_hitsOfRows index none).ok_iff.mpr ?_
  rw [allRows, List.forall₂_map_left_iff]
  refine forall₂_mapIdx fun i d hd => ?_
  have hholds : HoldsDocument ⟨i + 1, d.text⟩ d := ⟨h d hd, rfl⟩
  exact hitOfRow_eq hholds

/-- A search for all documents finds those that were put into an index. -/
theorem Records.found (h : Records xs w) (hindex : isIndexName index = true)
    (hmade : index ∈ made xs) (hds : ∀ d ∈ documentsOf index xs, d.IsReadBack) {r : SearchRequest}
    (hr : AsksForAll r) (hsize : (documentsOf index xs).length ≤ r.limit)
    (hlimit : (r.limit : Int) ≤ Digits.int64Max) :
    onTables (search index r) w = (.ok ⟨numberedHits index (documentsOf index xs), []⟩, w) := by
  refine search_rows hindex ((contains_iff_mem_names hindex).mpr ((h.named index).mpr hmade))
    (h.rows index hmade) hr ?_ hlimit ?_
  · rw [length_numberedRows]
    exact hsize
  · rw [h.registry]
    exact hitsOfRows_numberedRows hds

/-- The indices are listed with the numbers of their documents. -/
theorem Records.mem_entries (h : Records xs w) (index : String) (n : Nat) :
    (index, n) ∈ entries w.store ↔ index ∈ made xs ∧ n = (documentsOf index xs).length := by
  have hcount : ∀ name ∈ made xs,
      ((w.store.rows? name).getD []).length = (documentsOf name xs).length := by
    intro name hname
    rw [h.rows name hname]
    exact length_numberedRows _
  simp only [entries, List.mem_map, Prod.mk.injEq]
  constructor
  · rintro ⟨name, hname, rfl, rfl⟩
    exact ⟨(h.named name).mp hname, hcount name ((h.named name).mp hname)⟩
  · rintro ⟨hmade, rfl⟩
    exact ⟨index, (h.named index).mpr hmade, rfl, hcount index hmade⟩

end

/-! ## Histories -/

/-- Requests whose names are those of indices, not kept for internal use and always spelled in one
way, and whose documents were read from texts and have no numbers but integers. -/
structure IsHistory (xs : List Write) : Prop where
  name : ∀ x ∈ xs, isIndexName x.index = true
  notReserved : ∀ x ∈ xs, isReserved x.index = false
  spelled : ∀ x ∈ xs, ∀ y ∈ xs, sameName x.index y.index = true → x.index = y.index
  read : ∀ x ∈ xs, ∀ d ∈ x.documents, ∃ body, Json.ofBytes body = .ok d
  integers : ∀ x ∈ xs, ∀ d ∈ x.documents, d.floats = []

section

variable {xs before rest : List Write} {x : Write}

theorem IsHistory.left (h : IsHistory (before ++ rest)) : IsHistory before where
  name x hx := h.name x (List.mem_append_left rest hx)
  notReserved x hx := h.notReserved x (List.mem_append_left rest hx)
  spelled x hx y hy := h.spelled x (List.mem_append_left rest hx) y (List.mem_append_left rest hy)
  read x hx := h.read x (List.mem_append_left rest hx)
  integers x hx := h.integers x (List.mem_append_left rest hx)

theorem IsHistory.isReadBack (h : IsHistory xs) (hx : x ∈ xs) {d : Json} (hd : d ∈ x.documents) :
    d.IsReadBack := by
  obtain ⟨body, hbody⟩ := h.read x hx d hd
  exact isReadBack_of_ofBytes hbody (h.integers x hx d hd)

theorem IsHistory.isFit (h : IsHistory (before ++ x :: rest)) : IsFit before x.index where
  name := h.name x (List.mem_append_right before List.mem_cons_self)
  notReserved := h.notReserved x (List.mem_append_right before List.mem_cons_self)
  spelled name hname hsame := by
    obtain ⟨y, hy, -, rfl⟩ := mem_made.mp hname
    exact h.spelled y (List.mem_append_left _ hy) x (List.mem_append_right _ List.mem_cons_self)
      hsame

/-- One request after another goes on record. -/
theorem records_after (h : IsHistory xs) : Records xs (after fresh xs) := by
  induction xs using List.reverseRecOn with
  | nil =>
    refine ⟨rfl, List.nodup_nil, fun name => Iff.rfl, ?_⟩
    rintro index ⟨⟩
  | append_singleton before x ih =>
    have hbefore := ih h.left
    rw [after_append]
    cases x with
    | create index =>
      obtain ⟨t, ht, hrecords⟩ := hbefore.created h.isFit
      have hafter : after (after fresh before) [.create index] =
          { after fresh before with store := t } := congrArg Prod.snd ht
      rw [hafter]
      exact hrecords
    | put index d =>
      have hd := h.isReadBack (List.mem_append_right _ (List.mem_singleton_self _))
        (List.mem_singleton_self d)
      cases hobject : d.isObject with
      | true =>
        obtain ⟨t, ht, hrecords⟩ := hbefore.indexed h.isFit hd hobject
        have hafter : after (after fresh before) [.put index d] =
            { after fresh before with store := t } := congrArg Prod.snd ht
        rw [hafter]
        exact hrecords
      | false =>
        have hafter : after (after fresh before) [.put index d] = after fresh before :=
          congrArg Prod.snd (indexDocument_notObject _ index hobject)
        rw [hafter]
        exact hbefore.refused hobject

end

/-- What clients are answered in the course of a history, and what they find after it. -/
structure Lossless (xs : List Write) : Prop where
  /-- An index is made, and is new unless it was made before. -/
  created : ∀ before index rest, xs = before ++ .create index :: rest →
    (onTables (createIndex index) (after fresh before)).1 = .ok (decide (index ∉ made before))
  /-- An object is accepted under the next number. -/
  indexed : ∀ before index d rest, xs = before ++ .put index d :: rest → d.isObject = true →
    (onTables (indexDocument index d) (after fresh before)).1 =
      .ok ((documentsOf index before).length + 1 : Nat)
  /-- Any other document is refused, and nothing changes. -/
  refused : ∀ before index d rest, xs = before ++ .put index d :: rest → d.isObject = false →
    onTables (indexDocument index d) (after fresh before) =
      (.error (.decode .notAnObject), after fresh before)
  /-- A search for all documents of an index finds those accepted into it, in their order, under
  their numbers, and as they were sent. -/
  found : ∀ index ∈ made xs, ∀ r, AsksForAll r → (documentsOf index xs).length ≤ r.limit →
    (r.limit : Int) ≤ Digits.int64Max → onTables (search index r) (after fresh xs) =
      (.ok ⟨(documentsOf index xs).mapIdx fun i d => ⟨index, (i + 1 : Nat), d⟩, []⟩, after fresh xs)
  /-- Each index that was made is listed once, with the number of these documents. -/
  listed : ∃ entries, onTables listIndices (after fresh xs) = (.ok entries, after fresh xs) ∧
    (entries.map Prod.fst).Nodup ∧
    ∀ index n, (index, n) ∈ entries ↔ index ∈ made xs ∧ n = (documentsOf index xs).length

/-- Nothing is lost in the course of a history. -/
theorem histories_lossless {xs : List Write} (h : IsHistory xs) : Lossless xs := by
  have hrecords := records_after h
  refine ⟨?_, ?_, ?_, ?_, ?_⟩
  · rintro before index rest rfl
    obtain ⟨t, ht, -⟩ := (records_after h.left).created h.isFit
    exact congrArg Prod.fst ht
  · rintro before index d rest rfl hobject
    have hd := h.isReadBack (List.mem_append_right before List.mem_cons_self)
      (List.mem_singleton_self d)
    obtain ⟨t, ht, -⟩ := (records_after h.left).indexed h.isFit hd hobject
    exact congrArg Prod.fst ht
  · rintro before index d rest rfl hobject
    exact indexDocument_notObject _ index hobject
  · intro index hmade r hr hsize hlimit
    obtain ⟨x, hx, -, rfl⟩ := mem_made.mp hmade
    refine hrecords.found (h.name x hx) hmade (fun d hd => ?_) hr hsize hlimit
    obtain ⟨y, hy, hd⟩ := List.mem_flatMap.mp hd
    exact h.isReadBack (List.mem_filter.mp hy).1 hd
  · refine ⟨_, listIndices_onTables _, ?_, hrecords.mem_entries⟩
    have hnames : (entries (after fresh xs).store).map Prod.fst = (after fresh xs).store.names := by
      rw [entries, List.map_map]
      exact List.map_id _
    rw [hnames]
    exact hrecords.distinct

/-- Two indices, with a document that is refused before the second one is put into the first. -/
def exampleHistory : List Write :=
  [.create "logs", .put "logs" exampleDocument, .put "Events" .null, .create "Events",
    .put "logs" (.object [])]

theorem isHistory_example : IsHistory exampleHistory := by
  have hdocuments : ∀ x ∈ exampleHistory, ∀ d ∈ x.documents,
      d = exampleDocument ∨ d = .null ∨ d = .object [] := by
    simp [exampleHistory, Write.documents]
  refine ⟨by decide, by decide, by decide, fun x hx d hd => ?_, fun x hx d hd => ?_⟩
  · -- The text of a document that is read back is one that it can be read from.
    have hread : d.IsReadBack := by
      rcases hdocuments x hx d hd with rfl | rfl | rfl
      · exact isReadBack_example
      · exact ⟨.null, by decide, nofun⟩
      · exact ⟨.object [] Named.ascending_nil nofun, by decide, nofun⟩
    exact ⟨_, ofText_text hread⟩
  · rcases hdocuments x hx d hd with rfl | rfl | rfl <;> rfl

/-- What was put in the course of the example is found after it. -/
theorem histories_lossless_example : IsHistory exampleHistory ∧ Lossless exampleHistory ∧
    onTables (search "logs" {}) (after fresh exampleHistory) =
      (.ok ⟨[⟨"logs", 1, exampleDocument⟩, ⟨"logs", 2, .object []⟩], []⟩,
        after fresh exampleHistory) := by
  have hlossless := histories_lossless isHistory_example
  exact ⟨isHistory_example, hlossless,
    hlossless.found "logs" (by decide) {} ⟨rfl, rfl, rfl, rfl⟩ (by decide) (by decide)⟩

end Quarry.Engine
