/-
# Indices beside one another

What becomes of the indices when clients write to them, one request after another.

* `Write` — a request that makes an index, or puts a document into one. `after` — the tables after
  some such requests.
* `after_preserves` — what every change preserves holds after requests.
* `LeavesAlone`, `MakesOnce`, `Keeps` — what clients see of an index. `indices_apart` — when it is
  so.
-/
import Quarry.Proofs.Engine.Changes

namespace Quarry.Engine

open Quarry.Engine.Program (World)
open Quarry.Json Quarry.Outcome Quarry.Plan Quarry.Request Quarry.Sql Quarry.Store
open Quarry.Store.Tables Quarry.Text

/-! ## Requests that write -/

/-- A request that makes an index, or puts a document into one. -/
inductive Write where
  | create (index : String)
  | put (index : String) (document : Json)

namespace Write

/-- The index that is written to. -/
def index : Write → String
  | create index => index
  | put index _ => index

/-- The documents of a request. -/
def documents : Write → List Json
  | create _ => []
  | put _ d => [d]

/-- The tables and registry after a request. -/
def after (x : Write) (w : World Tables) : World Tables :=
  match x with
  | create index => (onTables (createIndex index) w).2
  | put index d => (onTables (indexDocument index d) w).2

/-- The texts of its documents. -/
def texts (x : Write) (text : String) : Prop := ∃ d ∈ x.documents, text = d.text

/-- A request changes nothing but the table of its index. -/
theorem exists_changes (x : Write) {w : World Tables} (hw : w.registry = {}) :
    ∃ t, x.after w = { w with store := t } ∧ Changes x.index x.texts w.store t := by
  cases x with
  | create index => exact createIndex_changes index _ w
  | put index d =>
    obtain ⟨t, ht, hchanges⟩ := indexDocument_changes index d w
    refine ⟨t, ht, Relation.ReflTransGen.mono ?_ _ _ hchanges⟩
    rintro t₁ t₂ (h | ⟨⟨stored, hstored, rfl⟩, h⟩)
    · exact .create h
    · rw [hw] at hstored
      cases hstored
      exact .insert ⟨d, List.mem_singleton_self d, rfl⟩ h

end Write

/-- The tables and registry after some requests. -/
def after (w : World Tables) (xs : List Write) : World Tables :=
  xs.foldl (fun w x => x.after w) w

/-- No tables and no templates. -/
def fresh : World Tables := { store := {} }

theorem after_append (w : World Tables) (xs ys : List Write) :
    after w (xs ++ ys) = after (after w xs) ys := List.foldl_append ..

theorem registry_after (xs : List Write) {w : World Tables} (hw : w.registry = {}) :
    (after w xs).registry = {} := by
  induction xs generalizing w with
  | nil => exact hw
  | cons x rest ih =>
    obtain ⟨t, ht, -⟩ := x.exists_changes hw
    have hx : (x.after w).registry = {} := by
      rw [ht]
      exact hw
    exact ih hx

/-- What every change that requests make preserves holds after the requests. -/
theorem after_preserves {P : Tables → Prop} {xs : List Write} {w : World Tables}
    (hw : w.registry = {}) (hstep : ∀ x ∈ xs, ∀ t t', Change x.index x.texts t t' → P t → P t')
    (ht : P w.store) : P (after w xs).store := by
  induction xs generalizing w with
  | nil => exact ht
  | cons x rest ih =>
    obtain ⟨hx, hrest⟩ := List.forall_mem_cons.mp hstep
    obtain ⟨t, hafter, hchanges⟩ := x.exists_changes hw
    have hregistry : (x.after w).registry = {} := by
      rw [hafter]
      exact hw
    have hstore : P (x.after w).store := by
      rw [hafter]
      exact hchanges.preserves hx ht
    exact ih hregistry hrest hstore

/-! ## The indices of a store -/

/-- The names of the indices with their numbers of documents. -/
def entries (t : Tables) : List (String × Nat) :=
  t.names.map fun name => (name, ((t.rows? name).getD []).length)

/-- A table that is listed is found. -/
theorem rows?_of_mem_names {t : Tables} {name : String} (h : name ∈ t.names) :
    ∃ rows, t.rows? name = some rows := by
  obtain ⟨table, hmem, rfl⟩ := mem_names.mp h
  rw [rows?, find?_eq]
  cases hfind : t.tables.find? (isKnownAs table.name) with
  | some found => exact ⟨found.rows, rfl⟩
  | none => exact absurd (sameName_self table.name) (List.find?_eq_none.mp hfind table hmem)

/-- The indices are listed with their numbers of documents. -/
theorem listIndices_onTables (w : World Tables) :
    onTables listIndices w = (.ok (entries w.store), w) := by
  have hcount : ∀ names : List String, (∀ n ∈ names, n ∈ w.store.names) →
      onTables (countTables names) w =
        (.ok (names.map fun n => (n, ((w.store.rows? n).getD []).length)), w) := by
    intro names hnames
    induction names with
    | nil => rfl
    | cons n rest ih =>
      obtain ⟨hn, hrest⟩ := List.forall_mem_cons.mp hnames
      obtain ⟨rows, hrows⟩ := rows?_of_mem_names hn
      obtain ⟨table, hfind, rfl⟩ := Option.map_eq_some_iff.mp hrows
      have hcall : onTables (call (.count n)) w = (.ok table.rows.length, w) := by
        rw [onTables_call, Tables.perform, Tables.count, hfind]
        rfl
      rw [countTables, onTables_bind_ok hcall, onTables_bind_ok (ih hrest), onTables_pure,
        List.map_cons, hrows]
      rfl
  have hnames : onTables (call .listTables) w = (.ok w.store.names, w) := rfl
  rw [listIndices, onTables_bind_ok hnames, hcount _ fun n hn => hn]
  rfl

/-- An index is listed in the same way while its table stays as it is. -/
theorem Unchanged.mem_entries {name : String} {t t' : Tables} (h : Unchanged name t t')
    (count : Nat) : (name, count) ∈ entries t' ↔ (name, count) ∈ entries t := by
  simp only [entries, List.mem_map, Prod.mk.injEq]
  constructor
  · rintro ⟨_, hmem, rfl, rfl⟩
    exact ⟨_, h.listed.mp hmem, rfl, by rw [h.rows]⟩
  · rintro ⟨_, hmem, rfl, rfl⟩
    exact ⟨_, h.listed.mpr hmem, rfl, by rw [h.rows]⟩

/-! ## Runs -/

/-- Requests whose names are that of an index in some case use this very name. -/
def Spells (index : String) (xs : List Write) : Prop :=
  ∀ x ∈ xs, sameName x.index index = true → x.index = index

/-- The documents that requests put into an index are read back from their texts. -/
def PutsReadBack (index : String) (xs : List Write) : Prop :=
  ∀ x ∈ xs, x.index = index → ∀ d ∈ x.documents, d.IsReadBack

section

variable {xs : List Write} {w : World Tables} {index : String}

theorem after_grows (xs : List Write) (hw : w.registry = {}) :
    Grows w.store (after w xs).store :=
  after_preserves hw (fun _ _ _ _ h ht => ht.trans h.grows) (.refl w.store)

theorem after_spelled (hspells : Spells index xs) (hw : w.registry = {})
    (ht : Spelled index w.store) : Spelled index (after w xs).store :=
  after_preserves hw (fun x hx _ _ h ht => h.spelled (hspells x hx) ht) ht

theorem after_holdsDocuments (hspells : Spells index xs) (hputs : PutsReadBack index xs)
    (hw : w.registry = {}) (ht : HoldsDocuments index w.store) :
    HoldsDocuments index (after w xs).store := by
  refine after_preserves hw (fun x hx t t' h ht => ?_) ht
  cases hsame : sameName x.index index with
  | false =>
    intro rows hrows
    exact ht rows ((h.unchanged hsame).rows ▸ hrows)
  | true =>
    have hx' := hspells x hx hsame
    refine (hx' ▸ h).holdsDocuments ?_ ht
    rintro text ⟨d, hd, rfl⟩
    exact ⟨d, hputs x hx hx' d hd, rfl⟩

end

theorem eq_underscore_of_toLower {c : Char} (h : c.toLower = '_') : c = '_' := by
  rcases eq_or_capital_of_toLower h with heq | ⟨hcapital, -, hval⟩
  · exact heq
  · have hlow : 65 ≤ c.toNat := hcapital
    have hhigh : c.toNat + 32 = 95 := hval
    omega

/-- No valid name is that of the table of templates, in any case. -/
theorem sameName_templatesTable {index : String} (h : isIndexName index = true) :
    sameName index templatesTable = false := by
  rw [isIndexName, Bool.and_eq_true, Bool.and_eq_true] at h
  rw [← Bool.not_eq_true, sameName_iff]
  intro hsame
  have hlist : index.toList.map Char.toLower = templatesTable.toList.map Char.toLower := by
    have htoList := congrArg String.toList hsame
    rwa [asciiLower, asciiLower, String.toList_ofList, String.toList_ofList] at htoList
  cases hchars : index.toList with
  | nil =>
    rw [hchars] at hlist
    cases hlist
  | cons c cs =>
    rw [hchars] at hlist
    have hfirst : c.toLower = '_' := (List.cons.inj hlist).1
    rw [hchars, eq_underscore_of_toLower hfirst] at h
    exact absurd h.2 (by simp)

/-- An index exists when its table is listed. -/
theorem contains_iff_mem_names {index : String} (h : isIndexName index = true) {t : Tables} :
    t.contains index = true ↔ index ∈ t.names := by
  have hne : (index == templatesTable) = false := by
    refine beq_eq_false_iff_ne.mpr ?_
    rintro rfl
    exact absurd (sameName_templatesTable h) (by rw [sameName_self]; decide)
  rw [Tables.contains, hne, Bool.false_or, List.any_eq_true, mem_names]
  simp only [beq_iff_eq]

section

variable {w w' : World Tables} {index : String}

/-- An index that is made is there afterwards. -/
theorem contains_of_created (ht : Spelled index w.store) {made : Bool}
    (h : onTables (createIndex index) w = (.ok made, w')) :
    isIndexName index = true ∧ w'.registry = w.registry ∧ w'.store.contains index = true := by
  rw [createIndex_onTables] at h
  split at h
  · cases h
  · next hok =>
    have hname := checkName_eq_ok.mp hok
    refine ⟨hname, ?_⟩
    split_ifs at h with hthere
    · cases h
      exact ⟨rfl, hthere⟩
    · cases hcreate : w.store.create index with
      | error e =>
        rw [hcreate] at h
        cases h
      | ok t =>
        rw [hcreate] at h
        cases h
        refine ⟨rfl, ?_⟩
        obtain ⟨-, -, ⟨hknown | htemplates, -⟩ | ⟨-, -, rfl⟩⟩ := create_eq_ok.mp hcreate
        · obtain ⟨table, hfind⟩ := Option.isSome_iff_exists.mp hknown
          exact absurd (ht.contains hfind) hthere
        · rw [sameName_templatesTable hname] at htemplates
          cases htemplates
        · rw [contains_add, beq_self_eq_true, Bool.or_true]

/-- A document that is put into an index is the last row of its table. -/
theorem rows?_of_indexed (ht : Spelled index w.store) (hw : w.registry = {}) {d : Json}
    (hd : d.IsReadBack) {id : Int} (h : onTables (indexDocument index d) w = (.ok id, w')) :
    isIndexName index = true ∧ w'.store.contains index = true ∧
      ∃ rows n, w'.store.rows? index = some (rows ++ [⟨n, d.text⟩]) ∧ id = n := by
  obtain ⟨made, w₁, stored, n, t, hmade, hstored, hinsert, rfl, rfl⟩ := exists_of_indexDocument h
  obtain ⟨hname, hregistry, hthere⟩ := contains_of_created ht hmade
  rw [hregistry, hw] at hstored
  obtain rfl : stored = d := (Except.ok.inj hstored).symm
  obtain ⟨rows, v, hv, hrows⟩ := rows?_of_insert hinsert
  rw [(Verbatim.of_ofText?_text hd.valid hv).2] at hrows
  refine ⟨hname, ?_, rows, n, hrows, rfl⟩
  obtain ⟨-, -, -, -, -, rfl⟩ := insert_eq_ok.mp hinsert
  exact (contains_append ..).trans hthere

end

/-! ## What clients see -/

/-- A request leaves what clients see of an index as it was. -/
structure LeavesAlone (x : Write) (index : String) (w : World Tables) : Prop where
  /-- Every search of the index has the same outcome. -/
  search : ∀ r, Agrees w (x.after w) (search index r)
  /-- It is listed with the same number of documents, or not listed still. -/
  listed : ∃ old new, onTables listIndices w = (.ok old, w) ∧
    onTables listIndices (x.after w) = (.ok new, x.after w) ∧
    ∀ n, (index, n) ∈ new ↔ (index, n) ∈ old

/-- Of the requests that make an index, at most one makes it. -/
def MakesOnce (index : String) (xs : List Write) : Prop :=
  ∀ before between rest, xs = before ++ .create index :: (between ++ .create index :: rest) →
    (onTables (createIndex index) (after fresh before)).1 = .ok true →
    (onTables (createIndex index) (after fresh (before ++ .create index :: between))).1 = .ok false

/-- A document that was put into an index is found under its number from then on. -/
def Keeps (index : String) (xs : List Write) : Prop :=
  ∀ before d rest id, xs = before ++ .put index d :: rest →
    (onTables (indexDocument index d) (after fresh before)).1 = .ok id →
    ∃ rows, (after fresh xs).store.rows? index = some rows ∧ ∀ r, AsksForAll r →
      rows.length ≤ r.limit → (r.limit : Int) ≤ Digits.int64Max →
        ∃ response, onTables (search index r) (after fresh xs) = (.ok response, after fresh xs) ∧
          ⟨index, id, d⟩ ∈ response.hits

theorem leavesAlone {x : Write} {index : String} (hne : sameName x.index index = false)
    {w : World Tables} (hw : w.registry = {}) : LeavesAlone x index w := by
  have hsame : Unchanged index w.store (after w [x]).store := by
    refine after_preserves hw (fun y hy t t' h ht => ?_) (.refl index w.store)
    obtain rfl := List.mem_singleton.mp hy
    exact ht.trans (h.unchanged hne)
  have hregistry : (x.after w).registry = w.registry := (registry_after [x] hw).trans hw.symm
  exact ⟨Agrees.search hsame.rows hsame.contains hregistry,
    _, _, listIndices_onTables w, listIndices_onTables _, hsame.mem_entries⟩

section

variable {index : String} {xs : List Write}

theorem registry_fresh (xs : List Write) : (after fresh xs).registry = {} := registry_after xs rfl

/-- The requests before others spell the index as they all do. -/
theorem Spells.spelled {before rest : List Write} (h : Spells index (before ++ rest)) :
    Spelled index (after fresh before).store :=
  after_spelled (fun x hx => h x (List.mem_append_left rest hx)) rfl
    fun _ hname => absurd hname List.not_mem_nil

theorem makesOnce (hspells : Spells index xs) : MakesOnce index xs := by
  rintro before between rest rfl hmade
  obtain ⟨hname, -, hthere⟩ := contains_of_created hspells.spelled (Prod.ext hmade rfl)
  have hstill : (after fresh (before ++ .create index :: between)).store.contains index = true := by
    rw [after_append]
    exact (after_grows between (registry_after [.create index] (registry_fresh before))).contains
      index hthere
  have hok : checkName index = .ok () := checkName_eq_ok.mpr hname
  rw [createIndex_onTables, hok]
  simp only
  rw [if_pos hstill]

theorem keeps (hspells : Spells index xs) (hputs : PutsReadBack index xs) : Keeps index xs := by
  intro before d rest id hxs hid
  have hput : Write.put index d ∈ xs := hxs ▸ List.mem_append_right before List.mem_cons_self
  have hd := hputs _ hput rfl d (List.mem_singleton_self d)
  obtain ⟨hname, hthere, rows, n, hrows, rfl⟩ := rows?_of_indexed (hxs ▸ hspells).spelled
    (registry_fresh before) hd (Prod.ext hid rfl)
  have hafter : after fresh xs = after (after fresh (before ++ [.put index d])) rest := by
    rw [hxs, List.append_cons, after_append]
  have hlater := after_grows rest (registry_fresh (before ++ [.put index d]))
  rw [← hafter, after_append] at hlater
  obtain ⟨more, hmore⟩ := hlater.rows index _ hrows
  have hholds : HoldsDocuments index (after fresh xs).store :=
    after_holdsDocuments hspells hputs rfl (by rintro _ ⟨⟩)
  refine ⟨_, hmore, fun r hr hsize hlimit => ?_⟩
  obtain ⟨response, hresponse, hall⟩ := search_all hname (hlater.contains index hthere)
    (by rw [registry_fresh xs]; rfl) hmore (hholds _ hmore) hr hsize hlimit
  exact ⟨response, hresponse, hall ⟨n, d.text⟩ (by simp) d ⟨hd, rfl⟩⟩

end

/-- A request leaves alone what clients see of every index whose name differs from its own by more
than case. An index whose name no request spells in another case is made at most once, and keeps
its documents if each is read back from its text. -/
theorem indices_apart (xs : List Write) (index : String) :
    (∀ before x rest, xs = before ++ x :: rest → sameName x.index index = false →
      LeavesAlone x index (after fresh before)) ∧
    (Spells index xs → MakesOnce index xs ∧ (PutsReadBack index xs → Keeps index xs)) :=
  ⟨fun before _ _ _ hne => leavesAlone hne (registry_fresh before),
    fun hspells => ⟨makesOnce hspells, keeps hspells⟩⟩

/-- A document with a level. -/
def exampleDocument : Json := .object [("level", .ofInt 3)]

/-- Two indices, of which one is made twice. -/
def exampleWrites : List Write :=
  [.create "logs", .put "logs" exampleDocument, .put "Events" (.object []), .create "logs"]

theorem isReadBack_example : exampleDocument.IsReadBack where
  valid := by
    refine .object _ (by decide) fun m hm => ?_
    rw [List.mem_singleton.mp hm]
    exact .int 3 (by decide)
  nesting := by decide
  floats x hx := by cases hx

theorem indices_apart_example :
    LeavesAlone (.put "Events" (.object [])) "logs" (after fresh (exampleWrites.take 2)) ∧
    (onTables (createIndex "logs") (after fresh [])).1 = .ok true ∧
    (onTables (createIndex "logs") (after fresh (exampleWrites.take 3))).1 = .ok false ∧
    ∃ response, onTables (search "logs" {}) (after fresh exampleWrites) =
        (.ok response, after fresh exampleWrites) ∧
      ⟨"logs", 1, exampleDocument⟩ ∈ response.hits := by
  obtain ⟨hleaves, hrest⟩ := indices_apart exampleWrites "logs"
  have hspells : Spells "logs" exampleWrites := by
    unfold Spells
    decide
  have hputs : PutsReadBack "logs" exampleWrites := by
    intro x hx hlogs d hd
    simp only [exampleWrites, List.mem_cons, List.not_mem_nil, or_false] at hx
    rcases hx with rfl | rfl | rfl | rfl
    · cases hd
    · rw [List.mem_singleton.mp hd]
      exact isReadBack_example
    · exact absurd hlogs (by decide)
    · cases hd
  obtain ⟨honce, hkeeps⟩ := hrest hspells
  have hmade : (onTables (createIndex "logs") (after fresh [])).1 = .ok true := by decide +kernel
  have hid : (onTables (indexDocument "logs" exampleDocument) (after fresh [.create "logs"])).1 =
      .ok 1 := by decide +kernel
  obtain ⟨rows, hrows, hfound⟩ := hkeeps hputs [.create "logs"] exampleDocument _ 1 rfl hid
  have hlength : ((after fresh exampleWrites).store.rows? "logs").map List.length = some 1 := by
    decide +kernel
  rw [hrows] at hlength
  have hone : rows.length = 1 := Option.some.inj hlength
  exact ⟨hleaves (exampleWrites.take 2) _ _ rfl (by decide), hmade, honce [] _ _ rfl hmade,
    hfound {} ⟨rfl, rfl, rfl, rfl⟩ (by rw [hone]; decide) (by decide)⟩

/-- Names that differ by case only share a table, but are looked for under their very letters: an
index is made twice, and what is put into it is not found. -/
theorem index_of_other_case :
    (onTables (createIndex "logs") (after fresh [.create "Logs"])).1 = .ok true ∧
    (onTables (createIndex "logs") (after fresh [.create "Logs", .create "logs"])).1 = .ok true ∧
    (onTables (indexDocument "logs" (.object [])) (after fresh [.create "Logs"])).1 = .ok 1 ∧
    (onTables (search "logs" {}) (after fresh [.create "Logs", .put "logs" (.object [])])).1 matches
      .error (.indexNotFound "logs") :=
  ⟨by decide +kernel, by decide +kernel, by decide +kernel, by decide +kernel⟩

end Quarry.Engine
