/-
# Documents in order

The documents that a request asks for, in the order in which they are listed.

* `ListedBefore` — the order of documents by sort keys, and by their numbers where they have all
  keys in common.
* `IsListing` — a list of all documents that a query asks for in that order. `IsListing.unique` —
  there is only one.
* `isListing_listed` — sorting the documents by their keys lists them.
* `pageOf` — the members on a page. `flatMap_pageOf` — the pages of one size, one after another, are
  the first members.
-/
import Quarry.Proofs.Plan.Partition
import Quarry.Proofs.Sql.Plain
import Quarry.Proofs.Store.Numbered

namespace Quarry.Plan

open Quarry.Request Quarry.Sql Quarry.Store.Tables

variable {field : String} {sort : List SortEntry} {query : Option Query} {rows ds : List TableRow}

/-! ## The order of documents -/

/-- A direction puts a key before another one. -/
def Puts (direction : SortDirection) (a b : SortKey) : Prop :=
  match direction with
  | .asc => SortKey.compare a b = .lt
  | .desc => SortKey.compare b a = .lt

/-- A document is listed before another one. -/
inductive ListedBefore : List SortEntry → TableRow → TableRow → Prop
  /-- Documents that have all keys in common stand in the order of their numbers. -/
  | number {a b : TableRow} (h : a.id < b.id) : ListedBefore [] a b
  /-- The first sort key decides if it differs. -/
  | here {e : SortEntry} {rest : List SortEntry} {a b : TableRow} {key key' : SortKey}
      (ha : HasKey e.field key a) (hb : HasKey e.field key' b) (h : Puts e.direction key key') :
      ListedBefore (e :: rest) a b
  /-- Otherwise the others do. -/
  | later {e : SortEntry} {rest : List SortEntry} {a b : TableRow} {key : SortKey}
      (ha : HasKey e.field key a) (hb : HasKey e.field key b) (h : ListedBefore rest a b) :
      ListedBefore (e :: rest) a b

theorem Puts.asymm {direction : SortDirection} {a b : SortKey} (h : Puts direction a b) :
    ¬ Puts direction b a := by
  intro h'
  cases direction <;>
  · rw [Puts, ← SortKey.compare_swap, Ordering.swap_eq_lt] at h'
    rw [Puts, h'] at h
    cases h

/-- No two documents are listed each before the other. -/
theorem ListedBefore.asymm {a b : TableRow} (h : ListedBefore sort a b) :
    ¬ ListedBefore sort b a := by
  induction h with
  | number h =>
    rintro ⟨h'⟩
    exact Nat.lt_asymm h h'
  | here ha hb h =>
    rintro (_ | ⟨hb', ha', h'⟩ | ⟨hb', ha', h'⟩)
    · rw [ha'.unique ha, hb'.unique hb] at h'
      exact h.asymm h'
    · rw [← ha'.unique ha, hb'.unique hb] at h
      exact h.asymm h
  | later ha hb _ ih =>
    rintro (_ | ⟨hb', ha', h'⟩ | ⟨hb', ha', h'⟩)
    · rw [ha'.unique ha, hb'.unique hb] at h'
      exact h'.asymm h'
    · exact ih h'

/-- All documents that a query asks for, in the order of sort keys. -/
structure IsListing (query : Option Query) (sort : List SortEntry) (rows ds : List TableRow) :
    Prop where
  perm : ds.Perm (matched query rows)
  ordered : ds.Pairwise (ListedBefore sort)

/-- There is only one such list. -/
theorem IsListing.unique {ds' : List TableRow} (h : IsListing query sort rows ds)
    (h' : IsListing query sort rows ds') : ds = ds' := by
  refine (h.perm.trans h'.perm.symm).eq_of_pairwise ?_ h.ordered h'.ordered
  intro a b _ _ hab hba
  exact absurd hba hab.asymm

/-! ## Sorting documents -/

/-- The key of a document in a field, and that of missing values if the field cannot be read. -/
def keyOf (field : String) (d : TableRow) : SortKey :=
  ((fieldCell d.content field).toOption.map sortKey).getD .null

theorem hasKey_keyOf {d : TableRow} (hd : IsDocument d.content) (hfield : FieldAccepted field) :
    HasKey field (keyOf field d) d := by
  obtain ⟨c, hc⟩ := fieldCell_total hd hfield
  refine ⟨c, hc, ?_⟩
  rw [keyOf, hc]
  rfl

/-- The keys of a document for a request. -/
def keysOf (sort : List SortEntry) (d : TableRow) : List SortKey :=
  sort.map fun e => keyOf e.field d

/-- Documents in the order of their keys. -/
def listed (sort : List SortEntry) (ds : List TableRow) : List TableRow :=
  sortOn (sort.map SortEntry.direction) (keysOf sort) ds

/-- Documents whose keys stand in order, or have all keys in common and numbers in order, stand in
order. -/
theorem listedBefore_of_keysOf {a b : TableRow}
    (ha : ∀ e ∈ sort, HasKey e.field (keyOf e.field a) a)
    (hb : ∀ e ∈ sort, HasKey e.field (keyOf e.field b) b)
    (h : keysBefore (sort.map SortEntry.direction) (keysOf sort a) (keysOf sort b) = true ∨
      (keysOf sort a = keysOf sort b ∧ a.id < b.id)) : ListedBefore sort a b := by
  induction sort with
  | nil =>
    rcases h with h | ⟨-, h⟩
    · cases h
    · exact .number h
  | cons e rest ih =>
    obtain ⟨ha, harest⟩ := List.forall_mem_cons.mp ha
    obtain ⟨hb, hbrest⟩ := List.forall_mem_cons.mp hb
    have hlater : keyOf e.field a = keyOf e.field b → ListedBefore rest a b →
        ListedBefore (e :: rest) a b := fun hkey hrest => .later ha (hkey ▸ hb) hrest
    rw [List.map_cons, keysOf, List.map_cons, keysOf, List.map_cons, keysBefore_cons,
      List.cons.injEq] at h
    rcases h with (⟨hkey, h⟩ | h) | ⟨⟨hkey, hkeys⟩, h⟩
    · exact hlater hkey (ih harest hbrest (.inl h))
    · refine .here ha hb ?_
      unfold Puts
      cases hdirection : e.direction <;> simpa [hdirection] using h
    · exact hlater hkey (ih harest hbrest (.inr ⟨hkeys, h⟩))

/-- Sorting the documents that a query asks for lists them. -/
theorem isListing_listed (hrising : Rising rows) (hdocuments : ∀ d ∈ rows, IsDocument d.content)
    (hsort : ∀ e ∈ sort, FieldAccepted e.field) :
    IsListing query sort rows (listed sort (matched query rows)) where
  perm := perm_sortOn _ _ _
  ordered := by
    have hkeys : ∀ d ∈ listed sort (matched query rows), ∀ e ∈ sort,
        HasKey e.field (keyOf e.field d) d := by
      intro d hd e he
      have hmatched := (perm_sortOn _ _ _).mem_iff.mp hd
      exact hasKey_keyOf (hdocuments d (List.mem_of_mem_filter hmatched)) (hsort e he)
    have hearlier : (matched query rows).Pairwise fun a b => a.id < b.id :=
      hrising.sublist List.filter_sublist
    have hlength : ∀ d, (keysOf sort d).length = (sort.map SortEntry.direction).length := by
      simp [keysOf]
    refine (pairwise_sortOn hlength hearlier).imp_of_mem fun ha hb h => ?_
    exact listedBefore_of_keysOf (hkeys _ ha) (hkeys _ hb) h

/-! ## Pages -/

section

variable {α β : Type} {R : α → β → Prop}

/-- The members on a page: so many are left out, and so many of the others are on it. -/
def pageOf (size start : Option Nat) (l : List α) : List α :=
  (l.drop (start.getD 0)).take (size.getD defaultSize)

theorem mem_of_mem_pageOf {size start : Option Nat} {l : List α} {a : α}
    (h : a ∈ pageOf size start l) : a ∈ l :=
  List.mem_of_mem_drop (List.mem_of_mem_take h)

/-- The first pages of one size, one after another, are the first members. -/
theorem flatMap_pageOf (k n : Nat) (l : List α) :
    (List.range n).flatMap (fun i => pageOf (some k) (some (i * k)) l) = l.take (n * k) := by
  induction n with
  | zero => simp
  | succ n ih =>
    rw [List.range_succ, List.flatMap_append, ih, List.flatMap_singleton, Nat.succ_mul,
      List.take_add]
    rfl

end

end Quarry.Plan
