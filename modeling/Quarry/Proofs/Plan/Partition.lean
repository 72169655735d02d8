/-
# Partitions into buckets

The buckets of an aggregation divide the documents that a query asks for.

* `matched` — the documents that a query asks for.
* `IsPartition` — keys of buckets, each once and in the order of the buckets.
* `partitionKeys`, `bucketNode_groups` — the keys of the groups of a statement for buckets.
* `IsBucketOf` — a bucket has the key and the number of the documents of a key.
* `bucketNode_assembles` — what is made of the rows of the statement are the first buckets of the
  partition.
-/
import Quarry.Proofs.Plan.Buckets

namespace Quarry.Plan

open Quarry.Outcome Quarry.Request Quarry.Result Quarry.Sql

/-! ## Keys of documents -/

section

variable {field : String} {key key' : SortKey} {d : TableRow}

/-- A document has at most one key in a field. -/
theorem HasKey.unique (h : HasKey field key d) (h' : HasKey field key' d) : key = key' := by
  obtain ⟨c, hc, rfl⟩ := h
  obtain ⟨c', hc', rfl⟩ := h'
  rw [hc] at hc'
  cases hc'
  rfl

/-- It has one if the field can be read. -/
theorem exists_hasKey (hd : IsDocument d.content) (hfield : FieldAccepted field) :
    ∃ key, HasKey field key d := by
  obtain ⟨c, hc⟩ := fieldCell_total hd hfield
  exact ⟨sortKey c, c, hc, rfl⟩

/-- The key of missing values is that of nothing else. -/
theorem hasKey_null : HasKey field .null d ↔ fieldCell d.content field = .ok .null := by
  constructor
  · rintro ⟨c, hc, hkey⟩
    rw [hc, (sortKey_eq_null (cellDefined_fieldCell hc)).mp hkey]
  · intro h
    exact ⟨.null, h, rfl⟩

end

/-! ## Sums over keys -/

/-- Documents that each have a key among different ones are as many as those of all these keys
together. -/
theorem sum_length_filter {α κ : Type} [DecidableEq κ] (f : α → κ) {keys : List κ}
    (hnodup : keys.Nodup) {l : List α} (h : ∀ a ∈ l, f a ∈ keys) :
    (keys.map fun k => (l.filter fun a => f a = k).length).sum = l.length := by
  induction keys generalizing l with
  | nil =>
    rw [List.eq_nil_iff_forall_not_mem.mpr fun a ha => absurd (h a ha) List.not_mem_nil]
    rfl
  | cons k rest ih =>
    obtain ⟨hk, hrest⟩ := List.nodup_cons.mp hnodup
    -- The documents of the other keys are those without the first one.
    have hothers : ∀ a ∈ l.filter (fun a => ¬ f a = k), f a ∈ rest := by
      intro a ha
      obtain ⟨hmem, hne⟩ := List.mem_filter.mp ha
      exact (List.mem_cons.mp (h a hmem)).resolve_left (of_decide_eq_true hne)
    have hcount : (rest.map fun j => (l.filter fun a => f a = j).length) =
        rest.map fun j => ((l.filter fun a => ¬ f a = k).filter fun a => f a = j).length := by
      refine List.map_congr_left fun j hj => ?_
      have hne : j ≠ k := fun h => hk (h ▸ hj)
      rw [List.filter_filter]
      refine congrArg List.length (List.filter_congr fun a _ => ?_)
      by_cases haj : f a = j
      · simp [haj, hne]
      · simp [haj]
    rw [List.map_cons, List.sum_cons, hcount, ih hrest hothers]
    simp only [decide_not]
    exact (List.length_eq_length_filter_add _).symm

/-! ## Partitions -/

open Classical in
/-- The documents that a query asks for. -/
noncomputable def matched (query : Option Query) (rows : List TableRow) : List TableRow :=
  rows.filter fun d => Satisfies query d

open Classical in
/-- Without a query all documents are asked for. -/
theorem matched_none (rows : List TableRow) : matched none rows = rows :=
  List.filter_eq_self.mpr fun _ _ => decide_eq_true trivial

/-- The number of documents of the bucket of a key. -/
noncomputable def bucketSize (query : Option Query) (field : String) (rows : List TableRow)
    (key : SortKey) : Nat :=
  (counted query field key rows).length

/-- The bucket of a key comes before that of another one: of terms the greater one, and of two of one
size the one of the lesser key; of dates the one of the lesser key. -/
def BucketBefore (kind : AggregateKind) (query : Option Query) (rows : List TableRow)
    (a b : SortKey) : Prop :=
  match kind with
  | .terms t => bucketSize query t.field rows b < bucketSize query t.field rows a ∨
      (bucketSize query t.field rows a = bucketSize query t.field rows b ∧
        SortKey.compare a b = .lt)
  | _ => SortKey.compare a b = .lt

/-- Keys divide the documents that a query asks for into buckets. -/
structure IsPartition (kind : AggregateKind) (query : Option Query) (rows : List TableRow)
    (keys : List SortKey) : Prop where
  distinct : keys.Nodup
  /-- The keys are those of the documents. -/
  mem : ∀ key, key ∈ keys ↔ ∃ d ∈ rows, Satisfies query d ∧ HasKey kind.field key d
  /-- All documents are counted, each once. -/
  total : (keys.map (bucketSize query kind.field rows)).sum = (matched query rows).length
  ordered : keys.Pairwise (BucketBefore kind query rows)
  /-- Missing values have one key, and it is that of nothing else. -/
  missing : ∀ d, HasKey kind.field .null d ↔ fieldCell d.content kind.field = .ok .null

open Classical in
/-- Different keys that are those of the documents count all of them. -/
theorem sum_bucketSize {query : Option Query} {field : String} {rows : List TableRow}
    {keys : List SortKey} (hdocuments : ∀ d ∈ rows, IsDocument d.content)
    (hfield : FieldAccepted field) (hnodup : keys.Nodup)
    (hmem : ∀ key, key ∈ keys ↔ ∃ d ∈ rows, Satisfies query d ∧ HasKey field key d) :
    (keys.map (bucketSize query field rows)).sum = (matched query rows).length := by
  -- The key of a document, and that of missing values where it has none.
  let keyOf : TableRow → SortKey := fun d =>
    if h : ∃ key, HasKey field key d then h.choose else .null
  have hkeyOf : ∀ d ∈ rows, HasKey field (keyOf d) d := by
    intro d hd
    have hkey := exists_hasKey (hdocuments d hd) hfield
    simp only [keyOf, dif_pos hkey]
    exact hkey.choose_spec
  have hcount : ∀ key, bucketSize query field rows key =
      ((matched query rows).filter fun d => keyOf d = key).length := by
    intro key
    rw [bucketSize, counted, matched, List.filter_filter]
    refine congrArg List.length (List.filter_congr fun d hd => ?_)
    rw [Bool.eq_iff_iff, Bool.and_eq_true, decide_eq_true_eq, decide_eq_true_eq, decide_eq_true_eq]
    constructor
    · rintro ⟨hsat, hkey⟩
      exact ⟨(hkeyOf d hd).unique hkey, hsat⟩
    · rintro ⟨rfl, hsat⟩
      exact ⟨hsat, hkeyOf d hd⟩
  rw [List.map_congr_left fun key _ => hcount key]
  refine sum_length_filter keyOf hnodup fun d hd => ?_
  obtain ⟨hmemRow, hsat⟩ := List.mem_filter.mp hd
  exact (hmem (keyOf d)).mpr ⟨d, hmemRow, of_decide_eq_true hsat, hkeyOf d hmemRow⟩

/-! ## Keys of groups -/

section

variable {α κ : Type} [DecidableEq κ]

theorem mem_of_groupAt_ne_nil {k : κ} {groups : List (κ × List α)} (h : groupAt k groups ≠ []) :
    k ∈ groups.map Prod.fst := by
  induction groups with
  | nil => exact absurd rfl h
  | cons g rest ih =>
    obtain ⟨j, as⟩ := g
    by_cases hkj : k = j
    · exact hkj ▸ List.mem_cons_self
    · rw [groupAt, if_neg hkj] at h
      exact List.mem_cons_of_mem j (ih h)

/-- Gathered members are in groups of different keys, and each is in the group of its key. -/
theorem keys_gather (members : List (κ × α)) :
    ((gather members).map Prod.fst).Nodup ∧
      ∀ m ∈ members, m.1 ∈ (gather members).map Prod.fst := by
  have hnone : AreGroups ([] : List (κ × List α)) := ⟨List.nodup_nil, nofun⟩
  obtain ⟨hare, hat⟩ := gather_from members hnone
  refine ⟨hare.nodup, fun m hm => mem_of_groupAt_ne_nil ?_⟩
  have hgroup : groupAt m.1 (gather members) =
      [] ++ (members.filter fun n => n.1 = m.1).map Prod.snd := hat m.1
  rw [hgroup, List.nil_append]
  exact List.ne_nil_of_mem (List.mem_map_of_mem (List.mem_filter.mpr ⟨hm, decide_eq_true rfl⟩))

end

section

variable {index label : String} {query : Option Query} {ps : List Expr}
  (hps : List.Forall₂ (fun (a : Atom) e => a.expr = .ok e) (leaves query) ps)
  {rows : List TableRow} {d : Definition} {order : List (OrderKey Expr SortDirection)}
  {limit : Option Nat} {subs : List (Definition × Subselect)} {name : String}

/-- The rows of the documents of a bucket. -/
noncomputable def bucketScopes (query : Option Query) (field name : String) (rows : List TableRow)
    (key : SortKey) : List Scope :=
  (counted query field key rows).map fun d => [⟨name, d⟩]

include hps

open Classical in
/-- The rows found that are gathered under some keys are those of the documents of one bucket. -/
theorem gather_found {keyed : List (List SortKey × Scope)}
    (hkeyed : withKeys Expr.eval [⟨.field none d.field, .asc⟩] (found name [] ps rows) = .ok keyed)
    {g : List SortKey × List Scope} (hg : g ∈ gather keyed) :
    g.2 ≠ [] ∧ ∃ key, ([key], bucketScopes query d.field name rows key) = g := by
  obtain ⟨ks, as⟩ := g
  obtain ⟨hall, hne⟩ := mem_gather hg
  rw [filter_keyed hkeyed ks] at hall
  obtain ⟨key, rfl, hscopes⟩ := exists_key_of_filter hps hne hall
  exact ⟨hne, key, Prod.ext rfl hscopes.symm⟩

open Classical in
/-- The groups of rows of a statement for buckets are those of the keys of the documents. -/
theorem bucketNode_groups {groups : List (List Scope)}
    (hgroups : Statement.groupRows (bucketNode index ps label d order limit subs).statement
      (found name [] ps rows) = .ok groups) :
    ∃ keys : List SortKey, keys.Nodup ∧
      (∀ key, key ∈ keys ↔ ∃ r ∈ rows, Satisfies query r ∧ HasKey d.field key r) ∧
      groups = keys.map (bucketScopes query d.field name rows) := by
  obtain ⟨keyed, hkeyed, h⟩ := bind_eq_ok.mp hgroups
  cases h
  have horder := groupOrder_bucketNode index label ps d order limit subs
  rw [Statement.groupOrder] at horder
  rw [horder] at hkeyed ⊢
  have hrows := withKeys_eq_ok.mp hkeyed
  obtain ⟨keys, hperm, hsorted⟩ := exists_sortByKeys [SortDirection.asc]
    (f := fun key => ([key], bucketScopes query d.field name rows key))
    fun g hg => (gather_found hps hkeyed hg).2
  obtain ⟨hdistinct, hgathered⟩ := keys_gather keyed
  have hkeys : ((keys.map fun key => ([key], bucketScopes query d.field name rows key)).map
      Prod.fst) = keys.map fun key => [key] := by
    rw [List.map_map]
    rfl
  refine ⟨keys, ?_, ?_, hsorted⟩
  · have hnodup := (hperm.map Prod.fst).nodup_iff.mpr hdistinct
    rw [hkeys] at hnodup
    exact List.Nodup.of_map _ hnodup
  · intro key
    constructor
    · intro hkey
      have hmem := hperm.mem_iff.mp (List.mem_map_of_mem hkey)
      obtain ⟨scope, hscope⟩ := List.exists_mem_of_ne_nil _ (gather_found hps hkeyed hmem).1
      obtain ⟨r, hr, -⟩ := List.mem_map.mp hscope
      obtain ⟨hrow, hr⟩ := List.mem_filter.mp hr
      exact ⟨r, hrow, of_decide_eq_true hr⟩
    · rintro ⟨r, hr, hsat, hkey⟩
      -- The row of the document is found, and gathered under its key.
      have hfound : [⟨name, r⟩] ∈ found name [] ps rows :=
        List.mem_map_of_mem (List.mem_filter.mpr ⟨hr, passes_iff.mpr (holdsAll_eq_true.mpr
          ((holdsAll_eq_true_iff hps r name []).mpr hsat))⟩)
      obtain ⟨m, hm, hmkeys, -⟩ := exists_of_mem_right hrows.flip hfound
      obtain ⟨key', hkey', hhas⟩ := evalKeys_field.mp hmkeys
      have hmem := (hperm.map Prod.fst).mem_iff.mpr (hgathered m hm)
      rw [hkeys, hkey'] at hmem
      obtain ⟨key'', hmem, heq⟩ := List.mem_map.mp hmem
      cases heq
      exact hhas.unique hkey ▸ hmem

end

/-! ## The order of buckets -/

/-- The keys by which a bucket is put in order. -/
noncomputable def bucketKeys (kind : AggregateKind) (query : Option Query) (rows : List TableRow)
    (key : SortKey) : List SortKey :=
  match kind with
  | .terms t => [sortKey (.int (bucketSize query t.field rows key)), key]
  | _ => [key]

theorem compare_sortKey_nat {m n : Nat} :
    SortKey.compare (sortKey (.int m)) (sortKey (.int n)) = .lt ↔ m < n := by
  rw [compare_sortKey_int, Int.ofNat_lt]

theorem sortKey_int_inj {m n : Nat} : sortKey (.int m) = sortKey (.int n) ↔ m = n := by
  constructor
  · intro h
    have hunits : (m : Int) * unitsOfOne = n * unitsOfOne := SortKey.number.inj h
    exact Int.ofNat.inj (mul_right_cancel₀ unitsOfOne_pos.ne' hunits)
  · rintro rfl
    rfl

/-- The order of these keys is that of the buckets. -/
theorem keysBefore_bucketKeys {kind : AggregateKind} {query : Option Query} {rows : List TableRow}
    {a b : SortKey} :
    keysBefore (kind.bucketOrder.map OrderKey.direction) (bucketKeys kind query rows a)
      (bucketKeys kind query rows b) = true ↔ BucketBefore kind query rows a b := by
  have hkey : keysBefore [.asc] [a] [b] = true ↔ SortKey.compare a b = .lt := by
    rw [keysBefore_cons]
    simp [keysBefore]
  cases kind with
  | terms t =>
    show keysBefore [.desc, .asc] [_, a] [_, b] = true ↔ _
    rw [keysBefore_cons, hkey, sortKey_int_inj]
    exact or_comm.trans (or_congr_left compare_sortKey_nat)
  | dateHistogram h => exact hkey
  | avg f => exact hkey
  | max f => exact hkey

/-- The keys of buckets in the order of the buckets. -/
noncomputable def inBucketOrder (kind : AggregateKind) (query : Option Query) (rows : List TableRow)
    (keys : List SortKey) : List SortKey :=
  sortStable (fun a b => keysBefore (kind.bucketOrder.map OrderKey.direction)
    (bucketKeys kind query rows a) (bucketKeys kind query rows b)) keys

theorem length_bucketKeys {kind : AggregateKind} {query : Option Query} {rows : List TableRow}
    {key : SortKey} : (bucketKeys kind query rows key).length = kind.bucketOrder.length := by
  cases kind <;> rfl

theorem bucketKeys_injective {kind : AggregateKind} {query : Option Query} {rows : List TableRow} :
    Function.Injective (bucketKeys kind query rows) := by
  intro a b h
  cases kind with
  | terms t => exact (List.cons.inj (List.cons.inj h).2).1
  | dateHistogram d => exact (List.cons.inj h).1
  | avg f => exact (List.cons.inj h).1
  | max f => exact (List.cons.inj h).1

/-- Different keys that are those of the documents, in the order of the buckets, divide them. -/
theorem isPartition_inBucketOrder {kind : AggregateKind} {query : Option Query}
    {rows : List TableRow} {keys : List SortKey} (hdocuments : ∀ d ∈ rows, IsDocument d.content)
    (hfield : FieldAccepted kind.field) (hnodup : keys.Nodup)
    (hmem : ∀ key, key ∈ keys ↔ ∃ d ∈ rows, Satisfies query d ∧ HasKey kind.field key d) :
    IsPartition kind query rows (inBucketOrder kind query rows keys) := by
  have hperm : (inBucketOrder kind query rows keys).Perm keys := perm_sortStable _ _
  have hnodup' := hperm.nodup_iff.mpr hnodup
  have hmem' : ∀ key, key ∈ inBucketOrder kind query rows keys ↔
      ∃ d ∈ rows, Satisfies query d ∧ HasKey kind.field key d :=
    fun key => hperm.mem_iff.trans (hmem key)
  refine ⟨hnodup', hmem', sum_bucketSize hdocuments hfield hnodup' hmem', ?_, fun d => hasKey_null⟩
  have hstrict : IsStrict fun a b => keysBefore (kind.bucketOrder.map OrderKey.direction)
      (bucketKeys kind query rows a) (bucketKeys kind query rows b) :=
    ⟨fun a => (isStrict_keysBefore _).irrefl _, fun a b c => (isStrict_keysBefore _).trans _ _ _⟩
  refine (pairwise_sortStable hstrict ?_).imp keysBefore_bucketKeys.mp
  refine hnodup.imp fun {a b} hne => keysBefore_total ?_ ?_ (bucketKeys_injective.ne hne)
  · rw [length_bucketKeys, List.length_map]
  · rw [length_bucketKeys, List.length_map]

/-! ## Buckets -/

/-- The first members of a list, or all of them. -/
def firstOf {α : Type} (limit : Option Nat) (l : List α) : List α :=
  match limit with
  | none => l
  | some n => l.take n

theorem firstOf_map {α β : Type} (f : α → β) (limit : Option Nat) (l : List α) :
    firstOf limit (l.map f) = (firstOf limit l).map f := by
  cases limit with
  | none => rfl
  | some n => exact List.map_take.symm

theorem mem_of_mem_firstOf {α : Type} {limit : Option Nat} {l : List α} {a : α}
    (h : a ∈ firstOf limit l) : a ∈ l := by
  cases limit with
  | none => exact h
  | some n => exact List.mem_of_mem_take h

/-- Without an offset, a window shows the first members. -/
theorem apply_window {α : Type} {limit : Option Nat} {w : Window} (h : window limit none = .ok w)
    (l : List α) : w.apply l = firstOf limit l := by
  cases limit with
  | none =>
    cases h
    rfl
  | some n =>
    unfold window at h
    simp only at h
    split_ifs at h with hlarge hnone
    · cases h
      rw [hnone]
      rfl
    · cases h
      rfl

/-- A bucket has the number of the documents of a key, and their value as its key. -/
structure IsBucketOf (query : Option Query) (field : String) (rows : List TableRow) (key : SortKey)
    (b : Bucket) : Prop where
  docCount : b.docCount = bucketSize query field rows key
  key : ∃ d ds c, counted query field key rows = d :: ds ∧ fieldCell d.content field = .ok c ∧
    b.key = c.key

section

variable {index label name : String} {query : Option Query} {ps : List Expr}
  {rows : List TableRow} {kind : AggregateKind} {order : List (OrderKey Expr SortDirection)}
  {limit : Option Nat} {subs : List (Definition × Subselect)} {tables : Tables.Lookup}
  {key : SortKey}

/-- A key of a document has a first document, whose value has the key. -/
theorem exists_first {field : String} (hkey : ∃ d ∈ rows, Satisfies query d ∧ HasKey field key d) :
    ∃ first ds k, counted query field key rows = first :: ds ∧
      fieldCell first.content field = .ok k ∧ sortKey k = key := by
  classical
  obtain ⟨d, hd, hsat⟩ := hkey
  have hmem : d ∈ counted query field key rows :=
    List.mem_filter.mpr ⟨hd, decide_eq_true hsat⟩
  obtain ⟨first, ds, hds⟩ := List.exists_cons_of_ne_nil (List.ne_nil_of_mem hmem)
  have hfirst : first ∈ counted query field key rows := hds ▸ List.mem_cons_self
  obtain ⟨-, k, hk, hsort⟩ := of_decide_eq_true (List.mem_filter.mp hfirst).2
  exact ⟨first, ds, k, hds, hk, hsort⟩

/-- The groups of a statement for buckets are put in order by the keys of the buckets. -/
theorem evalKeys_bucketOrder
    (hkey : ∃ d ∈ rows, Satisfies query d ∧ HasKey kind.field key d) :
    evalKeys (fun e => (Statement.resolve (bucketNode index ps label (.ofKind kind) order limit
        subs).statement.columns e).evalGroup (bucketScopes query kind.field name rows key))
      kind.bucketOrder = .ok (bucketKeys kind query rows key) := by
  obtain ⟨first, ds, k, hds, hk, rfl⟩ := exists_first hkey
  have hgroup : (Statement.resolve (bucketNode index ps label (.ofKind kind) order limit
      subs).statement.columns (.column (groupName 0))).evalGroup
        (bucketScopes query kind.field name rows (sortKey k)) = .ok k := by
    rw [resolve_groupName, bucketScopes, hds]
    exact hk
  have hcount : (Statement.resolve (bucketNode index ps label (.ofKind kind) order limit
      subs).statement.columns (.column (functionName 0))).evalGroup
        (bucketScopes query kind.field name rows (sortKey k)) =
          .ok (.int (bucketSize query kind.field rows (sortKey k))) := by
    rw [resolve_functionName, bucketSize, ← List.length_map (f := fun d => [(⟨name, d⟩ : ScopedRow)])]
    rfl
  rw [evalKeys_eq_ok]
  cases kind with
  | terms t => exact .cons ⟨_, hcount, rfl⟩ (.cons ⟨_, hgroup, rfl⟩ .nil)
  | dateHistogram h => exact .cons ⟨_, hgroup, rfl⟩ .nil
  | avg f => exact .cons ⟨_, hgroup, rfl⟩ .nil
  | max f => exact .cons ⟨_, hgroup, rfl⟩ .nil

/-- A row over the documents of a bucket has all columns, and under the names of the first two their
value and their number. -/
theorem bucketRow_get? {row : Row}
    (hkey : ∃ d ∈ rows, Satisfies query d ∧ HasKey kind.field key d)
    (h : evalColumns tables (bucketScopes query kind.field name rows key)
      (bucketNode index ps label (.ofKind kind) order limit subs).statement.columns = .ok row) :
    (∀ column ∈ numberedNames subs.length, ∃ c, row.get? column = some c) ∧
      (∃ d ds c, counted query kind.field key rows = d :: ds ∧
        fieldCell d.content kind.field = .ok c ∧ row.get? (groupName 0) = some c) ∧
      row.get? (functionName 0) = some (.int (bucketSize query kind.field rows key)) := by
  have hnames : (bucketNode index ps label (.ofKind kind) order limit subs).statement.columns.map
      Column.name = numberedNames subs.length :=
    bucketNode_names index ps label (.ofKind kind) order limit subs
  have hnodup := nodup_columns_bucketNode index ps label (.ofKind kind) order limit subs
  obtain ⟨first, ds, k, hds, hk, -⟩ := exists_first hkey
  refine ⟨?_, ?_, ?_⟩
  · intro column hcolumn
    rw [← hnames] at hcolumn
    obtain ⟨c, hc, rfl⟩ := List.mem_map.mp hcolumn
    obtain ⟨x, -, hget⟩ := Statement.get?_evalColumns h hnodup hc
    exact ⟨x, hget⟩
  · obtain ⟨x, hx, hget⟩ := Statement.get?_evalColumns h hnodup
      (mem_columns_bucketNode.mpr (.inl rfl))
    have hfirst : Expr.evalGroup (bucketScopes query kind.field name rows key)
      (.field none kind.field) = .ok x := hx
    rw [bucketScopes, hds] at hfirst
    cases hk.symm.trans hfirst
    exact ⟨first, ds, k, hds, hk, hget⟩
  · obtain ⟨x, hx, hget⟩ := Statement.get?_evalColumns h hnodup
      (mem_columns_bucketNode.mpr (.inr (.inl rfl)))
    cases hx
    rw [bucketScopes, List.length_map] at hget
    exact hget

variable (hps : List.Forall₂ (fun (a : Atom) e => a.expr = .ok e) (leaves query) ps)
  (hrows : tables index = some rows)

include hrows in
/-- If the groups of a statement for buckets are those of some keys, its rows are computed over the
documents of the first of these keys in the order of the buckets. -/
theorem bucketNode_runs {keys : List SortKey} (hnodup : keys.Nodup)
    (hmem : ∀ key, key ∈ keys ↔ ∃ d ∈ rows, Satisfies query d ∧ HasKey kind.field key d)
    (hgroups : Statement.groupRows (bucketNode index ps label (.ofKind kind) kind.bucketOrder
        kind.bucketLimit subs).statement (found (bucketTable index subs) [] ps rows) =
      .ok (keys.map (bucketScopes query kind.field (bucketTable index subs) rows)))
    {result : List Row} (hresult : (bucketNode index ps label (.ofKind kind) kind.bucketOrder
      kind.bucketLimit subs).statement.run tables = .ok result) :
    List.Forall₂ (fun key row => evalColumns tables
        (bucketScopes query kind.field (bucketTable index subs) rows key) (bucketNode index ps label
          (.ofKind kind) kind.bucketOrder kind.bucketLimit subs).statement.columns = .ok row)
      (firstOf kind.bucketLimit (inBucketOrder kind query rows keys)) result := by
  obtain ⟨-, name, found, w, hsource, -, hw, hrun⟩ := Statement.run_eq_ok.mp hresult
  rw [sourceRows_bucketNode hrows] at hsource
  cases hsource
  -- The groups stand beside the keys by which they are put in order.
  have hkeyed : withKeys (fun group e => (Statement.resolve (bucketNode index ps label (.ofKind kind)
      kind.bucketOrder kind.bucketLimit subs).statement.columns e).evalGroup group) kind.bucketOrder
        (keys.map (bucketScopes query kind.field (bucketTable index subs) rows)) =
      .ok (keys.map fun key => (bucketKeys kind query rows key,
        bucketScopes query kind.field (bucketTable index subs) rows key)) := by
    rw [withKeys_eq_ok, List.forall₂_map_left_iff, List.forall₂_map_right_iff, List.forall₂_same]
    exact fun key hkey => ⟨evalKeys_bucketOrder ((hmem key).mp hkey), rfl⟩
  have hdistinct : ((keys.map fun key => (bucketKeys kind query rows key,
      bucketScopes query kind.field (bucketTable index subs) rows key)).map Prod.fst).Nodup := by
    rw [List.map_map]
    exact hnodup.map bucketKeys_injective
  have hsorted := Statement.runOn_groups rfl hgroups hkeyed hdistinct hrun
  have hwindow : w.apply (sortByKeys (kind.bucketOrder.map OrderKey.direction)
      (keys.map fun key => (bucketKeys kind query rows key,
        bucketScopes query kind.field (bucketTable index subs) rows key))) =
      (firstOf kind.bucketLimit (inBucketOrder kind query rows keys)).map
        (bucketScopes query kind.field (bucketTable index subs) rows) := by
    rw [sortByKeys, sortStable_map, List.map_map, apply_window hw]
    exact firstOf_map _ _ _
  rwa [show (bucketNode index ps label (.ofKind kind) kind.bucketOrder kind.bucketLimit
    subs).statement.order = kind.bucketOrder from rfl, hwindow, List.forall₂_map_left_iff] at hsorted

include hps hrows

variable (label subs) in
/-- What is made of the rows of a statement for buckets are the first buckets of a partition. -/
theorem bucketNode_assembles (hdocuments : ∀ d ∈ rows, IsDocument d.content)
    (hfield : FieldAccepted kind.field) :
    ∃ keys, IsPartition kind query rows keys ∧ ∀ result,
      (bucketNode index ps label (.ofKind kind) kind.bucketOrder kind.bucketLimit
        subs).statement.run tables = .ok result →
      ∃ bs, assembleAggregation (bucketNode index ps label (.ofKind kind) kind.bucketOrder
          kind.bucketLimit subs) result = .ok (.buckets bs) ∧
        List.Forall₂ (IsBucketOf query kind.field rows) (firstOf kind.bucketLimit keys) bs := by
  obtain ⟨groups, hgroups⟩ := groupRows_bucketNode_total index label ps (.ofKind kind)
    kind.bucketOrder kind.bucketLimit subs (bucketTable index subs) hdocuments hfield
  obtain ⟨keys, hnodup, hmem, rfl⟩ := bucketNode_groups hps hgroups
  have hpartition := isPartition_inBucketOrder hdocuments hfield hnodup hmem
  refine ⟨inBucketOrder kind query rows keys, hpartition, fun result hresult => ?_⟩
  have hrowsOf := bucketNode_runs hrows hnodup hmem hgroups hresult
  have hkeys : ∀ key ∈ firstOf kind.bucketLimit (inBucketOrder kind query rows keys),
      ∃ d ∈ rows, Satisfies query d ∧ HasKey kind.field key d :=
    fun key hkey => (hpartition.mem key).mp (mem_of_mem_firstOf hkey)
  have hcolumns : ∀ row ∈ result, ∀ column ∈ bucketNames ⟨groupName 0, .ofKind kind⟩
      ⟨functionName 0, .ofKind kind⟩ (subs.mapIdx fun i x => ⟨functionName (i + 1), x.1⟩),
      ∃ c, row.get? column = some c := by
    intro row hrow
    rw [bucketNode_bucketNames]
    obtain ⟨key, hkey, heval⟩ := exists_of_mem_right hrowsOf hrow
    exact (bucketRow_get? (hkeys key hkey) heval).1
  obtain ⟨bs, hbs, hbuckets⟩ := bucketsOfRows_total hcolumns
  refine ⟨bs, map_eq_ok.mpr ⟨bs, hbs, rfl⟩, forall₂_trans hrowsOf hbuckets ?_⟩
  intro key row b hkey hrow hb
  obtain ⟨-, ⟨d, ds, c, hds, hc, hget⟩, hcount⟩ := bucketRow_get? (hkeys key hkey) hrow
  constructor
  · obtain ⟨n, hn, hdocCount⟩ := hb.count
    cases hcount.symm.trans hn
    exact hdocCount
  · obtain ⟨k, hk, hbkey⟩ := hb.key
    cases hget.symm.trans hk
    exact ⟨d, ds, c, hds, hc, hbkey⟩

end

end Quarry.Plan
