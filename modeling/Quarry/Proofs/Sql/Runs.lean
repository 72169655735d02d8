/-
# Runs of statements

What stands behind the rows of the result of a statement with groups.

* `IsAccepted` — a statement that is not refused at once. `run_eq_ok` — when it gives a result.
* `mem_groupRows` — a group has all rows on which the grouping expressions have the same keys.
* `mem_runOn` — every row of the result is computed over a group.
* `runOn_groups` — the rows of the result are those of the groups in the window, in their order.
* `get?_evalColumns` — the columns of such a row hold the values of their expressions.
* `runOn_total` — a statement whose expressions have values gives a result.
-/
import Quarry.Proofs.Result.Rows
import Quarry.Proofs.Sql.Sorted

namespace Quarry.Sql

open Quarry.Outcome Quarry.Request Quarry.Result Quarry.Text

/-! ## Statements with groups -/

namespace Statement

/-- The keys by which the rows of a statement are grouped. -/
def groupOrder (s : Statement) : List (OrderKey Expr SortDirection) :=
  s.groups.map fun e => ⟨resolve s.columns e, .asc⟩

open Classical in
/-- A group has all rows on which the grouping expressions have the same keys, in their order, and
there are some. -/
theorem mem_groupRows {s : Statement} {scopes : List Scope} {groups : List (List Scope)}
    (h : groupRows s scopes = .ok groups) {group : List Scope} (hgroup : group ∈ groups) :
    group ≠ [] ∧ ∃ keys,
      group = scopes.filter fun scope => evalKeys (Expr.eval scope) s.groupOrder = .ok keys := by
  obtain ⟨keyed, hkeyed, h⟩ := bind_eq_ok.mp h
  cases h
  obtain ⟨keys, hmem⟩ := mem_sortByKeys.mp hgroup
  obtain ⟨hall, hne⟩ := mem_gather hmem
  exact ⟨hne, keys, hall.trans (filter_keyed hkeyed keys)⟩

/-- Rows on which the grouping expressions have values can be grouped. -/
theorem groupRows_total {s : Statement} {scopes : List Scope}
    (h : ∀ scope ∈ scopes, ∀ e ∈ s.groups, ∃ c, (resolve s.columns e).eval scope = .ok c) :
    ∃ groups, groupRows s scopes = .ok groups := by
  have hkeys : ∀ scope ∈ scopes, ∀ k ∈ s.groupOrder, ∃ c, k.expr.eval scope = .ok c := by
    intro scope hscope k hk
    obtain ⟨e, he, rfl⟩ := List.mem_map.mp hk
    exact h scope hscope e he
  obtain ⟨keyed, hkeyed⟩ := withKeys_total hkeys
  exact ⟨_, bind_eq_ok.mpr ⟨keyed, hkeyed, rfl⟩⟩

theorem traverses_evalColumns (tables : Tables.Lookup) (group : List Scope) :
    Traverses (fun (c : Column Output) => (c.expr.evalGroup tables group).map fun x => (c.name, x))
      (evalColumns tables group) := by
  refine ⟨rfl, fun c rest => ?_⟩
  rw [evalColumns]
  cases c.expr.evalGroup tables group <;> rfl

theorem traverses_evalGroups (tables : Tables.Lookup) (columns : List (Column Output)) :
    Traverses (fun group => evalColumns tables group columns) (evalGroups tables columns) where
  nil := rfl
  cons _ _ := rfl

section

variable {tables : Tables.Lookup} {s : Statement} {w : Window} {name : String}
  {rows : List TableRow}

/-- Every row of the result of a statement with groups is computed over a group. -/
theorem mem_runOn {result : List Row} (h : runOn tables s w name rows = .ok result)
    (hs : s.groups.isEmpty = false) {row : Row} (hrow : row ∈ result) :
    ∃ scopes groups group, filterRows name [] s.predicates rows = .ok scopes ∧
      groupRows s scopes = .ok groups ∧ group ∈ groups ∧
      evalColumns tables group s.columns = .ok row := by
  unfold runOn at h
  split at h
  · cases h
    cases hrow
  · rw [hs] at h
    obtain ⟨scopes, hscopes, h⟩ := bind_eq_ok.mp h
    obtain ⟨groups, hgroups, h⟩ := bind_eq_ok.mp h
    obtain ⟨keyed, hkeyed, h⟩ := bind_eq_ok.mp h
    obtain ⟨results, hresults, h⟩ := bind_eq_ok.mp h
    cases h
    obtain ⟨keys, hmem⟩ := mem_sortByKeys.mp (Window.mem_of_mem_apply hrow)
    have hrow : row ∈ results := (List.of_mem_zip hmem).2
    obtain ⟨group, hgroup, hcolumns⟩ :=
      exists_of_mem_right ((traverses_evalGroups tables s.columns).ok_iff.mp hresults) hrow
    obtain ⟨m, hm, rfl⟩ := List.mem_map.mp hgroup
    -- The keys stand beside the groups, so a member that is computed in full is a group.
    obtain ⟨g, hg, -, heq⟩ :=
      exists_of_mem_right (withKeys_eq_ok.mp hkeyed) (Window.mem_of_mem_candidates hm)
    rw [heq] at hcolumns
    exact ⟨scopes, groups, g, hscopes, hgroups, hg, hcolumns⟩

/-- A statement with groups gives a result if its expressions have values. -/
theorem runOn_total (hs : s.groups.isEmpty = false) {scopes : List Scope}
    (hscopes : filterRows name [] s.predicates rows = .ok scopes) {groups : List (List Scope)}
    (hgroups : groupRows s scopes = .ok groups)
    (horder : ∀ group ∈ groups, ∀ k ∈ s.order,
      ∃ c, (resolve s.columns k.expr).evalGroup group = .ok c)
    (hcolumns : ∀ group ∈ groups, ∀ c ∈ s.columns, ∃ x, c.expr.evalGroup tables group = .ok x) :
    ∃ result, runOn tables s w name rows = .ok result := by
  unfold runOn
  split
  · exact ⟨[], rfl⟩
  · rw [hs]
    have hkeyed : ∃ keyed, withKeys (fun group e => (resolve s.columns e).evalGroup group)
        s.order groups = .ok keyed := withKeys_total horder
    obtain ⟨keyed, hkeyed⟩ := hkeyed
    have hresults : ∃ results, evalGroups tables s.columns
        ((w.candidates (s.order.map OrderKey.direction) keyed).map Prod.snd) = .ok results := by
      -- Groups outside of the window are not computed in full.
      refine (traverses_evalGroups tables s.columns).total fun group hgroup => ?_
      obtain ⟨m, hm, rfl⟩ := List.mem_map.mp hgroup
      obtain ⟨g, hg, -, heq⟩ :=
        exists_of_mem_right (withKeys_eq_ok.mp hkeyed) (Window.mem_of_mem_candidates hm)
      refine (traverses_evalColumns tables m.2).total fun c hc => ?_
      obtain ⟨x, hx⟩ := hcolumns g hg c hc
      rw [heq]
      exact ⟨(c.name, x), map_eq_ok.mpr ⟨x, hx, rfl⟩⟩
    obtain ⟨results, hresults⟩ := hresults
    exact ⟨_, bind_eq_ok.mpr ⟨scopes, hscopes, bind_eq_ok.mpr ⟨groups, hgroups,
      bind_eq_ok.mpr ⟨keyed, hkeyed, bind_eq_ok.mpr ⟨results, hresults, rfl⟩⟩⟩⟩⟩

/-- The rows of the result are those of the groups in the window, in their order, if the order tells
the groups apart. -/
theorem runOn_groups (hs : s.groups.isEmpty = false) {groups : List (List Scope)}
    (hgroups : groupRows s (found name [] s.predicates rows) = .ok groups)
    {keyed : List (List SortKey × List Scope)}
    (hkeyed : withKeys (fun group e => (resolve s.columns e).evalGroup group) s.order groups =
      .ok keyed) (hdistinct : (keyed.map Prod.fst).Nodup) {result : List Row}
    (h : runOn tables s w name rows = .ok result) :
    List.Forall₂ (fun group row => evalColumns tables group s.columns = .ok row)
      (w.apply (sortByKeys (s.order.map OrderKey.direction) keyed)) result := by
  unfold runOn at h
  split at h
  · next hnone =>
    -- A window without room shows nothing.
    cases h
    have hempty : w.apply (sortByKeys (s.order.map OrderKey.direction) keyed) = [] := by
      rw [Window.apply, hnone]
      exact List.take_zero
    rw [hempty]
    exact .nil
  · rw [hs] at h
    obtain ⟨scopes, hscopes, h⟩ := bind_eq_ok.mp h
    obtain ⟨-, rfl⟩ := filterRows_eq_ok.mp hscopes
    obtain ⟨groups', hgroups', h⟩ := bind_eq_ok.mp h
    cases hgroups.symm.trans hgroups'
    obtain ⟨keyed', hkeyed', h⟩ := bind_eq_ok.mp h
    cases hkeyed.symm.trans hkeyed'
    obtain ⟨results, hresults, h⟩ := bind_eq_ok.mp h
    cases h
    have hlength : ∀ m ∈ keyed, m.1.length = (s.order.map OrderKey.direction).length := by
      intro m hm
      obtain ⟨group, -, hkeys, -⟩ := exists_of_mem_right (withKeys_eq_ok.mp hkeyed) hm
      rw [List.length_map]
      exact (evalKeys_eq_ok.mp hkeys).length_eq.symm
    rw [← w.apply_candidates hdistinct hlength]
    refine w.forall₂_apply (forall₂_sortByKeys ?_)
    -- Each row of the result stands beside the keys of its group.
    have hrows := (traverses_evalGroups tables s.columns).ok_iff.mp hresults
    exact forall₂_zip_keys (List.forall₂_map_left_iff.mp hrows)

end

/-! ## Whole statements -/

section

variable {tables : Tables.Lookup} {s : Statement}

/-- A statement is not refused at once: its text can be read up to its end, its parts are not nested
too deeply, and it does not have too many columns, groups or sort keys. -/
structure IsAccepted (s : Statement) : Prop where
  text : (Statement.sql s).toList.contains (Char.ofNat 0) = false
  depth : s.depth ≤ depthLimit
  columns : s.columns.length ≤ lengthLimit
  groups : s.groups.length ≤ lengthLimit
  order : s.order.length ≤ lengthLimit

theorem checkLengths_eq_ok {κ ε δ : Type} {s : Select κ ε δ} :
    s.checkLengths = .ok () ↔ s.columns.length ≤ lengthLimit ∧ s.groups.length ≤ lengthLimit ∧
      s.order.length ≤ lengthLimit := by
  unfold Select.checkLengths
  split_ifs with hcolumns hgroups horder
  · exact iff_of_false nofun fun h => absurd h.1 (not_le.mpr hcolumns)
  · exact iff_of_false nofun fun h => absurd h.2.1 (not_le.mpr hgroups)
  · exact iff_of_false nofun fun h => absurd h.2.2 (not_le.mpr horder)
  · exact iff_of_true rfl ⟨not_lt.mp hcolumns, not_lt.mp hgroups, not_lt.mp horder⟩

theorem check_eq_ok : s.check = .ok () ↔ s.IsAccepted := by
  unfold check
  split_ifs with htext hdepth
  · refine iff_of_false nofun fun h => ?_
    rw [h.text] at htext
    cases htext
  · exact iff_of_false nofun fun h => absurd h.depth (not_le.mpr hdepth)
  · rw [checkLengths_eq_ok]
    exact ⟨fun h => ⟨Bool.not_eq_true _ ▸ htext, not_lt.mp hdepth, h.1, h.2.1, h.2.2⟩,
      fun h => ⟨h.columns, h.groups, h.order⟩⟩

instance (s : Statement) : Decidable s.IsAccepted := decidable_of_iff _ check_eq_ok

/-- A statement gives a result when it is accepted, its tables are there and its window is not too
large. -/
theorem run_eq_ok {result : List Row} :
    run tables s = .ok result ↔
      s.IsAccepted ∧
        ∃ name rows w, sourceRows tables s.source = .ok (name, rows) ∧
          checkInner tables s.columns = .ok () ∧ window s.limit s.offset = .ok w ∧
          runOn tables s w name rows = .ok result := by
  unfold run
  rw [← check_eq_ok]
  constructor
  · intro h
    obtain ⟨⟨⟩, hcheck, h⟩ := bind_eq_ok.mp h
    obtain ⟨⟨name, rows⟩, hrows, h⟩ := bind_eq_ok.mp h
    obtain ⟨⟨⟩, hinner, h⟩ := bind_eq_ok.mp h
    obtain ⟨w, hw, h⟩ := bind_eq_ok.mp h
    exact ⟨hcheck, name, rows, w, hrows, hinner, hw, h⟩
  · rintro ⟨hcheck, name, rows, w, hrows, hinner, hw, h⟩
    exact bind_eq_ok.mpr ⟨(), hcheck, bind_eq_ok.mpr ⟨(name, rows), hrows,
      bind_eq_ok.mpr ⟨(), hinner, bind_eq_ok.mpr ⟨w, hw, h⟩⟩⟩⟩

/-- The statements in the places of values pass if their tables are there and none is too long. -/
theorem checkInner_total {columns : List (Column Output)}
    (h : ∀ c ∈ columns, ∀ inner, c.expr = .subselect inner →
      (∃ x, sourceRows tables inner.source = .ok x) ∧ inner.checkLengths = .ok ()) :
    checkInner tables columns = .ok () := by
  induction columns with
  | nil => rfl
  | cons c rest ih =>
    obtain ⟨hc, hrest⟩ := List.forall_mem_cons.mp h
    obtain ⟨expr, name⟩ := c
    cases expr with
    | expr e => exact ih hrest
    | subselect inner =>
      obtain ⟨⟨x, hx⟩, hlengths⟩ := hc inner rfl
      exact bind_eq_ok.mpr ⟨x, hx, bind_eq_ok.mpr ⟨(), hlengths, ih hrest⟩⟩

/-- A window is there unless its limit or its offset is too large. -/
theorem window_total {limit offset : Option Nat} (h : ∀ n ∈ limit, (n : Int) ≤ Digits.int64Max)
    (hoffset : (offset.getD 0 : Int) ≤ Digits.int64Max) : ∃ w, window limit offset = .ok w := by
  cases limit with
  | none => exact ⟨_, rfl⟩
  | some n =>
    rw [window, if_neg (not_lt.mpr (h n rfl)), if_neg (not_lt.mpr hoffset)]
    split <;> exact ⟨_, rfl⟩

/-- The value of a column over a group stands in the row under the name of the column, if the names
are different. -/
theorem get?_evalColumns {group : List Scope} {columns : List (Column Output)} {row : Row}
    (h : evalColumns tables group columns = .ok row) (hnodup : (columns.map Column.name).Nodup)
    {c : Column Output} (hc : c ∈ columns) :
    ∃ x, c.expr.evalGroup tables group = .ok x ∧ row.get? c.name = some x := by
  have hcolumns := (traverses_evalColumns tables group).ok_iff.mp h
  have hnames : row.map Prod.fst = columns.map Column.name := by
    clear h hnodup hc
    induction hcolumns with
    | nil => rfl
    | cons hp _ ih =>
      obtain ⟨x, -, rfl⟩ := map_eq_ok.mp hp
      rw [List.map_cons, List.map_cons, ih]
  obtain ⟨i, hi⟩ := List.mem_iff_getElem?.mp hc
  obtain ⟨p, hp, heval⟩ := getElem?_of_forall₂ hcolumns hi
  obtain ⟨x, hx, rfl⟩ := map_eq_ok.mp heval
  exact ⟨x, hx, get?_of_mem (hnames ▸ hnodup) (List.mem_of_getElem? hp)⟩

end

end Statement

end Quarry.Sql
