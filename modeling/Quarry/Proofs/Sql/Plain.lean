/-
# Statements without groups

Which rows a statement without groups gives, and in which order.

* `sortOn` — members sorted by what they are given as keys.
* `pairwise_sortOn` — they stand in the order of their keys, and members of one key as they stood.
* `filterFirst_eq` — looking for the first so many rows gives the first of all that are found.
* `Window.apply_of_window` — a window leaves out as many rows as the offset says, and keeps as many
  as the limit says.
* `Statement.plainRows_eq` — the rows found are sorted and cut.
-/
import Quarry.Proofs.Sql.Runs
import Quarry.Proofs.Sql.Sorted

namespace Quarry.Sql

open Quarry.Outcome Quarry.Request

/-! ## Ties -/

section

variable {α β : Type} {before : α → α → Bool} {earlier : α → α → Prop} {l : List α}

/-- Where nothing comes before anything, sorting changes nothing. -/
theorem sortStable_never (h : ∀ a b, before a b = false) (l : List α) :
    sortStable before l = l := by
  induction l with
  | nil => rfl
  | cons a rest ih =>
    rw [sortStable, ih]
    cases rest with
    | nil => rfl
    | cons b rest => rw [insertSorted, if_neg (by rw [h]; exact Bool.false_ne_true)]

/-- A member is put before those that it does not come after. If one of three members comes before
another, it comes before the third, or the third before that other. -/
theorem pairwise_insertSorted_ties (hb : IsStrict before)
    (hsplit : ∀ a b c, before c a = true → before c b = true ∨ before b a = true) {a : α}
    (hl : l.Pairwise fun a b => before b a = false ∧ (before a b = true ∨ earlier a b))
    (ha : ∀ b ∈ l, earlier a b) :
    (insertSorted before a l).Pairwise
      fun a b => before b a = false ∧ (before a b = true ∨ earlier a b) := by
  induction l with
  | nil => exact List.pairwise_singleton _ a
  | cons b rest ih =>
    obtain ⟨hfirst, hrest⟩ := List.pairwise_cons.mp hl
    obtain ⟨hab, hothers⟩ := List.forall_mem_cons.mp ha
    rw [insertSorted]
    split
    · next hba =>
      refine List.pairwise_cons.mpr ⟨fun c hc => ?_, ih hrest hothers⟩
      rcases mem_insertSorted.mp hc with rfl | hc
      · exact ⟨hb.asymm hba, .inl hba⟩
      · exact hfirst c hc
    · next hba =>
      rw [Bool.not_eq_true] at hba
      refine List.pairwise_cons.mpr ⟨List.forall_mem_cons.mpr ⟨⟨hba, .inr hab⟩, ?_⟩, hl⟩
      intro c hc
      refine ⟨?_, .inr (hothers c hc)⟩
      -- Otherwise `c` would come before `b`, or `b` before `a`.
      rw [Bool.eq_false_iff]
      intro hca
      rcases hsplit a b c hca with hcb | hba'
      · rw [(hfirst c hc).1] at hcb
        cases hcb
      · rw [hba] at hba'
        cases hba'

/-- Sorted members stand in order, and those of which none comes before the other as they stood. -/
theorem pairwise_sortStable_ties (hb : IsStrict before)
    (hsplit : ∀ a b c, before c a = true → before c b = true ∨ before b a = true)
    (hl : l.Pairwise earlier) :
    (sortStable before l).Pairwise
      fun a b => before b a = false ∧ (before a b = true ∨ earlier a b) := by
  induction l with
  | nil => exact .nil
  | cons a rest ih =>
    obtain ⟨ha, hrest⟩ := List.pairwise_cons.mp hl
    exact pairwise_insertSorted_ties hb hsplit (ih hrest)
      fun b hmem => ha b (mem_sortStable.mp hmem)

/-- Members sorted by what they are given as keys. -/
def sortOn (ds : List SortDirection) (keysOf : α → List SortKey) (l : List α) : List α :=
  sortStable (fun a b => keysBefore ds (keysOf a) (keysOf b)) l

theorem perm_sortOn (ds : List SortDirection) (keysOf : α → List SortKey) (l : List α) :
    (sortOn ds keysOf l).Perm l :=
  perm_sortStable _ l

/-- Without directions nothing is sorted. -/
theorem sortOn_nil (keysOf : α → List SortKey) (l : List α) : sortOn [] keysOf l = l :=
  sortStable_never (fun _ _ => rfl) l

/-- What is made of members is sorted as they are. -/
theorem sortByKeys_map (ds : List SortDirection) (keysOf : α → List SortKey) (f : α → β)
    (l : List α) : sortByKeys ds (l.map fun a => (keysOf a, f a)) = (sortOn ds keysOf l).map f := by
  rw [sortByKeys, sortStable_map, List.map_map]
  rfl

/-- Members sorted by keys stand in the order of their keys, and those of one key as they stood. -/
theorem pairwise_sortOn {ds : List SortDirection} {keysOf : α → List SortKey}
    (hlength : ∀ a, (keysOf a).length = ds.length) (hl : l.Pairwise earlier) :
    (sortOn ds keysOf l).Pairwise fun a b =>
      keysBefore ds (keysOf a) (keysOf b) = true ∨ (keysOf a = keysOf b ∧ earlier a b) := by
  have hstrict := isStrict_keysBefore ds
  have hsplit : ∀ a b c, keysBefore ds (keysOf c) (keysOf a) = true →
      keysBefore ds (keysOf c) (keysOf b) = true ∨ keysBefore ds (keysOf b) (keysOf a) = true := by
    intro a b c hca
    by_cases hbc : keysOf b = keysOf c
    · exact .inr (hbc ▸ hca)
    · rcases keysBefore_total (hlength b) (hlength c) hbc with hbc | hcb
      · exact .inr (hstrict.trans _ _ _ hbc hca)
      · exact .inl hcb
  have hbefore : IsStrict fun a b => keysBefore ds (keysOf a) (keysOf b) :=
    ⟨fun _ => hstrict.irrefl _, fun _ _ _ => hstrict.trans _ _ _⟩
  refine (pairwise_sortStable_ties hbefore hsplit hl).imp fun {a b} hab => ?_
  obtain ⟨hba, hab | hab⟩ := hab
  · exact .inl hab
  · by_cases hkeys : keysOf a = keysOf b
    · exact .inr ⟨hkeys, hab⟩
    · refine .inl ((keysBefore_total (hlength a) (hlength b) hkeys).resolve_right ?_)
      rw [hba]
      exact Bool.false_ne_true

end

/-! ## The first rows -/

/-- Looking for the first so many rows gives the first of all that are found. -/
theorem filterFirst_eq {name : String} {outer : Scope} {ps : List Expr} {rows : List TableRow}
    (h : ∀ r ∈ rows, ∃ b, holdsAll (⟨name, r⟩ :: outer) ps = .ok b) (n : Nat) :
    filterFirst name outer ps n rows = .ok ((found name outer ps rows).take n) := by
  induction rows generalizing n with
  | nil => cases n <;> rfl
  | cons r rest ih =>
    obtain ⟨⟨keep, hkeep⟩, hrest⟩ := List.forall_mem_cons.mp h
    have hpasses : passes ps (⟨name, r⟩ :: outer) = keep := by
      cases keep <;> simp [passes, hkeep]
    cases n with
    | zero => rfl
    | succ n =>
      rw [filterFirst, hkeep, found_cons, hpasses]
      cases keep with
      | true => exact bind_eq_ok.mpr ⟨true, rfl, bind_eq_ok.mpr ⟨_, ih hrest n, rfl⟩⟩
      | false => exact ih hrest (n + 1)

/-! ## Windows -/

namespace Window

variable {α β : Type}

theorem apply_map (w : Window) (f : α → β) (l : List α) :
    w.apply (l.map f) = (w.apply l).map f := by
  obtain ⟨offset, limit⟩ := w
  cases limit with
  | none => exact List.map_drop.symm
  | some n =>
    show ((l.map f).drop offset).take n = ((l.drop offset).take n).map f
    rw [List.map_take, List.map_drop]

/-- With a limit of zero nothing is kept. -/
theorem apply_of_zero {w : Window} (h : w.limit = some 0) (l : List α) : w.apply l = [] := by
  rw [apply, h]
  exact List.take_zero

/-- Without a limit nothing is left out. -/
theorem offset_of_window {offset : Option Nat} {limit : Option Nat} {n : Nat}
    (h : window limit offset = .ok ⟨n, none⟩) : n = 0 := by
  cases limit with
  | none =>
    cases h
    rfl
  | some m =>
    rw [window] at h
    split_ifs at h <;> cases h

/-- A window leaves out as many members as the offset says, and keeps as many as the limit says. -/
theorem apply_of_window {n : Nat} {offset : Option Nat} {w : Window}
    (h : window (some n) offset = .ok w) (l : List α) :
    w.apply l = (l.drop (offset.getD 0)).take n := by
  rw [window] at h
  split_ifs at h with _ hnone
  · cases h
    show (l.drop 0).take 0 = _
    rw [hnone, List.take_zero, List.take_zero]
  · cases h
    rfl

end Window

/-! ## Rows in order -/

/-- The rows of a statement without groups are those of which its predicates hold, sorted by their
keys and cut by its window. -/
theorem Statement.plainRows_eq {s : Statement} {w : Window} {name : String} {rows : List TableRow}
    {keysOf : TableRow → List SortKey} (hw : window s.limit s.offset = .ok w)
    (htested : ∀ r ∈ rows, ∃ b, holdsAll [⟨name, r⟩] s.predicates = .ok b)
    (hkeys : ∀ r ∈ rows, evalKeys (Expr.eval [⟨name, r⟩]) s.order = .ok (keysOf r)) :
    plainRows s w name rows =
      .ok ((w.apply (sortOn (s.order.map OrderKey.direction) keysOf
        (rows.filter fun r => passes s.predicates [⟨name, r⟩]))).map fun r => [⟨name, r⟩]) := by
  have hfound := filterRows_eq_ok.mpr ⟨htested, rfl⟩
  unfold plainRows
  cases horder : s.order with
  | nil =>
    -- Without an order, no more rows are looked for than the window needs.
    rw [List.isEmpty_nil, if_pos rfl, List.map_nil, sortOn_nil, ← Window.apply_map]
    obtain ⟨offset, limit⟩ := w
    cases limit with
    | none =>
      obtain rfl : offset = 0 := Window.offset_of_window hw
      exact hfound
    | some n =>
      show (filterFirst name [] s.predicates (offset + n) rows).map (·.drop offset) = .ok
        (((found name [] s.predicates rows).drop offset).take n)
      rw [filterFirst_eq htested, List.take_drop]
      rfl
  | cons k rest =>
    have hkeyed : withKeys Expr.eval s.order (found name [] s.predicates rows) =
        .ok ((rows.filter fun r => passes s.predicates [⟨name, r⟩]).map fun r =>
          (keysOf r, [⟨name, r⟩])) := by
      rw [withKeys_eq_ok, found, List.forall₂_map_left_iff, List.forall₂_map_right_iff,
        List.forall₂_same]
      exact fun r hr => ⟨hkeys r (List.mem_of_mem_filter hr), rfl⟩
    rw [if_neg (by simp), ← horder]
    refine bind_eq_ok.mpr ⟨_, hfound, bind_eq_ok.mpr ⟨_, hkeyed, ?_⟩⟩
    rw [sortByKeys_map, Window.apply_map]
    rfl

end Quarry.Sql
