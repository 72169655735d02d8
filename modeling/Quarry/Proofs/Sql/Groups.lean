/-
# Gathering and sorting

* `mem_gather` — a group has all members of one key, in their order.
* `mem_sortByKeys` — sorting keeps the members.
* `Window.mem_of_mem_candidates`, `Window.mem_of_mem_apply` — windows add none.
* `filter_keyed` — members of one key are those whose expressions have it.
-/
import Quarry.Proofs.Outcome
import Quarry.Sql.Evaluate

namespace Quarry.Sql

open Quarry.Outcome Quarry.Request Quarry.Result

/-! ## Gathering -/

section

variable {α κ : Type} [DecidableEq κ]

/-- The members under a key; none if no group has it. -/
def groupAt (k : κ) : List (κ × List α) → List α
  | [] => []
  | (l, as) :: rest => if k = l then as else groupAt k rest

/-- One more member stands at the end of the group of its key, and other groups stay. -/
theorem groupAt_gatherOne (k l : κ) (a : α) (groups : List (κ × List α)) :
    groupAt l (gatherOne k a groups) =
      if k = l then groupAt l groups ++ [a] else groupAt l groups := by
  induction groups with
  | nil =>
    by_cases hkl : k = l
    · simp [gatherOne, groupAt, hkl]
    · simp [gatherOne, groupAt, hkl, Ne.symm hkl]
  | cons g rest ih =>
    obtain ⟨j, as⟩ := g
    by_cases hkj : k = j
    · subst hkj
      rw [gatherOne, if_pos rfl]
      by_cases hkl : k = l
      · simp [groupAt, hkl]
      · simp [groupAt, hkl, Ne.symm hkl]
    · rw [gatherOne, if_neg hkj]
      by_cases hlj : l = j
      · have hkl : ¬ k = l := fun h => hkj (h.trans hlj)
        rw [if_neg hkl, hlj]
        simp only [groupAt, if_true]
      · simp only [groupAt, if_neg hlj]
        exact ih

/-- The keys of groups stay different. -/
theorem keys_gatherOne (k : κ) (a : α) (groups : List (κ × List α)) :
    (gatherOne k a groups).map Prod.fst =
      if k ∈ groups.map Prod.fst then groups.map Prod.fst else groups.map Prod.fst ++ [k] := by
  induction groups with
  | nil => rfl
  | cons g rest ih =>
    obtain ⟨j, as⟩ := g
    rw [gatherOne]
    by_cases hkj : k = j
    · subst hkj
      rw [if_pos rfl, if_pos (by simp)]
      rfl
    · rw [if_neg hkj, List.map_cons, ih]
      by_cases hmem : k ∈ rest.map Prod.fst
      · have hcons : k ∈ ((j, as) :: rest).map Prod.fst := List.mem_cons_of_mem j hmem
        rw [if_pos hmem, if_pos hcons]
        rfl
      · have hnot : k ∉ ((j, as) :: rest).map Prod.fst := by
          rintro (_ | ⟨_, h⟩)
          · exact hkj rfl
          · exact hmem h
        rw [if_neg hmem, if_neg hnot]
        rfl

/-- Groups of different keys that all have members. -/
structure AreGroups (groups : List (κ × List α)) : Prop where
  nodup : (groups.map Prod.fst).Nodup
  nonempty : ∀ g ∈ groups, g.2 ≠ []

theorem AreGroups.gatherOne {groups : List (κ × List α)} (h : AreGroups groups) (k : κ) (a : α) :
    AreGroups (gatherOne k a groups) where
  nodup := by
    rw [keys_gatherOne]
    split
    · exact h.nodup
    · next hk =>
      refine List.nodup_append.mpr ⟨h.nodup, List.pairwise_singleton _ k, ?_⟩
      intro l hl m hm hlm
      obtain rfl := List.mem_singleton.mp hm
      exact hk (hlm ▸ hl)
  nonempty := by
    have hgroups := h.nonempty
    clear h
    induction groups with
    | nil =>
      intro g hg
      obtain rfl := List.mem_singleton.mp hg
      exact List.cons_ne_nil a []
    | cons g rest ih =>
      obtain ⟨hg, hrest⟩ := List.forall_mem_cons.mp hgroups
      obtain ⟨j, as⟩ := g
      rw [Sql.gatherOne]
      split
      · refine List.forall_mem_cons.mpr ⟨?_, hrest⟩
        exact List.append_ne_nil_of_right_ne_nil as (List.cons_ne_nil a [])
      · exact List.forall_mem_cons.mpr ⟨hg, ih hrest⟩

/-- In groups of different keys, a group is the one of its key. -/
theorem AreGroups.groupAt_eq {groups : List (κ × List α)} (h : AreGroups groups) {k : κ}
    {as : List α} (hmem : (k, as) ∈ groups) : groupAt k groups = as := by
  have hnodup := h.nodup
  clear h
  induction groups with
  | nil => cases hmem
  | cons g rest ih =>
    obtain ⟨j, bs⟩ := g
    obtain ⟨hj, hrest⟩ := List.nodup_cons.mp hnodup
    rw [groupAt]
    rcases List.mem_cons.mp hmem with heq | hmem
    · cases heq
      rw [if_pos rfl]
    · have hk : k ∈ rest.map Prod.fst := List.mem_map_of_mem hmem
      have hkj : ¬ k = j := by
        rintro rfl
        exact hj hk
      rw [if_neg hkj]
      exact ih hmem hrest

/-- The members of a list in groups come after those that were there before. -/
theorem gather_from (members : List (κ × α)) {groups : List (κ × List α)} (h : AreGroups groups) :
    AreGroups (members.foldl (fun groups (k, a) => gatherOne k a groups) groups) ∧
      ∀ l, groupAt l (members.foldl (fun groups (k, a) => gatherOne k a groups) groups) =
        groupAt l groups ++ (members.filter fun m => m.1 = l).map Prod.snd := by
  induction members generalizing groups with
  | nil => exact ⟨h, fun l => (List.append_nil _).symm⟩
  | cons m rest ih =>
    obtain ⟨k, a⟩ := m
    -- The groups so far are general in the induction, which is on the members still to come.
    obtain ⟨hare, hat⟩ := ih (h.gatherOne k a)
    refine ⟨hare, fun l => ?_⟩
    rw [List.foldl_cons, hat l, groupAt_gatherOne]
    by_cases hkl : k = l
    · rw [if_pos hkl, List.filter_cons_of_pos (by simpa using hkl), List.append_assoc]
      rfl
    · rw [if_neg hkl, List.filter_cons_of_neg (by simpa using hkl)]

/-- A group has all members of one key, in their order, and there are some. -/
theorem mem_gather {members : List (κ × α)} {k : κ} {as : List α}
    (h : (k, as) ∈ gather members) :
    as = (members.filter fun m => m.1 = k).map Prod.snd ∧ as ≠ [] := by
  have hnone : AreGroups ([] : List (κ × List α)) := ⟨List.nodup_nil, nofun⟩
  -- The groups are gathered from none.
  obtain ⟨hare, hat⟩ := gather_from members hnone
  refine ⟨?_, hare.nonempty _ h⟩
  rw [← hare.groupAt_eq h, hat k]
  rfl

end

/-! ## Sorting and windows -/

section

variable {α : Type}

theorem mem_insertSorted {before : α → α → Bool} {a b : α} {l : List α} :
    b ∈ insertSorted before a l ↔ b = a ∨ b ∈ l := by
  induction l with
  | nil => simp [insertSorted]
  | cons c rest ih =>
    rw [insertSorted]
    split
    · rw [List.mem_cons, ih, List.mem_cons]
      exact or_left_comm
    · rw [List.mem_cons]

/-- Sorting keeps the members. -/
theorem mem_sortStable {before : α → α → Bool} {b : α} {l : List α} :
    b ∈ sortStable before l ↔ b ∈ l := by
  induction l with
  | nil => rfl
  | cons a rest ih => rw [sortStable, mem_insertSorted, ih, List.mem_cons]

theorem mem_sortByKeys {ds : List SortDirection} {l : List (List SortKey × α)} {a : α} :
    a ∈ sortByKeys ds l ↔ ∃ keys, (keys, a) ∈ l := by
  unfold sortByKeys
  rw [List.mem_map]
  constructor
  · rintro ⟨⟨keys, b⟩, hb, rfl⟩
    exact ⟨keys, mem_sortStable.mp hb⟩
  · rintro ⟨keys, ha⟩
    exact ⟨(keys, a), mem_sortStable.mpr ha, rfl⟩

theorem mem_of_mem_admitted {ds : List SortDirection} {capacity : Nat} {best : List (List SortKey)}
    {l : List (List SortKey × α)} {m : List SortKey × α} (h : m ∈ admitted ds capacity best l) :
    m ∈ l := by
  induction l generalizing best with
  | nil => exact h
  | cons first rest ih =>
    obtain ⟨keys, a⟩ := first
    rw [admitted] at h
    split at h
    · rcases List.mem_cons.mp h with rfl | h
      · exact List.mem_cons_self
      · exact List.mem_cons_of_mem _ (ih h)
    · exact List.mem_cons_of_mem _ (ih h)

namespace Window

/-- What has to be computed in full was there before. -/
theorem mem_of_mem_candidates {w : Window} {ds : List SortDirection}
    {l : List (List SortKey × α)} {m : List SortKey × α} (h : m ∈ w.candidates ds l) : m ∈ l := by
  unfold candidates at h
  split at h
  · exact mem_of_mem_admitted h
  · exact h

/-- What is in a window was there before. -/
theorem mem_of_mem_apply {w : Window} {l : List α} {a : α} (h : a ∈ w.apply l) : a ∈ l := by
  unfold apply at h
  simp only at h
  split at h
  · exact List.mem_of_mem_drop (List.mem_of_mem_take h)
  · exact List.mem_of_mem_drop h

end Window

end

/-! ## Keys of members -/

/-- The sort keys of expressions are those of their values, one after another. -/
theorem evalKeys_eq_ok {eval : Expr → Except Failure Cell}
    {order : List (OrderKey Expr SortDirection)} {keys : List SortKey} :
    evalKeys eval order = .ok keys ↔
      List.Forall₂ (fun k key => ∃ c, eval k.expr = .ok c ∧ sortKey c = key) order keys := by
  have htraverses : Traverses (fun k => (eval k.expr).map sortKey) (evalKeys eval) := by
    refine ⟨rfl, fun k rest => ?_⟩
    rw [evalKeys]
    cases eval k.expr <;> rfl
  rw [htraverses.ok_iff]
  simp only [map_eq_ok]

section

variable {α : Type} {eval : α → Expr → Except Failure Cell}
  {order : List (OrderKey Expr SortDirection)}

theorem traverses_withKeys (eval : α → Expr → Except Failure Cell)
    (order : List (OrderKey Expr SortDirection)) :
    Traverses (fun a => (evalKeys (eval a) order).map fun keys => (keys, a))
      (withKeys eval order) := by
  refine ⟨rfl, fun a rest => ?_⟩
  rw [withKeys]
  cases evalKeys (eval a) order <;> rfl

/-- Members stay as they are beside their keys. -/
theorem withKeys_eq_ok {l : List α} {keyed : List (List SortKey × α)} :
    withKeys eval order l = .ok keyed ↔
      List.Forall₂ (fun a m => evalKeys (eval a) order = .ok m.1 ∧ m.2 = a) l keyed := by
  rw [(traverses_withKeys eval order).ok_iff]
  have hone : ∀ a m, (evalKeys (eval a) order).map (fun keys => (keys, a)) = .ok m ↔
      evalKeys (eval a) order = .ok m.1 ∧ m.2 = a := by
    rintro a ⟨keys, b⟩
    rw [map_eq_ok]
    constructor
    · rintro ⟨ks, hks, heq⟩
      cases heq
      exact ⟨hks, rfl⟩
    · rintro ⟨hks, rfl⟩
      exact ⟨keys, hks, rfl⟩
  simp only [hone]

/-- Members whose expressions have values have keys. -/
theorem withKeys_total {l : List α} (h : ∀ a ∈ l, ∀ k ∈ order, ∃ c, eval a k.expr = .ok c) :
    ∃ keyed, withKeys eval order l = .ok keyed := by
  refine (traverses_withKeys eval order).total fun a ha => ?_
  have hkeys : ∃ keys, evalKeys (eval a) order = .ok keys := by
    have hall := h a ha
    clear h
    induction order with
    | nil => exact ⟨[], rfl⟩
    | cons k rest ih =>
      obtain ⟨⟨c, hc⟩, hrest⟩ := List.forall_mem_cons.mp hall
      obtain ⟨keys, hkeys⟩ := ih hrest
      exact ⟨sortKey c :: keys,
        bind_eq_ok.mpr ⟨c, hc, bind_eq_ok.mpr ⟨keys, hkeys, rfl⟩⟩⟩
  obtain ⟨keys, hkeys⟩ := hkeys
  exact ⟨(keys, a), map_eq_ok.mpr ⟨keys, hkeys, rfl⟩⟩

open Classical in
/-- Of members beside their keys, those of one key are those whose expressions have it. -/
theorem filter_keyed {l : List α} {keyed : List (List SortKey × α)}
    (h : withKeys eval order l = .ok keyed) (keys : List SortKey) :
    (keyed.filter fun m => m.1 = keys).map Prod.snd =
      l.filter fun a => evalKeys (eval a) order = .ok keys := by
  rw [withKeys_eq_ok] at h
  induction h with
  | nil => rfl
  | @cons a m l keyed hm _ ih =>
    obtain ⟨hkeys, rfl⟩ := hm
    by_cases heq : m.1 = keys
    · have hpos : evalKeys (eval m.2) order = .ok keys := heq ▸ hkeys
      rw [List.filter_cons_of_pos (by simpa using heq),
        List.filter_cons_of_pos (by simpa using hpos), List.map_cons, ih]
    · have hneg : ¬ evalKeys (eval m.2) order = .ok keys := by
        rw [hkeys]
        exact fun h => heq (Except.ok.inj h)
      rw [List.filter_cons_of_neg (by simpa using heq),
        List.filter_cons_of_neg (by simpa using hneg), ih]

end

end Quarry.Sql
