/-
# Sorted members

What sorting and windows give where any two members are told apart by their keys.

* `IsStrict`, `TellsApart` — a strict order, and a list in which it puts any two members in order.
* `isStrict_keysBefore`, `tellsApart_memberBefore` — the order of keys is strict, and tells members
  of different keys apart.
* `pairwise_sortStable`, `sortStable_eq_of_perm` — sorted members stand in order, whatever order
  they came in.
* `take_sortStable_admitted` — leaving out members that stand too far behind changes nothing among
  the first.
* `Window.apply_candidates` — a window shows the same members when only its candidates are sorted.
-/
import Mathlib.Data.List.Pairwise
import Quarry.Proofs.Sql.Groups
import Quarry.Proofs.Sql.Rows

namespace Quarry.Sql

open Quarry.Outcome Quarry.Request

/-! ## The order of keys -/

theorem SortKey.compare_swap (a b : SortKey) :
    (SortKey.compare a b).swap = SortKey.compare b a := by
  cases a <;> cases b <;>
    first
      | rfl
      | exact (@Std.OrientedCmp.eq_swap _ Ord.compare _ _ _).symm

theorem SortKey.compare_eq_gt {a b : SortKey} :
    SortKey.compare a b = .gt ↔ SortKey.compare b a = .lt := by
  rw [← SortKey.compare_swap b a, Ordering.swap_eq_gt]

theorem SortKey.compare_lt_trans {a b c : SortKey} (hab : SortKey.compare a b = .lt)
    (hbc : SortKey.compare b c = .lt) : SortKey.compare a c = .lt := by
  -- Keys of different kinds stand in a fixed order, and those of one kind in that of their contents.
  cases a <;> cases b <;> cases c <;>
    first
      | rfl
      | contradiction
      | exact @Std.TransCmp.lt_trans _ Ord.compare _ _ _ _ hab hbc

theorem unitsOfOne_pos : (0 : Int) < unitsOfOne := by decide +kernel

/-- The keys of integers stand in the order of the integers. -/
theorem compare_sortKey_int {m n : Int} :
    SortKey.compare (sortKey (.int m)) (sortKey (.int n)) = .lt ↔ m < n := by
  show Ord.compare (m * unitsOfOne) (n * unitsOfOne) = .lt ↔ m < n
  rw [compare_lt_iff_lt, mul_lt_mul_iff_of_pos_right unitsOfOne_pos]

/-- The first keys of lists decide their order unless they are equal. -/
theorem keysBefore_cons {d : SortDirection} {ds : List SortDirection} {a b : SortKey}
    {as bs : List SortKey} : keysBefore (d :: ds) (a :: as) (b :: bs) = true ↔
      (a = b ∧ keysBefore ds as bs = true) ∨
        if d = .asc then SortKey.compare a b = .lt else SortKey.compare b a = .lt := by
  rw [← compare_eq_eq, ← SortKey.compare_swap a b, keysBefore.eq_def]
  dsimp only
  cases SortKey.compare a b <;> cases d <;> simp

/-- An order is strict. -/
structure IsStrict {α : Type} (before : α → α → Bool) : Prop where
  irrefl : ∀ a, before a a = false
  trans : ∀ a b c, before a b = true → before b c = true → before a c = true

theorem IsStrict.asymm {α : Type} {before : α → α → Bool} (h : IsStrict before) {a b : α}
    (hab : before a b = true) : before b a = false := by
  rw [Bool.eq_false_iff]
  intro hba
  have haa := h.trans a b a hab hba
  rw [h.irrefl a] at haa
  cases haa

theorem SortKey.compare_self (a : SortKey) : SortKey.compare a a = .eq := compare_eq_eq.mpr rfl

/-- The order of lists of keys is strict. -/
theorem isStrict_keysBefore (ds : List SortDirection) : IsStrict (keysBefore ds) where
  irrefl keys := by
    induction ds generalizing keys with
    | nil => rfl
    | cons d ds ih =>
      cases keys with
      | nil => rfl
      | cons a as =>
        rw [Bool.eq_false_iff, Ne, keysBefore_cons]
        rintro (⟨-, h⟩ | h)
        · rw [ih as] at h
          cases h
        · cases d <;> simp [SortKey.compare_self] at h
  trans as bs cs hab hbc := by
    induction ds generalizing as bs cs with
    | nil => cases hab
    | cons d ds ih =>
      obtain _ | ⟨a, as⟩ := as
      · cases hab
      obtain _ | ⟨b, bs⟩ := bs
      · cases hab
      obtain _ | ⟨c, cs⟩ := cs
      · cases hbc
      rw [keysBefore_cons] at hab hbc ⊢
      rcases hab with ⟨rfl, hab⟩ | hab
      · rcases hbc with ⟨rfl, hbc⟩ | hbc
        · exact .inl ⟨rfl, ih as bs cs hab hbc⟩
        · exact .inr hbc
      · rcases hbc with ⟨rfl, -⟩ | hbc
        · exact .inr hab
        · cases d with
          | asc => exact .inr (SortKey.compare_lt_trans hab hbc)
          | desc => exact .inr (SortKey.compare_lt_trans hbc hab)

/-- Different lists of keys, with a key for each direction, stand in some order. -/
theorem keysBefore_total {ds : List SortDirection} {as bs : List SortKey}
    (has : as.length = ds.length) (hbs : bs.length = ds.length) (hne : as ≠ bs) :
    keysBefore ds as bs = true ∨ keysBefore ds bs as = true := by
  induction ds generalizing as bs with
  | nil =>
    rw [List.length_eq_zero_iff.mp has, List.length_eq_zero_iff.mp hbs] at hne
    exact absurd rfl hne
  | cons d ds ih =>
    obtain ⟨a, as, rfl⟩ := List.exists_cons_of_length_eq_add_one has
    obtain ⟨b, bs, rfl⟩ := List.exists_cons_of_length_eq_add_one hbs
    rw [keysBefore_cons, keysBefore_cons]
    by_cases hab : a = b
    · subst hab
      have hrest : as ≠ bs := fun h => hne (congrArg (a :: ·) h)
      rcases ih (Nat.succ.inj has) (Nat.succ.inj hbs) hrest with h | h
      · exact .inl (.inl ⟨rfl, h⟩)
      · exact .inr (.inl ⟨rfl, h⟩)
    · have hcompare : SortKey.compare a b = .lt ∨ SortKey.compare b a = .lt := by
        cases hcompare : SortKey.compare a b with
        | lt => exact .inl rfl
        | eq => exact absurd (compare_eq_eq.mp hcompare) hab
        | gt => exact .inr (SortKey.compare_eq_gt.mp hcompare)
      cases d with
      | asc => exact hcompare.imp .inr .inr
      | desc => exact hcompare.symm.imp .inr .inr

/-! ## Sorting -/

section

variable {α β : Type} {before : α → α → Bool} {a b : α} {l l' : List α}

/-- Any two members of a list stand in some order. -/
def TellsApart (before : α → α → Bool) (l : List α) : Prop :=
  l.Pairwise fun a b => before a b = true ∨ before b a = true

theorem TellsApart.perm (h : TellsApart before l) (hp : l.Perm l') : TellsApart before l' :=
  (hp.pairwise_iff Or.symm).mp h

theorem perm_insertSorted (before : α → α → Bool) (a : α) (l : List α) :
    (insertSorted before a l).Perm (a :: l) := by
  induction l with
  | nil => exact .refl _
  | cons b rest ih =>
    rw [insertSorted]
    split
    · exact (ih.cons b).trans (.swap a b rest)
    · exact .refl _

/-- Sorting only moves members. -/
theorem perm_sortStable (before : α → α → Bool) (l : List α) : (sortStable before l).Perm l := by
  induction l with
  | nil => exact .refl _
  | cons a rest ih => exact (perm_insertSorted before a _).trans (ih.cons a)

/-- A member is put where it belongs. -/
theorem pairwise_insertSorted (hb : IsStrict before) (hl : l.Pairwise fun a b => before a b = true)
    (ha : ∀ b ∈ l, before a b = true ∨ before b a = true) :
    (insertSorted before a l).Pairwise fun a b => before a b = true := by
  induction l with
  | nil => exact List.pairwise_singleton _ a
  | cons b rest ih =>
    obtain ⟨hfirst, hrest⟩ := List.pairwise_cons.mp hl
    obtain ⟨hab, hothers⟩ := List.forall_mem_cons.mp ha
    rw [insertSorted]
    split
    · next hba =>
      refine List.pairwise_cons.mpr ⟨?_, ih hrest hothers⟩
      intro c hc
      rcases mem_insertSorted.mp hc with rfl | hc
      · exact hba
      · exact hfirst c hc
    · next hba =>
      have hab := hab.resolve_right hba
      refine List.pairwise_cons.mpr ⟨List.forall_mem_cons.mpr ⟨hab, ?_⟩, hl⟩
      intro c hc
      exact hb.trans a b c hab (hfirst c hc)

/-- Sorted members stand in order. -/
theorem pairwise_sortStable (hb : IsStrict before) (hl : TellsApart before l) :
    (sortStable before l).Pairwise fun a b => before a b = true := by
  induction l with
  | nil => exact .nil
  | cons a rest ih =>
    obtain ⟨ha, hrest⟩ := List.pairwise_cons.mp hl
    exact pairwise_insertSorted hb (ih hrest) fun b hmem => ha b (mem_sortStable.mp hmem)

/-- The order in which members come does not matter. -/
theorem sortStable_eq_of_perm (hb : IsStrict before) (hl : TellsApart before l) (hp : l.Perm l') :
    sortStable before l = sortStable before l' := by
  have hperm : (sortStable before l).Perm (sortStable before l') :=
    (perm_sortStable before l).trans (hp.trans (perm_sortStable before l').symm)
  refine hperm.eq_of_pairwise ?_ (pairwise_sortStable hb hl)
    (pairwise_sortStable hb (hl.perm hp))
  intro a b _ _ hab hba
  rw [hb.asymm hab] at hba
  cases hba

theorem insertSorted_map (f : β → α) (a : β) (l : List β) :
    insertSorted before (f a) (l.map f) =
      (insertSorted (fun a b => before (f a) (f b)) a l).map f := by
  induction l with
  | nil => rfl
  | cons b rest ih =>
    rw [List.map_cons, insertSorted, insertSorted, ih]
    split <;> rfl

/-- Sorting by what members stand for is sorting what they stand for. -/
theorem sortStable_map (f : β → α) (l : List β) :
    sortStable before (l.map f) = (sortStable (fun a b => before (f a) (f b)) l).map f := by
  induction l with
  | nil => rfl
  | cons a rest ih => rw [List.map_cons, sortStable, ih, insertSorted_map, sortStable]

/-- Where members are made of something by a function, so are sorted members. -/
theorem exists_sortByKeys (ds : List SortDirection) {f : β → List SortKey × α}
    {members : List (List SortKey × α)} (h : ∀ m ∈ members, ∃ b, f b = m) :
    ∃ bs : List β, (bs.map f).Perm members ∧ sortByKeys ds members = bs.map fun b => (f b).2 := by
  have hperm := perm_sortStable (fun a b => keysBefore ds a.1 b.1) members
  obtain ⟨bs, hbs, -⟩ := exists_map_eq (P := fun _ => True)
    fun m hm => (h m (hperm.mem_iff.mp hm)).imp fun b hb => ⟨trivial, hb⟩
  refine ⟨bs, hbs ▸ hperm, ?_⟩
  rw [sortByKeys, ← hbs, List.map_map]
  rfl

end

/-! ## The first members -/

section

variable {α : Type} {before : α → α → Bool} {a b : α} {l : List α} {n : Nat}

/-- Only the first members matter for the first ones after one is put in. -/
theorem take_insertSorted_take :
    (insertSorted before a (l.take n)).take n = (insertSorted before a l).take n := by
  induction l generalizing n with
  | nil => rw [List.take_nil]
  | cons b rest ih =>
    cases n with
    | zero => rfl
    | succ n =>
      rw [List.take_succ_cons, insertSorted, insertSorted]
      split
      · rw [List.take_succ_cons, List.take_succ_cons, ih]
      · rw [List.take_succ_cons, List.take_succ_cons]
        cases n with
        | zero => rfl
        | succ n => simp [List.take_take]

/-- So many members come before one. -/
def Outrun (before : α → α → Bool) (n : Nat) (a : α) (l : List α) : Prop :=
  n ≤ l.length ∧ ∀ b ∈ l.take n, before b a = true

/-- One that so many come before does not come among the first. -/
theorem Outrun.take_insertSorted (h : Outrun before n a l) :
    (insertSorted before a l).take n = l.take n := by
  obtain ⟨hlength, hfirst⟩ := h
  induction l generalizing n with
  | nil =>
    obtain rfl := Nat.le_zero.mp hlength
    rfl
  | cons b rest ih =>
    cases n with
    | zero => rfl
    | succ n =>
      rw [List.take_succ_cons] at hfirst
      obtain ⟨hba, hothers⟩ := List.forall_mem_cons.mp hfirst
      rw [insertSorted, if_pos hba, List.take_succ_cons, List.take_succ_cons,
        ih (Nat.le_of_succ_le_succ hlength) hothers]

/-- With one more member, at least as many come before it. -/
theorem Outrun.insertSorted (h : Outrun before n a l) (hb : IsStrict before)
    (hsep : ∀ c ∈ l, before b c = true ∨ before c b = true) :
    Outrun before n a (insertSorted before b l) := by
  obtain ⟨hlength, hfirst⟩ := h
  induction l generalizing n with
  | nil =>
    obtain rfl := Nat.le_zero.mp hlength
    exact ⟨Nat.zero_le _, nofun⟩
  | cons c rest ih =>
    cases n with
    | zero => exact ⟨Nat.zero_le _, nofun⟩
    | succ n =>
      rw [List.take_succ_cons] at hfirst
      obtain ⟨hca, hothers⟩ := List.forall_mem_cons.mp hfirst
      obtain ⟨hbc, hsep⟩ := List.forall_mem_cons.mp hsep
      rw [Sql.insertSorted]
      split
      · obtain ⟨hl, hf⟩ := ih hsep (Nat.le_of_succ_le_succ hlength) hothers
        refine ⟨Nat.succ_le_succ hl, ?_⟩
        rw [List.take_succ_cons]
        exact List.forall_mem_cons.mpr ⟨hca, hf⟩
      · next hcb =>
        have hba := hb.trans b c a (hbc.resolve_right hcb) hca
        refine ⟨Nat.le_succ_of_le hlength, ?_⟩
        rw [List.take_succ_cons]
        refine List.forall_mem_cons.mpr ⟨hba, ?_⟩
        intro d hd
        have hd : d ∈ (c :: rest).take (n + 1) := List.take_subset_take_left _ (Nat.le_succ n) hd
        rw [List.take_succ_cons] at hd
        rcases List.mem_cons.mp hd with rfl | hd
        · exact hca
        · exact hothers d hd

/-- So do they with more members. -/
theorem Outrun.append {l' : List α} (h : Outrun before n a (sortStable before l))
    (hsep : TellsApart before (l' ++ l)) (hb : IsStrict before) :
    Outrun before n a (sortStable before (l' ++ l)) := by
  induction l' with
  | nil => exact h
  | cons b rest ih =>
    obtain ⟨hfirst, hrest⟩ := List.pairwise_cons.mp hsep
    exact (ih hrest).insertSorted hb fun c hc => hfirst c (mem_sortStable.mp hc)

end

/-! ## Sorting beside each other -/

section

variable {α β : Type} {R : α → β → Prop} {ds : List SortDirection}

/-- What is made of members stands beside their keys. -/
theorem forall₂_zip_keys {l : List (List SortKey × α)} {l' : List β}
    (h : List.Forall₂ (fun a b => R a.2 b) l l') :
    List.Forall₂ (fun a b => a.1 = b.1 ∧ R a.2 b.2) l ((l.map Prod.fst).zip l') := by
  induction h with
  | nil => exact .nil
  | cons hab _ ih => exact .cons ⟨rfl, hab⟩ ih

theorem forall₂_insertSorted {a : List SortKey × α} {b : List SortKey × β}
    {l : List (List SortKey × α)} {l' : List (List SortKey × β)} (hab : a.1 = b.1 ∧ R a.2 b.2)
    (h : List.Forall₂ (fun a b => a.1 = b.1 ∧ R a.2 b.2) l l') :
    List.Forall₂ (fun a b => a.1 = b.1 ∧ R a.2 b.2)
      (insertSorted (fun a b => keysBefore ds a.1 b.1) a l)
      (insertSorted (fun a b => keysBefore ds a.1 b.1) b l') := by
  induction h with
  | nil => exact .cons hab .nil
  | @cons c d l l' hcd hrest ih =>
    rw [insertSorted, insertSorted, hab.1, hcd.1]
    split
    · exact .cons hcd ih
    · exact .cons hab (.cons hcd hrest)

/-- Members of two lists that stand beside each other with one key still do when both lists are
sorted. -/
theorem forall₂_sortByKeys {l : List (List SortKey × α)} {l' : List (List SortKey × β)}
    (h : List.Forall₂ (fun a b => a.1 = b.1 ∧ R a.2 b.2) l l') :
    List.Forall₂ R (sortByKeys ds l) (sortByKeys ds l') := by
  have hsorted : List.Forall₂ (fun a b => a.1 = b.1 ∧ R a.2 b.2)
      (sortStable (fun a b => keysBefore ds a.1 b.1) l)
      (sortStable (fun a b => keysBefore ds a.1 b.1) l') := by
    induction h with
    | nil => exact .nil
    | cons hab _ ih => exact forall₂_insertSorted hab ih
  unfold sortByKeys
  rw [List.forall₂_map_left_iff, List.forall₂_map_right_iff]
  exact hsorted.imp fun _ _ hab => hab.2

/-- So do the members in a window. -/
theorem Window.forall₂_apply {l : List α} {l' : List β} (h : List.Forall₂ R l l') (w : Window) :
    List.Forall₂ R (w.apply l) (w.apply l') := by
  obtain ⟨offset, limit⟩ := w
  cases limit with
  | none => exact List.forall₂_drop offset h
  | some n => exact List.forall₂_take n (List.forall₂_drop offset h)

end

/-! ## Windows over members with keys -/

section

variable {α : Type} {ds : List SortDirection} {l : List (List SortKey × α)}

/-- The order of members by their keys. -/
def memberBefore (ds : List SortDirection) (a b : List SortKey × α) : Bool := keysBefore ds a.1 b.1

theorem isStrict_memberBefore (ds : List SortDirection) :
    IsStrict (memberBefore (α := α) ds) where
  irrefl a := (isStrict_keysBefore ds).irrefl a.1
  trans a b c := (isStrict_keysBefore ds).trans a.1 b.1 c.1

/-- Different keys separate members. -/
theorem tellsApart_memberBefore (hnodup : (l.map Prod.fst).Nodup)
    (hlength : ∀ m ∈ l, m.1.length = ds.length) : TellsApart (memberBefore ds) l := by
  refine List.Pairwise.imp_of_mem ?_ (List.pairwise_map.mp hnodup)
  intro a b ha hb hne
  exact keysBefore_total (hlength a ha) (hlength b hb) hne

/-- If the last of the first so many members does not come after one, all of them come before it. -/
theorem outrun_of_getLast? {m : List SortKey × α} {n : Nat}
    (hsorted : l.Pairwise fun a b => memberBefore ds a b = true)
    (hsep : ∀ b ∈ l, memberBefore ds m b = true ∨ memberBefore ds b m = true)
    (hlength : n ≤ l.length)
    (hlast : ((l.take n).map Prod.fst).getLast?.any (keysBefore ds m.1) = false) :
    Outrun (memberBefore ds) n m l := by
  refine ⟨hlength, ?_⟩
  have hsorted := hsorted.sublist (List.take_sublist n l)
  have hsep : ∀ b ∈ l.take n, memberBefore ds m b = true ∨ memberBefore ds b m = true :=
    fun b hb => hsep b (List.mem_of_mem_take hb)
  rcases List.eq_nil_or_concat (l.take n) with hnil | ⟨init, last, hconcat⟩
  · rw [hnil]
    exact nofun
  · rw [List.concat_eq_append] at hconcat
    rw [hconcat] at hsorted hsep hlast ⊢
    have hlast : memberBefore ds m last = false := by simpa [memberBefore] using hlast
    have hbefore : memberBefore ds last m = true := by
      refine (hsep last (by simp)).resolve_left ?_
      rw [hlast]
      exact Bool.false_ne_true
    -- The others come before the last one.
    intro b hb
    rcases List.mem_append.mp hb with hb | hb
    · exact (isStrict_memberBefore ds).trans b last m
        ((List.pairwise_append.mp hsorted).2.2 b hb last (List.mem_singleton_self last)) hbefore
    · rw [List.mem_singleton.mp hb]
      exact hbefore

/-- Leaving out members that stand too far behind changes nothing among the first. -/
theorem take_sortStable_admitted {n : Nat} {best : List (List SortKey)}
    {done : List (List SortKey × α)} (hsep : TellsApart (memberBefore ds) (done ++ l))
    (hbest : best = ((sortStable (memberBefore ds) done).map Prod.fst).take n) :
    (sortStable (memberBefore ds) (done ++ admitted ds n best l)).take n =
      (sortStable (memberBefore ds) (done ++ l)).take n := by
  have hstrict := isStrict_memberBefore (α := α) ds
  induction l generalizing done best with
  | nil => rfl
  | cons m rest ih =>
    obtain ⟨keys, a⟩ := m
    obtain ⟨hdone, hrest, hcross⟩ := List.pairwise_append.mp hsep
    have hothers : TellsApart (memberBefore ds) (done ++ rest) :=
      hsep.sublist ((List.sublist_cons_self (keys, a) rest).append_left done)
    rw [admitted]
    split
    · -- A member that is admitted is one more of those done.
      rw [List.append_cons, List.append_cons done (keys, a) rest]
      have hsep : TellsApart (memberBefore ds) (done ++ [(keys, a)] ++ rest) := by
        rwa [← List.append_cons]
      refine ih hsep ?_
      have hsort : sortStable (memberBefore ds) (done ++ [(keys, a)]) =
          insertSorted (memberBefore ds) (keys, a) (sortStable (memberBefore ds) done) :=
        sortStable_eq_of_perm hstrict (List.pairwise_append.mp hsep).1 List.perm_append_comm
      have hkeys : (insertSorted (memberBefore ds) (keys, a)
          (sortStable (memberBefore ds) done)).map Prod.fst =
            insertSorted (keysBefore ds) keys ((sortStable (memberBefore ds) done).map Prod.fst) :=
        (insertSorted_map Prod.fst (keys, a) _).symm
      rw [hsort, hkeys, hbest, take_insertSorted_take]
    · next hout =>
      rw [Bool.or_eq_true, decide_eq_true_eq, not_or, not_lt, Bool.not_eq_true] at hout
      have hlength : n ≤ (sortStable (memberBefore ds) done).length := by
        have hle := hout.1
        rw [hbest, List.length_take, List.length_map] at hle
        exact le_trans hle (Nat.min_le_right _ _)
      have hsepDone : ∀ b ∈ done, memberBefore ds (keys, a) b = true ∨
          memberBefore ds b (keys, a) = true :=
        fun b hb => (hcross b hb (keys, a) List.mem_cons_self).symm
      have hrun : Outrun (memberBefore ds) n (keys, a) (sortStable (memberBefore ds) done) := by
        refine outrun_of_getLast? (pairwise_sortStable hstrict hdone)
          (fun b hb => hsepDone b (mem_sortStable.mp hb)) hlength ?_
        rw [List.map_take, ← hbest]
        exact hout.2
      have hperm : (done ++ (keys, a) :: rest).Perm ((keys, a) :: (rest ++ done)) :=
        List.perm_middle.trans (List.perm_append_comm.cons _)
      rw [ih hothers hbest, sortStable_eq_of_perm hstrict hsep hperm,
        sortStable_eq_of_perm hstrict hothers List.perm_append_comm, sortStable,
        (hrun.append (hothers.perm List.perm_append_comm) hstrict).take_insertSorted]

namespace Window

/-- A window shows the same members when only its candidates are sorted. -/
theorem apply_candidates (w : Window) (hnodup : (l.map Prod.fst).Nodup)
    (hlength : ∀ m ∈ l, m.1.length = ds.length) :
    w.apply (sortByKeys ds (w.candidates ds l)) = w.apply (sortByKeys ds l) := by
  obtain ⟨offset, limit⟩ := w
  cases limit with
  | none => rfl
  | some n =>
    have hbest : [] = ((sortStable (memberBefore ds) ([] : List (List SortKey × α))).map
        Prod.fst).take (offset + n) := by simp [sortStable]
    have htake := take_sortStable_admitted (tellsApart_memberBefore hnodup hlength) hbest
    show ((sortByKeys ds (admitted ds (offset + n) [] l)).drop offset).take n =
      ((sortByKeys ds l).drop offset).take n
    rw [List.take_drop, List.take_drop]
    unfold sortByKeys
    rw [← List.map_take, ← List.map_take]
    exact congrArg (fun members => (members.map Prod.snd).drop offset) htake

end Window

end

end Quarry.Sql
