/-
# Things placed under names

What becomes of a list when one thing after another is placed in it under its name: in place of the
one that has the name already, or at the end.

* `placed` — the list after some things were placed. `newNames` — the names that come to it, in the
  order in which they first come.
* `fst_placed`, `lookup_placed` — the names of such a list, and what stands under each of them.
* `placed_eq_iff` — whether things come to the same list in two orders.
* `placed_replaceAll` — things placed one after another can take the place of all others of their
  names.
-/
import Mathlib.Data.List.Nodup
import Quarry.Store.Basic

namespace Quarry.Store

variable {α : Type}

/-! ## Lists of named things -/

theorem lookup_cons_of_ne {name other : String} (h : name ≠ other) (a : α)
    (rest : List (String × α)) : ((other, a) :: rest).lookup name = rest.lookup name := by
  rw [List.lookup_cons, beq_eq_false_iff_ne.mpr h]

theorem lookup_cons_of_eq (name : String) (a : α) (rest : List (String × α)) :
    ((name, a) :: rest).lookup name = some a := List.lookup_cons_self

theorem lookup_eq_none {l : List (String × α)} {name : String} :
    l.lookup name = none ↔ name ∉ l.map Prod.fst := by
  rw [List.lookup_eq_none_iff, List.mem_map]
  constructor
  · rintro h ⟨e, he, rfl⟩
    exact absurd rfl (bne_iff_ne.mp (h e he))
  · intro h e he
    refine bne_iff_ne.mpr ?_
    rintro rfl
    exact h ⟨e, he, rfl⟩

/-- Lists whose names are the same, and different from one another, are the same if the same stands
under each name. -/
theorem ext_lookup {l l' : List (String × α)} (hnames : l.map Prod.fst = l'.map Prod.fst)
    (hnodup : (l.map Prod.fst).Nodup) (h : ∀ name, l.lookup name = l'.lookup name) : l = l' := by
  induction l generalizing l' with
  | nil => exact (List.map_eq_nil_iff.mp hnames.symm).symm
  | cons e rest ih =>
    cases l' with
    | nil => cases hnames
    | cons e' rest' =>
      obtain ⟨name, a⟩ := e
      obtain ⟨name', a'⟩ := e'
      obtain ⟨hname, hrest⟩ := List.cons.inj hnames
      obtain rfl : name = name' := hname
      obtain ⟨hfirst, hnodup⟩ := List.nodup_cons.mp hnodup
      have ha := h name
      rw [lookup_cons_of_eq, lookup_cons_of_eq] at ha
      rw [Option.some.inj ha, ih hrest hnodup fun other => ?_]
      by_cases hother : other = name
      · subst hother
        rw [lookup_eq_none.mpr hfirst, lookup_eq_none.mpr (hrest ▸ hfirst)]
      · have hcons := h other
        rwa [lookup_cons_of_ne hother, lookup_cons_of_ne hother] at hcons

/-! ## One thing -/

/-- A name is there, or comes last. -/
theorem fst_replaceOrAppend (name : String) (a : α) (l : List (String × α)) :
    (replaceOrAppend name a l).map Prod.fst =
      if name ∈ l.map Prod.fst then l.map Prod.fst else l.map Prod.fst ++ [name] := by
  induction l with
  | nil => rfl
  | cons e rest ih =>
    obtain ⟨other, b⟩ := e
    by_cases h : other = name
    · subst h
      have hmem : other ∈ ((other, b) :: rest).map Prod.fst := List.mem_cons_self
      rw [replaceOrAppend, if_pos rfl, if_pos hmem]
      rfl
    · rw [replaceOrAppend, if_neg h, List.map_cons, ih, List.map_cons]
      simp only [List.mem_cons, Ne.symm h, false_or]
      split_ifs <;> rfl

theorem lookup_replaceOrAppend (name : String) (a : α) (l : List (String × α)) (other : String) :
    (replaceOrAppend name a l).lookup other = if other = name then some a else l.lookup other := by
  induction l with
  | nil =>
    by_cases h : other = name
    · subst h
      rw [if_pos rfl]
      exact lookup_cons_of_eq other a []
    · rw [if_neg h]
      exact lookup_cons_of_ne h a []
  | cons e rest ih =>
    obtain ⟨first, b⟩ := e
    rw [replaceOrAppend]
    by_cases hfirst : first = name
    · subst hfirst
      rw [if_pos rfl]
      by_cases h : other = first
      · subst h
        rw [if_pos rfl, lookup_cons_of_eq]
      · rw [if_neg h, lookup_cons_of_ne h, lookup_cons_of_ne h]
    · rw [if_neg hfirst]
      by_cases h : other = first
      · subst h
        rw [if_neg hfirst, lookup_cons_of_eq, lookup_cons_of_eq]
      · rw [lookup_cons_of_ne h, lookup_cons_of_ne h, ih]

theorem replaceOrAppend_of_not_mem {name : String} {l : List (String × α)}
    (h : name ∉ l.map Prod.fst) (a : α) : replaceOrAppend name a l = l ++ [(name, a)] := by
  induction l with
  | nil => rfl
  | cons e rest ih =>
    obtain ⟨hfirst, hrest⟩ := not_or.mp (fun hmem => h (List.mem_cons.mpr hmem))
    rw [replaceOrAppend, if_neg (Ne.symm hfirst), ih hrest, List.cons_append]

/-- Placing a thing changes nothing if and only if it is there already. -/
theorem replaceOrAppend_eq_self {name : String} {a : α} {l : List (String × α)} :
    replaceOrAppend name a l = l ↔ l.lookup name = some a := by
  constructor
  · intro h
    rw [← h, lookup_replaceOrAppend, if_pos rfl]
  · intro h
    induction l with
    | nil => cases h
    | cons e rest ih =>
      obtain ⟨other, b⟩ := e
      rw [replaceOrAppend]
      by_cases hother : other = name
      · subst hother
        rw [lookup_cons_of_eq] at h
        rw [if_pos rfl, Option.some.inj h]
      · rw [lookup_cons_of_ne (Ne.symm hother)] at h
        rw [if_neg hother, ih h]

/-! ## Several things -/

/-- The list after some things were placed one after another. -/
def placed (l : List (String × α)) (entries : List (String × α)) : List (String × α) :=
  entries.foldl (fun l e => replaceOrAppend e.1 e.2 l) l

/-- Of some names, those that are not known, each where it comes first. -/
def newNames : (known : List String) → List String → List String
  | _, [] => []
  | known, name :: rest =>
    if name ∈ known then newNames known rest else name :: newNames (known ++ [name]) rest

/-- Of two sequences of things, the names that are not known come in the same order, and the same
thing comes last under each name. -/
structure ComeAlike (known : List String) (entries entries' : List (String × α)) : Prop where
  names : newNames known (entries.map Prod.fst) = newNames known (entries'.map Prod.fst)
  last : ∀ name, entries.reverse.lookup name = entries'.reverse.lookup name

theorem placed_cons (l : List (String × α)) (e : String × α) (entries : List (String × α)) :
    placed l (e :: entries) = placed (replaceOrAppend e.1 e.2 l) entries := rfl

theorem placed_append (l entries more : List (String × α)) :
    placed l (entries ++ more) = placed (placed l entries) more := List.foldl_append ..

theorem placed_concat (l entries : List (String × α)) (e : String × α) :
    placed l (entries ++ [e]) = replaceOrAppend e.1 e.2 (placed l entries) :=
  placed_append l entries [e]

/-- The names of a list stay where they are, and the new ones come behind them. -/
theorem fst_placed (l entries : List (String × α)) :
    (placed l entries).map Prod.fst =
      l.map Prod.fst ++ newNames (l.map Prod.fst) (entries.map Prod.fst) := by
  induction entries generalizing l with
  | nil => exact (List.append_nil _).symm
  | cons e rest ih =>
    rw [placed_cons, ih, fst_replaceOrAppend, List.map_cons, newNames]
    split_ifs with h
    · rfl
    · rw [List.append_assoc, List.singleton_append]

/-- Under a name stands what was placed there last, or else what stood there before. -/
theorem lookup_placed (l entries : List (String × α)) (name : String) :
    (placed l entries).lookup name = (entries.reverse.lookup name).or (l.lookup name) := by
  induction entries generalizing l with
  | nil => rfl
  | cons e rest ih =>
    obtain ⟨other, a⟩ := e
    rw [placed_cons, ih, lookup_replaceOrAppend, List.reverse_cons, List.lookup_append,
      Option.or_assoc]
    congr 1
    by_cases h : name = other
    · subst h
      rw [if_pos rfl, lookup_cons_of_eq, Option.some_or]
    · rw [if_neg h, lookup_cons_of_ne h]
      rfl

/-- Names stay different from one another. -/
theorem nodup_replaceOrAppend {l : List (String × α)} (h : (l.map Prod.fst).Nodup) (name : String)
    (a : α) : ((replaceOrAppend name a l).map Prod.fst).Nodup := by
  rw [fst_replaceOrAppend]
  split_ifs with hname
  · exact h
  · exact List.nodup_append.mpr ⟨h, List.nodup_singleton name, fun b hb c hc hbc =>
      hname (List.mem_singleton.mp hc ▸ hbc ▸ hb)⟩

theorem nodup_placed {l : List (String × α)} (h : (l.map Prod.fst).Nodup)
    (entries : List (String × α)) : ((placed l entries).map Prod.fst).Nodup := by
  induction entries generalizing l with
  | nil => exact h
  | cons e rest ih => exact ih (nodup_replaceOrAppend h e.1 e.2)

/-- Things under different names that are all new come behind one another. -/
theorem placed_of_nodup {l entries : List (String × α)}
    (h : ((l ++ entries).map Prod.fst).Nodup) : placed l entries = l ++ entries := by
  induction entries generalizing l with
  | nil => exact (List.append_nil l).symm
  | cons e rest ih =>
    rw [List.map_append, List.map_cons] at h
    have hnew : e.1 ∉ l.map Prod.fst := fun hmem =>
      (List.nodup_append.mp h).2.2 e.1 hmem e.1 List.mem_cons_self rfl
    have hstep : l ++ e :: rest = (l ++ [e]) ++ rest := by
      rw [List.append_assoc, List.singleton_append]
    rw [placed_cons, replaceOrAppend_of_not_mem hnew, hstep, ih]
    rwa [List.map_append, List.map_append, List.map_singleton, List.append_assoc]

/-- Things under the same names come to the same list in two orders if and only if they come
alike. -/
theorem placed_eq_iff {l entries entries' : List (String × α)} (hl : (l.map Prod.fst).Nodup)
    (hsame : ∀ name, name ∈ entries.map Prod.fst ↔ name ∈ entries'.map Prod.fst) :
    placed l entries = placed l entries' ↔ ComeAlike (l.map Prod.fst) entries entries' := by
  constructor
  · intro h
    refine ⟨?_, fun name => ?_⟩
    · have hnames := congrArg (List.map Prod.fst) h
      rw [fst_placed, fst_placed] at hnames
      exact List.append_cancel_left hnames
    · have hlookup := congrArg (List.lookup name) h
      rw [lookup_placed, lookup_placed] at hlookup
      -- A name that one of the lists lacks is lacking in both.
      have hnone : entries.reverse.lookup name = none ↔ entries'.reverse.lookup name = none := by
        rw [lookup_eq_none, lookup_eq_none, List.map_reverse, List.map_reverse, List.mem_reverse,
          List.mem_reverse, hsame]
      cases hlast : entries.reverse.lookup name with
      | none => exact (hnone.mp hlast).symm
      | some a =>
        cases hlast' : entries'.reverse.lookup name with
        | none =>
          rw [hnone.mpr hlast'] at hlast
          cases hlast
        | some b => rwa [hlast, hlast', Option.some_or, Option.some_or] at hlookup
  · rintro ⟨hnames, hlast⟩
    refine ext_lookup ?_ (nodup_placed hl entries) fun name => ?_
    · rw [fst_placed, fst_placed, hnames]
    · rw [lookup_placed, lookup_placed, hlast]

/-! ## In place of all -/

/-- Puts a thing in the place of all those with its name, or at the end if there are none. -/
def replaceAll (name : String) (a : α) (l : List (String × α)) : List (String × α) :=
  if name ∈ l.map Prod.fst then l.map fun e => if e.1 = name then (name, a) else e
  else l ++ [(name, a)]

theorem fst_replaceAll (name : String) (a : α) (l : List (String × α)) :
    (replaceAll name a l).map Prod.fst =
      if name ∈ l.map Prod.fst then l.map Prod.fst else l.map Prod.fst ++ [name] := by
  unfold replaceAll
  split_ifs
  · rw [List.map_map]
    refine List.map_congr_left fun e _ => ?_
    show (if e.1 = name then (name, a) else e).1 = e.1
    split_ifs with he
    · exact he.symm
    · rfl
  · exact List.map_append

/-- What holds of all the things before holds of all if it holds of the one put there. -/
theorem forall_mem_replaceAll {P : α → Prop} {l : List (String × α)} (h : ∀ e ∈ l, P e.2) {a : α}
    (ha : P a) {name : String} : ∀ e ∈ replaceAll name a l, P e.2 := by
  unfold replaceAll
  split_ifs
  · refine List.forall_mem_map.mpr fun e he => ?_
    split_ifs
    · exact ha
    · exact h e he
  · exact List.forall_mem_append.mpr ⟨h, List.forall_mem_singleton.mpr ha⟩

/-- Where all those with a name are replaced, the last is. -/
theorem lookup_map_replaced (name : String) (a : α) (l : List (String × α)) (other : String) :
    (l.map fun e => if e.1 = name then (name, a) else e).lookup other =
      if other = name then (l.lookup name).map fun _ => a else l.lookup other := by
  induction l with
  | nil => split_ifs <;> rfl
  | cons e rest ih =>
    obtain ⟨first, b⟩ := e
    rw [List.map_cons]
    by_cases hfirst : first = name
    · subst hfirst
      rw [if_pos rfl]
      by_cases h : other = first
      · subst h
        rw [if_pos rfl, lookup_cons_of_eq, lookup_cons_of_eq]
        rfl
      · rw [lookup_cons_of_ne h, ih, if_neg h, if_neg h, lookup_cons_of_ne h]
    · rw [if_neg hfirst]
      by_cases h : other = first
      · subst h
        rw [if_neg hfirst, lookup_cons_of_eq, lookup_cons_of_eq]
      · rw [lookup_cons_of_ne h, ih, lookup_cons_of_ne h, lookup_cons_of_ne (Ne.symm hfirst)]

theorem lookup_reverse_replaceAll (name : String) (a : α) (l : List (String × α))
    (other : String) : (replaceAll name a l).reverse.lookup other =
      if other = name then some a else l.reverse.lookup other := by
  unfold replaceAll
  split_ifs with hmem h
  · subst h
    rw [← List.map_reverse, lookup_map_replaced, if_pos rfl]
    have hsome : l.reverse.lookup other ≠ none := by
      rw [Ne, lookup_eq_none, List.map_reverse, List.mem_reverse]
      exact fun hnot => hnot hmem
    obtain ⟨b, hb⟩ := Option.ne_none_iff_exists'.mp hsome
    rw [hb]
    rfl
  · rw [← List.map_reverse, lookup_map_replaced, if_neg h]
  · subst_vars
    rw [List.reverse_append]
    exact lookup_cons_of_eq _ a _
  · rw [List.reverse_append]
    exact lookup_cons_of_ne (by assumption) a _

theorem newNames_append (known names more : List String) :
    newNames known (names ++ more) =
      newNames known names ++ newNames (known ++ newNames known names) more := by
  induction names generalizing known with
  | nil =>
    rw [List.nil_append, newNames, List.nil_append, List.append_nil]
  | cons name rest ih =>
    rw [List.cons_append, newNames, newNames]
    split_ifs
    · exact ih known
    · rw [ih, List.cons_append, List.append_assoc, List.singleton_append]

theorem mem_newNames {known names : List String} {name : String} :
    name ∈ known ++ newNames known names ↔ name ∈ known ∨ name ∈ names := by
  induction names generalizing known with
  | nil => simp [newNames]
  | cons first rest ih =>
    rw [newNames]
    split_ifs with h
    · rw [ih, List.mem_cons]
      constructor
      · exact Or.imp_right .inr
      · rintro (hname | rfl | hname)
        · exact .inl hname
        · exact .inl h
        · exact .inr hname
    · have hassoc : known ++ first :: newNames (known ++ [first]) rest =
          (known ++ [first]) ++ newNames (known ++ [first]) rest := by
        rw [List.append_assoc, List.singleton_append]
      rw [hassoc, ih, List.mem_append, List.mem_singleton, List.mem_cons, or_assoc]

/-- Placing a thing comes to the same whether it is done at last or before, in place of all others
of its name. -/
theorem placed_replaceAll (name : String) (a : α) (l : List (String × α)) :
    placed [] (replaceAll name a l) = replaceOrAppend name a (placed [] l) := by
  refine ext_lookup ?_ (nodup_placed (l := []) List.nodup_nil _) fun other => ?_
  · rw [fst_placed, fst_replaceOrAppend, fst_placed, fst_replaceAll, List.map_nil, List.nil_append,
      List.nil_append]
    have hmem : name ∈ newNames [] (l.map Prod.fst) ↔ name ∈ l.map Prod.fst := by
      have h := @mem_newNames [] (l.map Prod.fst) name
      simpa using h
    by_cases h : name ∈ l.map Prod.fst
    · rw [if_pos h, if_pos (hmem.mpr h)]
    · have hnot : name ∉ newNames [] (l.map Prod.fst) := fun hin => h (hmem.mp hin)
      rw [if_neg h, if_neg hnot, newNames_append, List.nil_append, newNames, if_neg hnot, newNames]
  · rw [lookup_placed, lookup_reverse_replaceAll, lookup_replaceOrAppend, lookup_placed]
    split_ifs
    · rfl
    · rfl

theorem nodup_replaceAll {l : List (String × α)} (h : (l.map Prod.fst).Nodup) (name : String)
    (a : α) : ((replaceAll name a l).map Prod.fst).Nodup := by
  rw [fst_replaceAll, ← fst_replaceOrAppend name a]
  exact nodup_replaceOrAppend h name a

/-- Where names are different from one another, there is at most one thing to replace. -/
theorem replaceAll_eq {l : List (String × α)} (h : (l.map Prod.fst).Nodup) (name : String)
    (a : α) : replaceAll name a l = replaceOrAppend name a l := by
  calc replaceAll name a l
      = placed [] (replaceAll name a l) :=
        (placed_of_nodup (l := []) (nodup_replaceAll h name a)).symm
    _ = replaceOrAppend name a (placed [] l) := placed_replaceAll name a l
    _ = replaceOrAppend name a l := congrArg _ (placed_of_nodup (l := []) h)

end Quarry.Store
