/-
# Order of named things

* `Named.Ascending` — the names ascend, no name twice.
* `Named.ascending_insert`, `Named.ascending_ofList` — lists of named things are built in that order.
* `Named.ofList_eq_self` — things already in that order stay as they are.
* `Named.ext_of_get?` — in that order, what stands under each name is all there is.
* `Named.get?_ofList` — what stands under a name once things are put in that order.
* `Named.get?_perm` — different names may stand in any order.
-/
import Mathlib.Data.List.Forall2
import Mathlib.Data.String.Basic
import Quarry.Json.Basic

namespace Quarry.Named

variable {α : Type}

/-- The names ascend. -/
def Ascending (named : Named α) : Prop := named.Pairwise fun a b => a.1 < b.1

instance (named : Named α) : Decidable (Ascending named) :=
  inferInstanceAs (Decidable (List.Pairwise _ named))

theorem ascending_nil : Ascending ([] : Named α) := List.Pairwise.nil

/-- A thing that is put under a name, or one of those that were there. -/
theorem mem_insert {name : String} {a : α} {named : Named α} {entry : String × α}
    (h : entry ∈ insert name a named) : entry = (name, a) ∨ entry ∈ named := by
  induction named with
  | nil =>
    left
    exact List.mem_singleton.mp h
  | cons first rest ih =>
    obtain ⟨other, b⟩ := first
    unfold insert at h
    split_ifs at h with hlt heq
    · exact List.mem_cons.mp h
    · rcases List.mem_cons.mp h with rfl | hrest
      · exact .inl rfl
      · exact .inr (List.mem_cons_of_mem _ hrest)
    · rcases List.mem_cons.mp h with rfl | hrest
      · exact .inr List.mem_cons_self
      · exact (ih hrest).imp_right (List.mem_cons_of_mem _)

/-- The order of names is kept when a thing is put under a name. -/
theorem ascending_insert {named : Named α} (h : Ascending named) (name : String) (a : α) :
    Ascending (insert name a named) := by
  induction named with
  | nil => exact List.pairwise_singleton _ _
  | cons first rest ih =>
    obtain ⟨other, b⟩ := first
    obtain ⟨hfirst, hrest⟩ := List.pairwise_cons.mp h
    unfold insert
    split_ifs with hlt heq
    · refine List.pairwise_cons.mpr ⟨?_, h⟩
      intro entry hentry
      rcases List.mem_cons.mp hentry with rfl | hentry
      · exact hlt
      · exact lt_trans hlt (hfirst entry hentry)
    · subst heq
      exact List.pairwise_cons.mpr ⟨hfirst, hrest⟩
    · refine List.pairwise_cons.mpr ⟨?_, ih hrest⟩
      intro entry hentry
      rcases mem_insert hentry with rfl | hentry
      · exact lt_of_le_of_ne (not_lt.mp hlt) fun hne => heq hne.symm
      · exact hfirst entry hentry

/-- Things put under names one after another stand in the order of names. -/
theorem ascending_foldl (entries : List (String × α)) {named : Named α} (h : Ascending named) :
    Ascending (entries.foldl (fun named (name, a) => named.insert name a) named) := by
  induction entries generalizing named with
  | nil => exact h
  | cons entry rest ih => exact ih (ascending_insert h entry.1 entry.2)

/-- A list of named things is in the order of names. -/
theorem ascending_ofList (entries : List (String × α)) : Ascending (ofList entries) :=
  ascending_foldl entries ascending_nil

/-- A thing under a name after all others comes last. -/
theorem insert_of_all_lt {named : Named α} {name : String} (h : ∀ e ∈ named, e.1 < name)
    (a : α) : insert name a named = named ++ [(name, a)] := by
  induction named with
  | nil => rfl
  | cons first rest ih =>
    obtain ⟨other, b⟩ := first
    have hother : other < name := h _ List.mem_cons_self
    rw [insert, if_neg (lt_asymm hother), if_neg (ne_of_gt hother),
      ih fun e he => h e (List.mem_cons_of_mem _ he), List.cons_append]

/-- Things in the order of names are put one after another. -/
theorem foldl_insert {done rest : Named α} (h : Ascending (done ++ rest)) :
    rest.foldl (fun named (name, a) => named.insert name a) done = done ++ rest := by
  induction rest generalizing done with
  | nil => exact (List.append_nil done).symm
  | cons entry rest ih =>
    obtain ⟨name, a⟩ := entry
    obtain ⟨-, -, hcross⟩ := List.pairwise_append.mp h
    have hstep : done ++ (name, a) :: rest = (done ++ [(name, a)]) ++ rest := by
      rw [List.append_assoc, List.singleton_append]
    -- All that is done already comes before the next name.
    have hlast := insert_of_all_lt (fun e he => hcross e he _ List.mem_cons_self) a
    rw [List.foldl_cons, hstep, ← ih (hstep ▸ h)]
    exact congrArg (rest.foldl _) hlast

/-- Things in the order of names stay as they are. -/
theorem ofList_eq_self {named : Named α} (h : Ascending named) : ofList named = named :=
  foldl_insert h

/-! ## What stands under a name -/

/-- What stands under a name is there. -/
theorem mem_of_get? {named : Named α} {name : String} {a : α} (h : get? name named = some a) :
    (name, a) ∈ named := by
  induction named with
  | nil => cases h
  | cons entry rest ih =>
    obtain ⟨other, b⟩ := entry
    rw [get?] at h
    split_ifs at h with hname
    · cases h
      rw [hname]
      exact List.mem_cons_self
    · exact List.mem_cons_of_mem _ (ih h)

/-- Under the first name nothing else stands behind. -/
theorem get?_tail {name : String} {a : α} {rest : Named α}
    (h : Ascending ((name, a) :: rest)) : get? name rest = none := by
  by_contra hne
  obtain ⟨b, hb⟩ := Option.ne_none_iff_exists'.mp hne
  have hlt : name < name := (List.pairwise_cons.mp h).1 (name, b) (mem_of_get? hb)
  exact lt_irrefl name hlt

/-- Names that ascend are different. -/
theorem Ascending.nodup {named : Named α} (h : Ascending named) : (named.map Prod.fst).Nodup :=
  (List.pairwise_map.mpr h).imp ne_of_lt

/-- Under different names, each thing is what stands under its name. -/
theorem get?_eq_some_iff {entries : List (String × α)} (h : (entries.map Prod.fst).Nodup)
    {name : String} {a : α} : get? name entries = some a ↔ (name, a) ∈ entries := by
  refine ⟨mem_of_get?, fun hmem => ?_⟩
  induction entries with
  | nil => cases hmem
  | cons entry rest ih =>
    obtain ⟨other, b⟩ := entry
    obtain ⟨hfirst, hrest⟩ := List.nodup_cons.mp h
    rcases List.mem_cons.mp hmem with heq | hin
    · cases heq
      exact if_pos rfl
    · have hne : name ≠ other := by
        rintro rfl
        exact hfirst (List.mem_map.mpr ⟨_, hin, rfl⟩)
      rw [get?, if_neg hne, ih hrest hin]

/-- In the order of names, each thing is what stands under its name. -/
theorem get?_of_mem {named : Named α} (h : Ascending named) {name : String} {a : α}
    (hmem : (name, a) ∈ named) : get? name named = some a := (get?_eq_some_iff h.nodup).mpr hmem

/-- What stands under different names does not depend on their order. -/
theorem get?_perm {entries entries' : List (String × α)} (h : entries.Perm entries')
    (hnodup : (entries.map Prod.fst).Nodup) (name : String) :
    get? name entries = get? name entries' := by
  have hnodup' : (entries'.map Prod.fst).Nodup := (h.map Prod.fst).nodup_iff.mp hnodup
  ext a
  rw [get?_eq_some_iff hnodup, get?_eq_some_iff hnodup', h.mem_iff]

/-- Nothing stands under a name that no thing has. -/
theorem get?_eq_none {named : List (String × α)} {name : String}
    (h : name ∉ named.map Prod.fst) : get? name named = none := by
  rw [Option.eq_none_iff_forall_ne_some]
  intro a ha
  exact h (List.mem_map_of_mem (mem_of_get? ha))

/-- Under each of different names stands what was put there, whatever the order. -/
theorem get?_foldl {entries : List (String × α)} (h : (entries.map Prod.fst).Nodup)
    (done : Named α) (name : String) :
    get? name (entries.foldl (fun named e => named.insert e.1 e.2) done) =
      (get? name entries).or (get? name done) := by
  induction entries generalizing done with
  | nil => rfl
  | cons entry rest ih =>
    obtain ⟨other, a⟩ := entry
    obtain ⟨hfirst, hrest⟩ := List.nodup_cons.mp h
    rw [List.foldl_cons, ih hrest, get?]
    split_ifs with hname
    · subst hname
      rw [get?_eq_none hfirst, get?_insert_self]
      rfl
    · rw [get?_insert_of_ne hname]

theorem get?_ofList {entries : List (String × α)} (h : (entries.map Prod.fst).Nodup)
    (name : String) : get? name (ofList entries) = get? name entries :=
  (get?_foldl h [] name).trans (Option.or_none)

/-- Nothing else stands among named things than what was put there. -/
theorem mem_of_mem_ofList {entries : List (String × α)} {entry : String × α}
    (h : entry ∈ ofList entries) : entry ∈ entries := by
  have hfold : ∀ (entries : List (String × α)) (done : Named α),
      entry ∈ entries.foldl (fun named e => named.insert e.1 e.2) done →
        entry ∈ entries ∨ entry ∈ done := by
    intro entries
    induction entries with
    | nil => exact fun done hin => .inr hin
    | cons first rest ih =>
      intro done hin
      rcases ih _ hin with hin | hin
      · exact .inl (List.mem_cons_of_mem _ hin)
      · rcases mem_insert hin with rfl | hin
        · exact .inl List.mem_cons_self
        · exact .inr hin
  exact (hfold entries [] h).resolve_right (List.not_mem_nil)

theorem get?_cons_self (name : String) (a : α) (rest : Named α) :
    get? name ((name, a) :: rest) = some a := if_pos rfl

/-- Nothing stands under a name before the first one. -/
theorem get?_of_lt {name other : String} {a : α} {rest : Named α}
    (h : Ascending ((other, a) :: rest)) (hlt : name < other) :
    get? name ((other, a) :: rest) = none := by
  refine get?_eq_none fun hmem => ?_
  obtain ⟨e, he, rfl⟩ := List.mem_map.mp hmem
  rcases List.mem_cons.mp he with rfl | he
  · exact lt_irrefl _ hlt
  · exact lt_asymm hlt ((List.pairwise_cons.mp h).1 e he)

/-- In the order of names, things that stand opposite under each name stand opposite in turn. -/
theorem forall₂_of_get? {β : Type} {R : String → α → β → Prop} {l : Named α} {m : Named β}
    (hl : Ascending l) (hm : Ascending m)
    (h : ∀ name, Option.Rel (R name) (get? name l) (get? name m)) :
    List.Forall₂ (fun a b => a.1 = b.1 ∧ R a.1 a.2 b.2) l m := by
  induction l generalizing m with
  | nil =>
    cases m with
    | nil => exact .nil
    | cons e m =>
      have hfirst := h e.1
      rw [get?_cons_self] at hfirst
      cases hfirst
  | cons e l ih =>
    obtain ⟨name, a⟩ := e
    have hfirst := h name
    rw [get?_cons_self] at hfirst
    cases m with
    | nil => cases hfirst
    | cons e m =>
      obtain ⟨other, b⟩ := e
      -- Neither first name can come before the other.
      rcases lt_trichotomy name other with hlt | rfl | hlt
      · rw [get?_of_lt hm hlt] at hfirst
        cases hfirst
      · rw [get?_cons_self] at hfirst
        cases hfirst with
        | some hab =>
          refine .cons ⟨rfl, hab⟩ (ih hl.tail hm.tail fun n => ?_)
          by_cases hn : n = name
          · subst hn
            rw [get?_tail hl, get?_tail hm]
            exact .none
          · have hrest := h n
            rwa [get?, if_neg hn, get?, if_neg hn] at hrest
      · have hlast := h other
        rw [get?_of_lt hl hlt, get?_cons_self] at hlast
        cases hlast

/-- In the order of names, what stands under each name is all there is. -/
theorem ext_of_get? {named other : Named α} (h : Ascending named) (ho : Ascending other)
    (heq : ∀ name, get? name named = get? name other) : named = other := by
  have hall : List.Forall₂ (fun a b => a.1 = b.1 ∧ a.2 = b.2) named other := by
    refine forall₂_of_get? (R := fun _ => Eq) h ho fun name => ?_
    rw [heq name]
    cases get? name other with
    | none => exact .none
    | some a => exact .some rfl
  have heqs : List.Forall₂ Eq named other := hall.imp fun a b hab => Prod.ext hab.1 hab.2
  rwa [List.forall₂_eq_eq_eq] at heqs

/-- A function of names and things leaves the names where they are. -/
theorem ascending_map {β : Type} {named : Named α} (h : Ascending named) (f : String → α → β) :
    Ascending (named.map fun (name, a) => (name, f name a)) := List.pairwise_map.mpr h

theorem get?_map {β : Type} (named : Named α) (f : String → α → β) (name : String) :
    get? name (named.map fun (name, a) => (name, f name a)) = (get? name named).map (f name) := by
  induction named with
  | nil => rfl
  | cons entry rest ih =>
    obtain ⟨other, a⟩ := entry
    rw [List.map_cons, get?, get?, ih]
    split_ifs with hname
    · rw [hname]
      rfl
    · rfl

end Quarry.Named
