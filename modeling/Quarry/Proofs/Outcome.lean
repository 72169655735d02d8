/-
# Outcomes that may be errors

* `bind_eq_ok`, `map_eq_ok` — when a step after another one succeeds. `bind_eq_error` — when it does
  not.
* `Traverses` — a function that applies another one to every member of a list and stops at the first
  error.
* `Traverses.ok_iff` — it succeeds with the outcomes of the members, one for each.
-/
import Mathlib.Data.List.Forall2

namespace Quarry.Outcome

variable {ε α β γ : Type}

/-! ## Single steps -/

/-- Two steps succeed when both do. -/
theorem bind_eq_ok {x : Except ε α} {f : α → Except ε β} {b : β} :
    (x >>= f) = .ok b ↔ ∃ a, x = .ok a ∧ f a = .ok b := by
  cases x with
  | error e =>
    constructor
    · intro h
      cases h
    · rintro ⟨a, ha, -⟩
      cases ha
  | ok a =>
    constructor
    · intro h
      exact ⟨a, rfl, h⟩
    · rintro ⟨a', ha, h⟩
      cases ha
      exact h

/-- A function of an outcome succeeds when the outcome does. -/
theorem map_eq_ok {x : Except ε α} {f : α → β} {b : β} :
    x.map f = .ok b ↔ ∃ a, x = .ok a ∧ f a = b := by
  cases x <;> simp [Except.map]

/-- A function of an outcome leaves an error as it is. -/
theorem map_eq_error {x : Except ε α} {f : α → β} {e : ε} :
    x.map f = .error e ↔ x = .error e := by
  cases x <;> simp [Except.map]

/-- Another error instead leaves success as it is. -/
theorem mapError_eq_ok {x : Except ε α} {f : ε → γ} {a : α} :
    x.mapError f = .ok a ↔ x = .ok a := by
  cases x <;> simp [Except.mapError]

/-- Two steps end with an error when the first does, or the second after it. -/
theorem bind_eq_error {x : Except ε α} {f : α → Except ε β} {e : ε} :
    (x >>= f) = .error e ↔ x = .error e ∨ ∃ a, x = .ok a ∧ f a = .error e := by
  cases x with
  | error d =>
    constructor
    · intro h
      cases h
      exact .inl rfl
    · rintro (h | ⟨a, ha, -⟩)
      · cases h
        rfl
      · cases ha
  | ok a =>
    constructor
    · intro h
      exact .inr ⟨a, rfl, h⟩
    · rintro (h | ⟨b, hb, h⟩)
      · cases h
      · cases hb
        exact h

/-- Another error instead stands for the error of the step. -/
theorem mapError_eq_error {x : Except ε α} {f : ε → γ} {e : γ} :
    x.mapError f = .error e ↔ ∃ d, x = .error d ∧ f d = e := by
  cases x <;> simp [Except.mapError]

/-- A step ends with an error when it does not succeed. -/
theorem exists_error_iff {x : Except ε α} : (∃ e, x = .error e) ↔ ¬ ∃ a, x = .ok a := by
  cases x <;> simp

/-! ## Lists -/

/-- A member on the right of a pairing stands opposite one on the left. -/
theorem exists_of_mem_right {R : α → β → Prop} {as : List α} {bs : List β}
    (h : List.Forall₂ R as bs) {b : β} (hb : b ∈ bs) : ∃ a ∈ as, R a b := by
  induction h with
  | nil => cases hb
  | cons hab _ ih =>
    rcases List.mem_cons.mp hb with rfl | hb
    · exact ⟨_, List.mem_cons_self, hab⟩
    · obtain ⟨a, ha, hr⟩ := ih hb
      exact ⟨a, List.mem_cons_of_mem _ ha, hr⟩

/-- A member at a place on the left of a pairing has its counterpart at that place. -/
theorem getElem?_of_forall₂ {R : α → β → Prop} {as : List α} {bs : List β}
    (h : List.Forall₂ R as bs) {i : Nat} {a : α} (ha : as[i]? = some a) :
    ∃ b, bs[i]? = some b ∧ R a b := by
  induction h generalizing i with
  | nil => cases ha
  | cons hab _ ih =>
    cases i with
    | zero =>
      cases ha
      exact ⟨_, rfl, hab⟩
    | succ i => exact ih ha

/-- A list whose members are values of a function is one of values of the function. -/
theorem exists_map_eq {f : α → β} {P : α → Prop} {bs : List β}
    (h : ∀ b ∈ bs, ∃ a, P a ∧ f a = b) : ∃ as : List α, as.map f = bs ∧ ∀ a ∈ as, P a := by
  induction bs with
  | nil => exact ⟨[], rfl, List.forall_mem_nil _⟩
  | cons b rest ih =>
    obtain ⟨⟨a, ha, rfl⟩, hrest⟩ := List.forall_mem_cons.mp h
    obtain ⟨as, rfl, has⟩ := ih hrest
    exact ⟨a :: as, rfl, List.forall_mem_cons.mpr ⟨ha, has⟩⟩

/-- Members that each can have a counterpart can have them together. -/
theorem exists_forall₂ {R : α → β → Prop} {as : List α} (h : ∀ a ∈ as, ∃ b, R a b) :
    ∃ bs, List.Forall₂ R as bs := by
  induction as with
  | nil => exact ⟨[], .nil⟩
  | cons a rest ih =>
    obtain ⟨⟨b, hb⟩, hrest⟩ := List.forall_mem_cons.mp h
    obtain ⟨bs, hbs⟩ := ih hrest
    exact ⟨b :: bs, .cons hb hbs⟩

/-- What stands opposite members opposite some members stands opposite these. -/
theorem forall₂_trans {R : α → β → Prop} {S : β → γ → Prop} {T : α → γ → Prop} {as : List α}
    {bs : List β} {cs : List γ} (hab : List.Forall₂ R as bs) (hbc : List.Forall₂ S bs cs)
    (h : ∀ a b c, a ∈ as → R a b → S b c → T a c) : List.Forall₂ T as cs := by
  induction hab generalizing cs with
  | nil =>
    cases hbc
    exact .nil
  | @cons a b as bs hr _ ih =>
    cases hbc with
    | cons hs hrest =>
      refine .cons (h _ _ _ List.mem_cons_self hr hs) (ih hrest fun a b c ha => ?_)
      exact h a b c (List.mem_cons_of_mem _ ha)

/-- Opposite members that give the same lists give the same list together. -/
theorem flatMap_eq_of_forall₂ {R : α → β → Prop} {as : List α} {bs : List β}
    (h : List.Forall₂ R as bs) {f : α → List γ} {g : β → List γ} (hR : ∀ a b, R a b → g b = f a) :
    bs.flatMap g = as.flatMap f := by
  induction h with
  | nil => rfl
  | cons hab _ ih => rw [List.flatMap_cons, List.flatMap_cons, hR _ _ hab, ih]

/-- A function on lists applies another one to every member, until the first error. -/
structure Traverses (g : α → Except ε β) (f : List α → Except ε (List β)) : Prop where
  nil : f [] = .ok []
  cons : ∀ a l, f (a :: l) = (do
    let b ← g a
    let bs ← f l
    return b :: bs)

namespace Traverses

variable {g : α → Except ε β} {f : List α → Except ε (List β)}

/-- Success is the list of the outcomes of the members. -/
theorem ok_iff (h : Traverses g f) {l : List α} {bs : List β} :
    f l = .ok bs ↔ List.Forall₂ (fun a b => g a = .ok b) l bs := by
  induction l generalizing bs with
  | nil =>
    rw [h.nil, Except.ok.injEq, List.forall₂_nil_left_iff]
    exact eq_comm
  | cons a l ih =>
    rw [h.cons, bind_eq_ok, List.forall₂_cons_left_iff]
    constructor
    · rintro ⟨b, hb, hrest⟩
      obtain ⟨bs', hbs, heq⟩ := bind_eq_ok.mp hrest
      cases heq
      exact ⟨b, bs', hb, ih.mp hbs, rfl⟩
    · rintro ⟨b, bs', hb, hbs, rfl⟩
      exact ⟨b, hb, bind_eq_ok.mpr ⟨bs', ih.mpr hbs, rfl⟩⟩

/-- It succeeds if every member does. -/
theorem total (h : Traverses g f) {l : List α} (hl : ∀ a ∈ l, ∃ b, g a = .ok b) :
    ∃ bs, f l = .ok bs := by
  induction l with
  | nil => exact ⟨[], h.nil⟩
  | cons a l ih =>
    obtain ⟨b, hb⟩ := hl a List.mem_cons_self
    obtain ⟨bs, hbs⟩ := ih fun c hc => hl c (List.mem_cons_of_mem a hc)
    refine ⟨b :: bs, ?_⟩
    rw [h.cons, bind_eq_ok]
    exact ⟨b, hb, bind_eq_ok.mpr ⟨bs, hbs, rfl⟩⟩

/-- It succeeds just if every member does. -/
theorem exists_ok_iff (h : Traverses g f) {l : List α} :
    (∃ bs, f l = .ok bs) ↔ ∀ a ∈ l, ∃ b, g a = .ok b := by
  constructor
  · rintro ⟨bs, hbs⟩ a ha
    obtain ⟨b, -, hb⟩ := exists_of_mem_right (h.ok_iff.mp hbs).flip ha
    exact ⟨b, hb⟩
  · exact h.total

/-- Two functions that do the same with every member are the same. -/
theorem eq_of (h : Traverses g f) {f' : List α → Except ε (List β)} (h' : Traverses g f')
    (l : List α) : f l = f' l := by
  induction l with
  | nil => rw [h.nil, h'.nil]
  | cons a l ih => rw [h.cons, h'.cons, ih]

end Traverses

/-- The traversal of the library. -/
theorem traverses_mapM (g : α → Except ε β) : Traverses g (fun l => l.mapM g) where
  nil := rfl
  cons _ _ := List.mapM_cons

end Quarry.Outcome
