/-
# Heights of values

* `Decoder.SameUpTo` — two decoders do the same with values up to a height.
* `SameUpTo.optional`, `SameUpTo.list`, `SameUpTo.namedOf` — so do decoders made of them.
* `Record.decode_same` — records whose fields are read alike up to a height are read alike one step
  above it.
-/
import Quarry.Proofs.Json.Fields

namespace Quarry.Json

/-! ## Heights -/

namespace Outline

theorem height_pos (o : Outline) : 0 < o.height := by
  cases o <;> simp [height]

theorem height_le_of_mem_items {os : List Outline} {o : Outline} (h : o ∈ os) :
    o.height ≤ itemsHeight os := by
  induction os with
  | nil => cases h
  | cons p rest ih =>
    rw [itemsHeight]
    rcases List.mem_cons.mp h with rfl | h
    · exact le_max_left _ _
    · exact (ih h).trans (le_max_right _ _)

theorem height_le_of_mem_members {ms : List Member} {m : Member} (h : m ∈ ms) :
    m.2.height ≤ membersHeight ms := by
  induction ms with
  | nil => cases h
  | cons n rest ih =>
    obtain ⟨written, o⟩ := n
    rw [membersHeight]
    rcases List.mem_cons.mp h with rfl | h
    · exact le_max_left _ _
    · exact (ih h).trans (le_max_right _ _)

end Outline

/-! ## Decoders -/

namespace Decoder

variable {α : Type} {d d' : Decoder α} {k : Nat}

/-- Two decoders do the same with values up to a height. -/
def SameUpTo (k : Nat) (d d' : Decoder α) : Prop := ∀ o, o.height ≤ k → d o = d' o

theorem SameUpTo.mono {l : Nat} (h : SameUpTo k d d') (hl : l ≤ k) : SameUpTo l d d' :=
  fun o ho => h o (ho.trans hl)

theorem SameUpTo.optional (h : SameUpTo k d d') : SameUpTo k (optional d) (optional d') := by
  intro o ho
  cases o <;> simp only [Decoder.optional, h _ ho]

theorem SameUpTo.items (h : SameUpTo k d d') {os : List Outline}
    (hos : ∀ o ∈ os, o.height ≤ k) (ending : Ending) : items d os ending = items d' os ending := by
  induction os with
  | nil => rfl
  | cons o rest ih =>
    obtain ⟨ho, hrest⟩ := List.forall_mem_cons.mp hos
    rw [Decoder.items, Decoder.items, h o ho, ih hrest]

theorem SameUpTo.members (h : SameUpTo k d d') {ms : List Member}
    (hms : ∀ m ∈ ms, m.2.height ≤ k) (done : Named α) (ending : Ending) :
    members d done ms ending = members d' done ms ending := by
  induction ms generalizing done with
  | nil => rfl
  | cons m rest ih =>
    obtain ⟨written, o⟩ := m
    obtain ⟨ho, hrest⟩ := List.forall_mem_cons.mp hms
    have heq : d o = d' o := h o ho
    simp only [Decoder.members, heq, ih hrest]

theorem SameUpTo.list (h : SameUpTo k d d') : SameUpTo k (list d) (list d') := by
  intro o ho
  cases o with
  | array os ending =>
    rw [Outline.height] at ho
    exact h.items (fun p hp => (Outline.height_le_of_mem_items hp).trans (Nat.le_of_succ_le ho))
      ending
  | _ => rfl

theorem SameUpTo.namedOf (h : SameUpTo k d d') : SameUpTo k (namedOf d) (namedOf d') := by
  intro o ho
  cases o with
  | object ms ending =>
    rw [Outline.height] at ho
    exact h.members
      (fun m hm => (Outline.height_le_of_mem_members hm).trans (Nat.le_of_succ_le ho)) [] ending
  | _ => rfl

end Decoder

/-! ## Records -/

namespace Record

variable {ρ : Type} {k : Nat}

/-- Another way to read fields. -/
def withSet (r : Record ρ) (set : String → Outline → ρ → Except DecodeError ρ) : Record ρ :=
  { r with set := set }

variable {r : Record ρ} {set : String → Outline → ρ → Except DecodeError ρ}
  (h : ∀ name o, o.height ≤ k → r.set name o = set name o)

include h

theorem ofMembers_same {ms : List Member} (hms : ∀ m ∈ ms, m.2.height ≤ k) (a : ρ)
    (seen : List String) (ending : Ending) :
    r.ofMembers a seen ms ending = (r.withSet set).ofMembers a seen ms ending := by
  induction ms generalizing a seen with
  | nil => rfl
  | cons m rest ih =>
    obtain ⟨written, o⟩ := m
    obtain ⟨ho, hrest⟩ := List.forall_mem_cons.mp hms
    simp only [ofMembers, ih hrest]
    simp only [withSet, h _ o ho]
    rfl

theorem ofItems_same {os : List Outline} (hos : ∀ o ∈ os, o.height ≤ k) (total i : Nat) (a : ρ)
    (names : List String) (ending : Ending) :
    r.ofItems total a i names os ending = (r.withSet set).ofItems total a i names os ending := by
  induction names generalizing a i os with
  | nil => rfl
  | cons name names ih =>
    cases os with
    | nil =>
      simp only [ofItems, ih (List.forall_mem_nil _)]
      rfl
    | cons o rest =>
      obtain ⟨ho, hrest⟩ := List.forall_mem_cons.mp hos
      simp only [ofItems, ih hrest]
      simp only [withSet, h _ o ho]

/-- Records whose fields are read alike up to a height are read alike one step above it. -/
theorem decode_same : Decoder.SameUpTo (k + 1) r.decode (r.withSet set).decode := by
  intro o ho
  cases o with
  | array os ending =>
    rw [Outline.height] at ho
    exact ofItems_same h (fun p hp => (Outline.height_le_of_mem_items hp).trans
      (Nat.le_of_succ_le_succ ho)) _ _ _ _ ending
  | object ms ending =>
    rw [Outline.height] at ho
    exact ofMembers_same h (fun m hm => (Outline.height_le_of_mem_members hm).trans
      (Nat.le_of_succ_le_succ ho)) _ _ ending
  | _ => rfl

end Record

end Quarry.Json
