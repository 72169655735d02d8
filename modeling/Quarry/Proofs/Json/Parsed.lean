/-
# Values that were read

What is known of a value because it was read from a text.

* `Numeral.value_inRange` — an integer that a numeral stands for has 64 bits.
* `Outline.Within` — an outline is nested no more deeply than a number. `within_scan` — so is what a
  scan makes out.
* `valid_of_ofBytes`, `nesting_of_ofBytes` — a value that was read has a text of its own, and is
  nested no more deeply than values are read.
* `isReadBack_of_ofBytes` — without floats it is read back from that text.
-/
import Quarry.Proofs.Json.Outlines
import Quarry.Proofs.Json.ReadBack

namespace Quarry.Json

open Quarry.Decimal Quarry.Outcome

/-! ## Integers -/

/-- An integer has 64 bits. -/
def Number.InRange : Number → Prop
  | .int n => -9223372036854775808 ≤ n ∧ n ≤ 18446744073709551615
  | .float _ => True

namespace Numeral

theorem accumulate_le {limit n : Nat} (h : n ≤ limit) (cs : List Char) :
    (accumulate limit n cs).1 ≤ limit := by
  induction cs generalizing n with
  | nil => exact h
  | cons c cs ih =>
    rw [accumulate]
    split_ifs with hnext
    · exact ih hnext
    · exact h

theorem integer_inRange {significand : Nat} (h : significand ≤ significandLimit) (negative : Bool) :
    (integer negative significand).InRange := by
  rw [significandLimit] at h
  unfold integer
  split_ifs with hpositive hsmall
  · exact ⟨by omega, by omega⟩
  · exact ⟨by omega, by omega⟩
  · trivial

/-- An integer that a numeral stands for has 64 bits. -/
theorem value_inRange {n : Numeral} {v : Number} (h : n.value = .ok v) : v.InRange := by
  have hfloat : ∀ {x : Except Malformed Float}, x.map Number.float = .ok v → v.InRange := by
    intro x hx
    obtain ⟨y, -, rfl⟩ := map_eq_ok.mp hx
    trivial
  unfold value at h
  simp only at h
  -- Only a whole numeral whose digits all fit stands for an integer.
  split_ifs at h
  · cases h
    exact integer_inRange (accumulate_le (Nat.zero_le _) _) _
  · cases h
    trivial
  · cases h
    trivial
  · exact hfloat h
  · exact hfloat h

end Numeral

/-! ## Outlines -/

namespace Outline

/-- No more than a number of arrays and objects stand inside one another, and integers have 64
bits. -/
inductive Within : Nat → Outline → Prop
  | leaf {depth : Nat} {o : Outline} : o.isLeaf = true → (∀ n, o = .number n → n.InRange) →
      Within depth o
  | array {depth : Nat} {os : List Outline} {ending : Ending} :
    (∀ o ∈ os, Within depth o) → Within (depth + 1) (.array os ending)
  | object {depth : Nat} {ms : List Member} {ending : Ending} :
    (∀ m ∈ ms, Within depth m.2) → Within (depth + 1) (.object ms ending)

end Outline

namespace Scanner

open Outline

/-- What the scanner makes out of elements and members with some fuel is nested no more deeply than
it may. -/
structure ScansWithin (fuel : Nat) : Prop where
  value : ∀ depth bs, Within depth (scanValue fuel depth bs).1
  items : ∀ depth done next, (∀ o ∈ done, Within depth o) →
    ∀ o ∈ (scanItems fuel depth done next).1, Within depth o
  members : ∀ depth done next, (∀ m ∈ done, Within depth m.2) →
    ∀ m ∈ (scanMembers fuel depth done next).1, Within depth m.2

theorem within_broken (depth : Nat) (fault : Fault) : Within depth (.broken fault) :=
  .leaf rfl nofun

theorem within_null (depth : Nat) : Within depth .null :=
  .leaf rfl nofun

theorem within_bool (depth : Nat) (b : Bool) : Within depth (.bool b) :=
  .leaf rfl nofun

theorem within_scanWord (depth : Nat) (letters : List Char) {o : Outline} (h : Within depth o)
    (bs : List UInt8) : Within depth (scanWord letters o bs).1 := by
  unfold scanWord
  split
  · exact h
  · exact within_broken depth _

theorem within_scanNumber (depth : Nat) (negative : Bool) (bs : List UInt8) :
    Within depth (scanNumber negative bs).1 := by
  unfold scanNumber
  split
  · exact within_broken depth _
  · split
    · next hvalue =>
      refine .leaf rfl ?_
      rintro n ⟨⟩
      exact Numeral.value_inRange hvalue
    · exact .leaf rfl nofun

theorem within_scanString (depth : Nat) (bs : List UInt8) : Within depth (scanString bs).1 := by
  unfold scanString
  split
  · exact within_broken depth _
  · split <;> exact .leaf rfl nofun

section

variable {fuel : Nat} (h : ScansWithin fuel) (depth : Nat)

include h

/-- A value is scanned from its first sign: only arrays and objects have something in them. -/
theorem ScansWithin.scanValue_succ (bs : List UInt8) :
    Within depth (scanValue (fuel + 1) depth bs).1 := by
  rw [scanValue]
  split
  · exact within_broken depth _
  · split
    · exact within_scanWord depth _ (within_null depth) _
    · exact within_scanWord depth _ (within_bool depth true) _
    · exact within_scanWord depth _ (within_bool depth false) _
    · exact within_scanNumber depth _ _
    · exact within_scanString depth _
    · cases depth with
      | zero => exact within_broken 0 _
      | succ depth => exact .array (h.items depth [] _ (List.forall_mem_nil _))
    · cases depth with
      | zero => exact within_broken 0 _
      | succ depth => exact .object (h.members depth [] _ (List.forall_mem_nil _))
    · split
      · exact within_scanNumber depth _ _
      · exact within_broken depth _

/-- The next element is scanned, and then those after it. -/
theorem ScansWithin.scanItems_succ {done : List Outline} (hdone : ∀ o ∈ done, Within depth o)
    (next : List UInt8 ⊕ Ending × Option (List UInt8)) :
    ∀ o ∈ (scanItems (fuel + 1) depth done next).1, Within depth o := by
  cases next with
  | inr ended => simpa [scanItems] using hdone
  | inl bs =>
    have hvalue := h.value depth bs
    rw [scanItems]
    generalize scanValue fuel depth bs = scanned at hvalue
    obtain ⟨o, rest⟩ := scanned
    have hmore : ∀ p ∈ o :: done, Within depth p := List.forall_mem_cons.mpr ⟨hvalue, hdone⟩
    cases rest with
    | none => simpa only [List.mem_reverse] using hmore
    | some rest => exact h.items depth (o :: done) _ hmore

/-- The next member is scanned, its name before its value, and then those after it. -/
theorem ScansWithin.scanMembers_succ {done : List Member} (hdone : ∀ m ∈ done, Within depth m.2)
    (next : List UInt8 ⊕ Ending × Option (List UInt8)) :
    ∀ m ∈ (scanMembers (fuel + 1) depth done next).1, Within depth m.2 := by
  cases next with
  | inr ended => simpa only [scanMembers, List.mem_reverse] using hdone
  | inl bs =>
    rw [scanMembers]
    split
    · simpa only [List.mem_reverse] using hdone
    · next rest hskip =>
      simp only
      split
      · next e hcolon =>
        have hmore : ∀ m ∈ (memberName bs, .broken (.plain e)) :: done, Within depth m.2 :=
          List.forall_mem_cons.mpr ⟨within_broken depth _, hdone⟩
        simpa only [List.mem_reverse] using hmore
      · next rest hcolon =>
        have hvalue := h.value depth rest
        generalize scanValue fuel depth rest = scanned at hvalue
        obtain ⟨o, rest⟩ := scanned
        have hmore : ∀ m ∈ (memberName bs, o) :: done, Within depth m.2 :=
          List.forall_mem_cons.mpr ⟨hvalue, hdone⟩
        cases rest with
        | none => simpa only [List.mem_reverse] using hmore
        | some rest => exact h.members depth _ _ hmore

end

/-- With each step of fuel one more value or part of a value is scanned. -/
theorem scansWithin (fuel : Nat) : ScansWithin fuel := by
  induction fuel with
  | zero =>
    refine ⟨fun depth bs => within_broken depth _, fun depth done next hdone => ?_,
      fun depth done next hdone => ?_⟩
    · cases next <;> simpa [scanItems] using hdone
    · cases next <;> simpa only [scanMembers, List.mem_reverse] using hdone
  | succ fuel ih =>
    exact ⟨ih.scanValue_succ, fun depth done next hdone => ih.scanItems_succ depth hdone next,
      fun depth done next hdone => ih.scanMembers_succ depth hdone next⟩

/-- What a scan makes out is nested no more deeply than values are read. -/
theorem within_scan (bs : List UInt8) : Within nestingLimit (scan bs).outline :=
  (scansWithin (2 * bs.length + 2)).value nestingLimit bs

end Scanner

/-! ## Values -/

namespace Outline

/-- What holds of the values that members give, and of those already read, holds of all of them,
and they are in the order of their names. -/
theorem forall_of_membersToJson {P : Json → Prop} {ms : List Member} {done vs : Named Json}
    (h : membersToJson done ms = .ok vs) (hms : ∀ m ∈ ms, ∀ v, m.2.toJson = .ok v → P v)
    (hasc : done.Ascending) (hdone : ∀ e ∈ done, P e.2) :
    vs.Ascending ∧ ∀ e ∈ vs, P e.2 := by
  induction ms generalizing done with
  | nil =>
    rw [membersToJson] at h
    cases h
    exact ⟨hasc, hdone⟩
  | cons m rest ih =>
    obtain ⟨written, o⟩ := m
    obtain ⟨hfirst, hrest⟩ := List.forall_mem_cons.mp hms
    rw [membersToJson] at h
    obtain ⟨name, -, h⟩ := bind_eq_ok.mp h
    obtain ⟨v, hv, h⟩ := bind_eq_ok.mp h
    refine ih h hrest (Named.ascending_insert hasc name v) fun e he => ?_
    rcases Named.mem_insert he with rfl | he
    · exact hfirst v hv
    · exact hdone e he

/-- What holds of the values that elements give holds of all of them. -/
theorem forall_of_itemsToJson {P : Json → Prop} {os : List Outline} {vs : List Json}
    (h : itemsToJson os = .ok vs) (hos : ∀ o ∈ os, ∀ v, o.toJson = .ok v → P v) :
    ∀ v ∈ vs, P v := by
  intro v hv
  obtain ⟨o, ho, hov⟩ := exists_of_mem_right (traverses_itemsToJson.ok_iff.mp h) hv
  exact hos o ho v hov

end Outline

theorem itemsNesting_le {items : List Json} {depth : Nat} (h : ∀ v ∈ items, v.nesting ≤ depth) :
    itemsNesting items ≤ depth := by
  induction items with
  | nil => exact Nat.zero_le depth
  | cons v rest ih =>
    obtain ⟨hv, hrest⟩ := List.forall_mem_cons.mp h
    exact Nat.max_le.mpr ⟨hv, ih hrest⟩

theorem membersNesting_le {members : List (String × Json)} {depth : Nat}
    (h : ∀ m ∈ members, m.2.nesting ≤ depth) : membersNesting members ≤ depth := by
  induction members with
  | nil => exact Nat.zero_le depth
  | cons m rest ih =>
    obtain ⟨hm, hrest⟩ := List.forall_mem_cons.mp h
    exact Nat.max_le.mpr ⟨hm, ih hrest⟩

/-- All floats of a value are finite. -/
def FloatsFinite (v : Json) : Prop := ∀ x ∈ v.floats, (Binary64.ofFloat x).isFinite = true

namespace Outline

/-- A value is nested no more deeply than its outline. -/
theorem Within.nesting_le {depth : Nat} {o : Outline} (h : Within depth o) {v : Json}
    (hv : o.toJson = .ok v) : v.nesting ≤ depth := by
  induction h generalizing v with
  | @leaf depth o hleaf _ =>
    cases o <;> cases hleaf <;> cases hv <;> exact Nat.zero_le depth
  | array _ ih =>
    obtain ⟨vs, hvs, -, rfl⟩ := toJson_array_eq_ok.mp hv
    have hall := forall_of_itemsToJson hvs fun o ho v hov => ih o ho hov
    exact Nat.succ_le_succ (itemsNesting_le hall)
  | object _ ih =>
    obtain ⟨vs, hvs, -, rfl⟩ := toJson_object_eq_ok.mp hv
    have hall := (forall_of_membersToJson (P := fun v => v.nesting ≤ _) hvs
      (fun m hm v hmv => ih m hm hmv) Named.ascending_nil (List.forall_mem_nil _)).2
    exact Nat.succ_le_succ (membersNesting_le hall)

/-- A value with finite floats has a text of its own. -/
theorem Within.valid {depth : Nat} {o : Outline} (h : Within depth o) {v : Json}
    (hv : o.toJson = .ok v) (hfloats : v.FloatsFinite) : v.Valid := by
  induction h generalizing v with
  | @leaf depth o hleaf hnumber =>
    cases o with
    | number n =>
      cases hv
      cases n with
      | int n => exact .int n (hnumber _ rfl)
      | float x => exact .float x (hfloats x List.mem_cons_self)
    | null =>
      cases hv
      exact .null
    | bool b =>
      cases hv
      exact .bool b
    | string s =>
      cases hv
      exact .string s
    | array | object => cases hleaf
    | unreadableNumber | unreadableString | broken => cases hv
  | array _ ih =>
    obtain ⟨vs, hvs, -, rfl⟩ := toJson_array_eq_ok.mp hv
    have hall := forall_of_itemsToJson (P := fun v => v.FloatsFinite → v.Valid) hvs
      fun o ho v hov hfinite => ih o ho hov hfinite
    exact .array vs fun v hv => hall v hv fun x hx => hfloats x (floats_subset_items hv hx)
  | object _ ih =>
    obtain ⟨vs, hvs, -, rfl⟩ := toJson_object_eq_ok.mp hv
    obtain ⟨hasc, hall⟩ := forall_of_membersToJson (P := fun v => v.FloatsFinite → v.Valid) hvs
      (fun m hm v hmv hfinite => ih m hm hmv hfinite) Named.ascending_nil (List.forall_mem_nil _)
    exact .object vs hasc fun m hm => hall m hm fun x hx => hfloats x (floats_subset_members hm hx)

end Outline

/-- A value that was read comes from what was made out of its text. -/
theorem toJson_of_ofBytes {bs : List UInt8} {v : Json} (h : ofBytes bs = .ok v) :
    (scan bs).outline.toJson = .ok v := by
  obtain ⟨w, hw, h⟩ := bind_eq_ok.mp h
  rw [Decoder.anything, Record.orMalformed_eq_ok] at hw
  split_ifs at h
  · cases h
  · cases h
    exact hw

/-- A value that was read is nested no more deeply than values are read. -/
theorem nesting_of_ofBytes {bs : List UInt8} {v : Json} (h : ofBytes bs = .ok v) :
    v.nesting ≤ Scanner.nestingLimit :=
  (Scanner.within_scan bs).nesting_le (toJson_of_ofBytes h)

/-- A value that was read and has finite floats has a text of its own. -/
theorem valid_of_ofBytes {bs : List UInt8} {v : Json} (h : ofBytes bs = .ok v)
    (hfloats : v.FloatsFinite) : v.Valid :=
  (Scanner.within_scan bs).valid (toJson_of_ofBytes h) hfloats

/-- A value that was read and has no floats is read back from its text. -/
theorem isReadBack_of_ofBytes {bs : List UInt8} {v : Json} (h : ofBytes bs = .ok v)
    (hfloats : v.floats = []) : v.IsReadBack where
  valid := valid_of_ofBytes h (by simp [FloatsFinite, hfloats])
  nesting := nesting_of_ofBytes h
  floats := by simp [FloatsReadBack, hfloats]

end Quarry.Json
