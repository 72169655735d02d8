/-
# Decoders on texts and on values

* `Decoder.Agrees` — a decoder reads from a text without repeated names what it reads from the value
  that the text writes.
* `Agrees.optional`, `Agrees.list`, `Agrees.namedOf` and the like — decoders agree that are made of
  ones that do.
* `Record.Independent.decode_agrees` — records agree whose fields do.
-/
import Quarry.Proofs.Json.Outlines

namespace Quarry.Json

open Quarry.Outcome Outline

/-! ## Plain types -/

namespace Decoder

variable {α β : Type} {d : Decoder α}

/-- The decoder reads from a text what it reads from the value that the text writes. -/
def Agrees (d : Decoder α) : Prop := ∀ o v, o.Writes v → ∀ a, d o = .ok a ↔ d (.ofJson v) = .ok a

/-- Decoders agree that read nothing in which other values stand. -/
theorem agrees_of_leaf (harray : ∀ os ending a, d (.array os ending) ≠ .ok a)
    (hobject : ∀ ms ending a, d (.object ms ending) ≠ .ok a) : d.Agrees := by
  intro o v h a
  cases o with
  | array os ending =>
    obtain ⟨vs, rfl, -⟩ := h.array
    exact iff_of_false (harray _ _ a) (harray _ _ a)
  | object ms ending =>
    obtain ⟨vs, rfl, -⟩ := h.object
    exact iff_of_false (hobject _ _ a) (hobject _ _ a)
  | _ => rw [h.leaf rfl]

theorem agrees_string : string.Agrees :=
  agrees_of_leaf (fun _ _ _ h => by cases h) fun _ _ _ h => by cases h

theorem agrees_boolean : boolean.Agrees :=
  agrees_of_leaf (fun _ _ _ h => by cases h) fun _ _ _ h => by cases h

theorem agrees_size : size.Agrees :=
  agrees_of_leaf (fun _ _ _ h => by cases h) fun _ _ _ h => by cases h

/-- What is made of what agreeing decoders read is the same. -/
theorem Agrees.map (hd : d.Agrees) {o : Outline} {v : Json} (h : o.Writes v) (f : α → β) (b : β) :
    (d o).map f = .ok b ↔ (d (.ofJson v)).map f = .ok b := by
  simp only [map_eq_ok, hd o v h]

theorem optional_eq_ok {o : Outline} {x : Option α} :
    optional d o = .ok x ↔ (o = .null ∧ x = none) ∨ (o ≠ .null ∧ (d o).map some = .ok x) := by
  cases o <;> simp [optional, eq_comm]

theorem Agrees.optional (hd : d.Agrees) : (optional d).Agrees := by
  intro o v h x
  rw [optional_eq_ok, optional_eq_ok, hd.map h some x, Ne, h.eq_null_iff]

/-- Elements are read alike if each is. -/
theorem items_agree {os : List Outline} {vs : List Json}
    (h : List.Forall₂ (fun o v => ∀ a, d o = .ok a ↔ d (.ofJson v) = .ok a) os vs)
    {ending : Ending} (hnext : ending.next = .ok ()) (l : List α) :
    items d os ending = .ok l ↔ items d (itemsOfJson vs) .complete = .ok l := by
  induction h generalizing l with
  | nil =>
    rw [itemsOfJson, Decoder.items, Decoder.items, hnext]
    rfl
  | cons hv _ ih =>
    rw [itemsOfJson, Decoder.items, Decoder.items]
    simp only [bind_eq_ok, hv, ih]

theorem Agrees.items (hd : d.Agrees) {os : List Outline} {vs : List Json}
    (h : List.Forall₂ Writes os vs) {ending : Ending} (hnext : ending.next = .ok ()) (l : List α) :
    items d os ending = .ok l ↔ items d (itemsOfJson vs) .complete = .ok l :=
  items_agree (h.imp hd) hnext l

theorem Agrees.list (hd : d.Agrees) : (list d).Agrees := by
  intro o v h l
  cases o with
  | array os ending =>
    obtain ⟨vs, rfl, hnext, hall⟩ := h.array
    exact hd.items hall hnext l
  | object ms ending =>
    obtain ⟨vs, rfl, -⟩ := h.object
    constructor <;> intro h <;> cases h
  | _ => rw [h.leaf rfl]

/-- Things by name are read alike. -/
theorem Agrees.namedOf (hd : d.Agrees) : (namedOf d).Agrees := by
  intro o v h l
  cases o with
  | array os ending =>
    obtain ⟨vs, rfl, -⟩ := h.array
    constructor <;> intro h <;> cases h
  | object ms ending =>
    obtain ⟨vs, rfl, hnext, hall⟩ := h.object
    -- Under each name stands the same in both, or nothing in either.
    have hfound : (∀ name o, find? name ms = some o → ∃ a, d o = .ok a ∧ l.get? name = some a) ↔
        ∀ name o, find? name (membersOfJson vs) = some o → ∃ a, d o = .ok a ∧
          l.get? name = some a := by
      refine forall_congr' fun name => ?_
      rw [find?_membersOfJson]
      obtain ⟨hnone, hget⟩ | ⟨o, v, ho, hget, hv⟩ := hall.under name
      · simp [hnone, hget]
      · simp [ho, hget, hd o v hv]
    have hnot : (∀ name, find? name ms = none → l.get? name = Named.get? name []) ↔
        ∀ name, find? name (membersOfJson vs) = none → l.get? name = Named.get? name [] := by
      refine forall_congr' fun name => ?_
      rw [find?_membersOfJson]
      obtain ⟨hnone, hget⟩ | ⟨o, v, ho, hget, -⟩ := hall.under name
      · simp [hnone, hget]
      · simp [ho, hget]
    show members d [] ms ending = .ok l ↔ members d [] (membersOfJson vs) .complete = .ok l
    rw [members_eq_ok hall.once Named.ascending_nil,
      members_eq_ok (namesOnce_membersOfJson hall.ascending) Named.ascending_nil, hfound, hnot]
    exact and_congr (iff_of_true hall.named (named_membersOfJson vs))
      (and_congr_left fun _ => iff_of_true hnext rfl)
  | _ => rw [h.leaf rfl]

end Decoder

/-! ## Records -/

namespace Record

variable {ρ : Type} {r : Record ρ} {P : String → Json → Prop}

/-- What stands in the places of the fields has properties. -/
def Holds (r : Record ρ) (P : String → Json → Prop) : Json → Prop
  | .object vs => ∀ name v, Named.get? name vs = some v → P name v
  | .array vs => ∀ p ∈ r.fields.zip vs, P p.1 p.2
  | _ => True

/-- A field is read alike from a text and from the value it writes, if the value has a property. -/
def FieldsAgree (r : Record ρ) (P : String → Json → Prop) : Prop :=
  ∀ name o v, o.Writes v → P name v → ∀ a b,
    r.set name o a = .ok b ↔ r.set name (.ofJson v) a = .ok b

theorem FieldsAgree.readFields (hset : r.FieldsAgree P) {ms : List Member} {vs : Named Json}
    (h : WritesMembers ms vs) (hP : r.Holds P (.object vs)) (names : List String) {a b : ρ} :
    r.readFields (find? · ms) names a = .ok b ↔
      r.readFields (find? · (membersOfJson vs)) names a = .ok b := by
  induction names generalizing a with
  | nil => rfl
  | cons name names ih =>
    simp only [Record.readFields, bind_eq_ok, ih]
    refine exists_congr fun c => and_congr_left fun _ => ?_
    rw [find?_membersOfJson]
    obtain ⟨hnone, hget⟩ | ⟨o, v, ho, hget, hv⟩ := h.under name
    · rw [hnone, hget]
      rfl
    · rw [ho, hget]
      exact hset name o v hv (hP name v hget) a c

theorem canBePassed_of_writes {ms : List Member} {vs : Named Json} (h : WritesMembers ms vs) :
    r.CanBePassed ms := by
  intro m hm
  obtain ⟨name, v, hname, -, hv⟩ := h.exists_of_mem hm
  exact ⟨name, hname, fun _ => hv.skip⟩

/-- The outlines of members that are written write the same. -/
theorem writesMembers_ofJson {ms : List Member} {vs : Named Json} (h : WritesMembers ms vs) :
    WritesMembers (membersOfJson vs) vs := by
  have hwrites : Writes (.object ms .complete) (.object vs) := writes_object rfl h
  obtain ⟨vs', heq, -, h'⟩ := hwrites.ofJson.object
  cases heq
  exact h'

theorem Independent.ofMembers_agrees (h : r.Independent) (hset : r.FieldsAgree P)
    {ms : List Member} {vs : Named Json} (hw : WritesMembers ms vs) (hP : r.Holds P (.object vs))
    {ending : Ending} (hnext : ending.next = .ok ()) (a b : ρ) :
    r.ofMembers a [] ms ending = .ok b ↔ r.ofMembers a [] (membersOfJson vs) .complete = .ok b := by
  have hw' := writesMembers_ofJson hw
  have hrequired : ∀ name, (∃ o, find? name ms = some o) ↔
      ∃ o, find? name (membersOfJson vs) = some o := by
    intro name
    rw [find?_membersOfJson]
    obtain ⟨hnone, hget⟩ | ⟨o, v, ho, hget, -⟩ := hw.under name
    · simp [hnone, hget]
    · simp [ho, hget]
  rw [h.ofMembers_eq_ok hw.once (List.forall_mem_nil _),
    h.ofMembers_eq_ok hw'.once (List.forall_mem_nil _), Record.ReadFrom, Record.ReadFrom,
    hset.readFields hw hP]
  simp only [hrequired]
  exact and_congr (iff_of_true (canBePassed_of_writes hw) (canBePassed_of_writes hw'))
    (and_congr_left fun _ => iff_of_true hnext rfl)

theorem finishItems_eq_ok {total : Nat} {os : List Outline} {ending : Ending}
    (hnext : ending.next = .ok ()) : finishItems total os ending = .ok () ↔ os = [] := by
  cases os with
  | nil =>
    cases ending with
    | broken fault finish => cases hnext
    | _ => exact iff_of_true rfl rfl
  | cons o rest =>
    refine iff_of_false ?_ (List.cons_ne_nil o rest)
    cases ending <;> intro h <;> cases h

/-- Without an element for it, a field must be one that need not be present. -/
theorem ofItems_cons_nil {total i : Nat} {a : ρ} {name : String} {names : List String}
    {ending : Ending} (hnext : ending.next = .ok ()) :
    r.ofItems total a i (name :: names) [] ending =
      if r.required.contains name then .error (.invalidLength i r.expectedLength)
      else r.ofItems total a (i + 1) names [] ending := by
  rw [Record.ofItems, hnext]
  rfl

theorem FieldsAgree.ofItems (hset : r.FieldsAgree P) {os : List Outline} {vs : List Json}
    (h : List.Forall₂ Writes os vs) {names : List String} (hP : ∀ p ∈ names.zip vs, P p.1 p.2)
    {ending : Ending} (hnext : ending.next = .ok ()) (total total' i : Nat) (a b : ρ) :
    r.ofItems total a i names os ending = .ok b ↔
      r.ofItems total' a i names (itemsOfJson vs) .complete = .ok b := by
  have hcomplete : Ending.complete.next = .ok () := rfl
  induction names generalizing os vs a i with
  | nil =>
    simp only [Record.ofItems, bind_eq_ok, finishItems_eq_ok hnext, finishItems_eq_ok hcomplete]
    cases h <;> simp [itemsOfJson]
  | cons name names ih =>
    cases h with
    | nil =>
      have hrest := ih (List.Forall₂.nil : List.Forall₂ Writes [] []) (by simp) (i + 1) a
      rw [itemsOfJson] at hrest ⊢
      rw [ofItems_cons_nil hnext, ofItems_cons_nil hcomplete]
      split_ifs
      · exact iff_of_false (fun h => by cases h) fun h => by cases h
      · exact hrest
    | @cons o v os vs hv hrest =>
      simp only [itemsOfJson, Record.ofItems, bind_eq_ok]
      rw [List.zip_cons_cons, List.forall_mem_cons] at hP
      simp only [ih hrest hP.2, hset name o v hv hP.1]

/-- A record is read from a text as it is from the value that the text writes. -/
theorem Independent.decode_agrees (h : r.Independent) (hset : r.FieldsAgree P) {o : Outline}
    {v : Json} (hw : o.Writes v) (hP : r.Holds P v) (a : ρ) :
    r.decode o = .ok a ↔ r.decode (.ofJson v) = .ok a := by
  cases o with
  | array os ending =>
    obtain ⟨vs, rfl, hnext, hall⟩ := hw.array
    exact hset.ofItems hall hP hnext os.length (itemsOfJson vs).length 0 r.start a
  | object ms ending =>
    obtain ⟨vs, rfl, hnext, hall⟩ := hw.object
    exact h.ofMembers_agrees hset hall hP hnext r.start a
  | _ => rw [hw.leaf rfl]

theorem Independent.agrees (h : r.Independent) (hset : r.FieldsAgree fun _ _ => True) :
    Decoder.Agrees r.decode := by
  intro o v hw a
  refine h.decode_agrees hset hw ?_ a
  cases v <;> simp [Holds]

end Record

end Quarry.Json
