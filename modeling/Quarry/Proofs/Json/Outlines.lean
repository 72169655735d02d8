/-
# Texts and the values they write

* `Outline.inductionOn` — what holds of arrays and objects if it holds of what stands in them.
* `Outline.NoRepeats` — no object in a text names a member twice.
* `Outline.Writes` — a text without repeated names writes a value. `Writes.array`, `Writes.object` —
  what then stands in the value.
* `Writes.skip`, `Writes.buffered` — such a text can be passed over, and read ahead.
* `Writes.ofJson` — the outline of the value writes it too.
-/
import Quarry.Proofs.Json.Fields

namespace Quarry.Json.Outline

open Quarry.Outcome

/-! ## Induction over texts -/

/-- Whether nothing stands in a value. -/
def isLeaf : Outline → Bool
  | .array .. => false
  | .object .. => false
  | _ => true

/-- What holds of a value if it holds of those in it holds of every value. -/
theorem inductionOn {P : Outline → Prop} (leaf : ∀ o, o.isLeaf = true → P o)
    (array : ∀ os ending, (∀ o ∈ os, P o) → P (.array os ending))
    (object : ∀ ms ending, (∀ m ∈ ms, P m.2) → P (.object ms ending)) (o : Outline) : P o := by
  cases o with
  | array os ending => exact array os ending fun p _ => inductionOn leaf array object p
  | object ms ending => exact object ms ending fun m _ => inductionOn leaf array object m.2
  | _ => exact leaf _ rfl
termination_by sizeOf o
decreasing_by
  · have hlt : sizeOf p < sizeOf os := List.sizeOf_lt_of_mem ‹_›
    simp only [Outline.array.sizeOf_spec]
    omega
  · have hlt : sizeOf m < sizeOf ms := List.sizeOf_lt_of_mem ‹_›
    obtain ⟨written, p⟩ := m
    simp only [Prod.mk.sizeOf_spec] at hlt
    simp only [Outline.object.sizeOf_spec]
    omega

/-! ## Names that stand once -/

mutual

/-- No object in a value names a member twice. -/
def NoRepeats : Outline → Prop
  | .array items _ => itemsNoRepeats items
  | .object members _ => NamesOnce members ∧ membersNoRepeats members
  | _ => True

/-- No object in some elements names a member twice. -/
def itemsNoRepeats : List Outline → Prop
  | [] => True
  | o :: rest => o.NoRepeats ∧ itemsNoRepeats rest

/-- No object in the values of some members names a member twice. -/
def membersNoRepeats : List Member → Prop
  | [] => True
  | (_, o) :: rest => o.NoRepeats ∧ membersNoRepeats rest

end

instance (ms : List Member) : Decidable (NamesOnce ms) :=
  inferInstanceAs (Decidable (List.Nodup _))

mutual

/-- Whether an object in a value names a member twice can be found out. -/
def decidableNoRepeats : (o : Outline) → Decidable o.NoRepeats
  | .array items _ => decidableItems items
  | .object members _ =>
    @instDecidableAnd _ _ (inferInstanceAs (Decidable (NamesOnce members))) (decidableMembers members)
  | .null | .bool _ | .number _ | .unreadableNumber _ | .string _ | .unreadableString _ | .broken _ =>
    .isTrue trivial

/-- It can be found out of some elements. -/
def decidableItems : (os : List Outline) → Decidable (itemsNoRepeats os)
  | [] => .isTrue trivial
  | o :: rest => @instDecidableAnd _ _ (decidableNoRepeats o) (decidableItems rest)

/-- It can be found out of the values of some members. -/
def decidableMembers : (ms : List Member) → Decidable (membersNoRepeats ms)
  | [] => .isTrue trivial
  | (_, o) :: rest => @instDecidableAnd _ _ (decidableNoRepeats o) (decidableMembers rest)

end

instance (o : Outline) : Decidable o.NoRepeats := o.decidableNoRepeats

theorem itemsNoRepeats_iff {os : List Outline} : itemsNoRepeats os ↔ ∀ o ∈ os, o.NoRepeats := by
  induction os with
  | nil => simp [itemsNoRepeats]
  | cons o rest ih => rw [itemsNoRepeats, ih, List.forall_mem_cons]

theorem membersNoRepeats_iff {ms : List Member} :
    membersNoRepeats ms ↔ ∀ m ∈ ms, m.2.NoRepeats := by
  induction ms with
  | nil => simp [membersNoRepeats]
  | cons m rest ih =>
    obtain ⟨written, o⟩ := m
    rw [membersNoRepeats, ih, List.forall_mem_cons]

theorem noRepeats_array {os : List Outline} {ending : Ending} :
    (array os ending).NoRepeats ↔ ∀ o ∈ os, o.NoRepeats := by
  rw [NoRepeats, itemsNoRepeats_iff]

theorem noRepeats_object {ms : List Member} {ending : Ending} :
    (object ms ending).NoRepeats ↔ NamesOnce ms ∧ ∀ m ∈ ms, m.2.NoRepeats := by
  rw [NoRepeats, membersNoRepeats_iff]

/-! ## Values that are written -/

/-- A text without repeated names writes a value. -/
structure Writes (o : Outline) (v : Json) : Prop where
  noRepeats : o.NoRepeats
  toJson : o.toJson = .ok v

/-- Members of different names write the members of an object. -/
structure WritesMembers (ms : List Member) (vs : Named Json) : Prop where
  once : NamesOnce ms
  named : ∀ m ∈ ms, ∃ name, m.1 = .ok name
  ascending : vs.Ascending
  under : ∀ name, (find? name ms = none ∧ vs.get? name = none) ∨
    ∃ o v, find? name ms = some o ∧ vs.get? name = some v ∧ o.Writes v

theorem traverses_itemsToJson : Traverses toJson itemsToJson where
  nil := by rw [itemsToJson]
  cons o os := by rw [itemsToJson]

/-- An array is read if its elements are and it ends well. -/
theorem toJson_array_eq_ok {os : List Outline} {ending : Ending} {v : Json} :
    (array os ending).toJson = .ok v ↔
      ∃ vs, itemsToJson os = .ok vs ∧ ending.next = .ok () ∧ v = .array vs := by
  rw [toJson]
  constructor
  · intro h
    obtain ⟨vs, hvs, h⟩ := bind_eq_ok.mp h
    obtain ⟨⟨⟩, hnext, h⟩ := bind_eq_ok.mp h
    cases h
    exact ⟨vs, hvs, hnext, rfl⟩
  · rintro ⟨vs, hvs, hnext, rfl⟩
    exact bind_eq_ok.mpr ⟨vs, hvs, bind_eq_ok.mpr ⟨(), hnext, rfl⟩⟩

/-- An object is read if its members are and it ends well. -/
theorem toJson_object_eq_ok {ms : List Member} {ending : Ending} {v : Json} :
    (object ms ending).toJson = .ok v ↔
      ∃ vs, membersToJson [] ms = .ok vs ∧ ending.next = .ok () ∧ v = .object vs := by
  rw [toJson]
  constructor
  · intro h
    obtain ⟨vs, hvs, h⟩ := bind_eq_ok.mp h
    obtain ⟨⟨⟩, hnext, h⟩ := bind_eq_ok.mp h
    cases h
    exact ⟨vs, hvs, hnext, rfl⟩
  · rintro ⟨vs, hvs, hnext, rfl⟩
    exact bind_eq_ok.mpr ⟨vs, hvs, bind_eq_ok.mpr ⟨(), hnext, rfl⟩⟩

/-- The members of an object are read as things by name. -/
theorem members_anything {ms : List Member} {ending : Ending} {done vs : Named Json} :
    Decoder.anything.members done ms ending = .ok vs ↔
      membersToJson done ms = .ok vs ∧ ending.next = .ok () := by
  induction ms generalizing done with
  | nil =>
    rw [Decoder.members, membersToJson, map_eq_ok]
    constructor
    · rintro ⟨⟨⟩, hnext, rfl⟩
      exact ⟨rfl, Record.orMalformed_eq_ok.mp hnext⟩
    · rintro ⟨h, hnext⟩
      cases h
      exact ⟨(), Record.orMalformed_eq_ok.mpr hnext, rfl⟩
  | cons m rest ih =>
    obtain ⟨written, o⟩ := m
    rw [Decoder.members, membersToJson]
    simp only [bind_eq_ok, Record.orMalformed_eq_ok, Decoder.anything, ih]
    constructor
    · rintro ⟨name, hname, v, hv, hrest, hnext⟩
      exact ⟨⟨name, hname, v, hv, hrest⟩, hnext⟩
    · rintro ⟨⟨name, hname, v, hv, hrest⟩, hnext⟩
      exact ⟨name, hname, v, hv, hrest, hnext⟩

/-- An array writes an array of what its elements write. -/
theorem Writes.array {os : List Outline} {ending : Ending} {v : Json}
    (h : Writes (.array os ending) v) :
    ∃ vs, v = .array vs ∧ ending.next = .ok () ∧ List.Forall₂ Writes os vs := by
  obtain ⟨vs, hvs, hnext, rfl⟩ := toJson_array_eq_ok.mp h.toJson
  refine ⟨vs, rfl, hnext, List.forall₂_iff_get.mpr ?_⟩
  obtain ⟨hlength, hall⟩ := List.forall₂_iff_get.mp (traverses_itemsToJson.ok_iff.mp hvs)
  exact ⟨hlength, fun i hi hi' =>
    ⟨noRepeats_array.mp h.noRepeats _ (List.get_mem os ⟨i, hi⟩), hall i hi hi'⟩⟩

/-- An object writes an object of what its members write. -/
theorem Writes.object {ms : List Member} {ending : Ending} {v : Json}
    (h : Writes (.object ms ending) v) :
    ∃ vs, v = .object vs ∧ ending.next = .ok () ∧ WritesMembers ms vs := by
  obtain ⟨honce, hall⟩ := noRepeats_object.mp h.noRepeats
  obtain ⟨vs, hvs, hnext, rfl⟩ := toJson_object_eq_ok.mp h.toJson
  obtain ⟨hnamed, -, hascending, hfound, hnot⟩ :=
    (Decoder.members_eq_ok honce Named.ascending_nil).mp (members_anything.mpr ⟨hvs, hnext⟩)
  refine ⟨vs, rfl, hnext, honce, hnamed, hascending, fun name => ?_⟩
  cases hfind : find? name ms with
  | none => exact .inl ⟨rfl, hnot name hfind⟩
  | some o =>
    obtain ⟨w, hw, hget⟩ := hfound name o hfind
    exact .inr ⟨o, w, rfl, hget, hall _ (mem_of_find? hfind), Record.orMalformed_eq_ok.mp hw⟩

/-- An array of what is written is written. -/
theorem writes_array {os : List Outline} {ending : Ending} {vs : List Json}
    (hnext : ending.next = .ok ()) (h : List.Forall₂ Writes os vs) :
    Writes (.array os ending) (.array vs) where
  noRepeats := by
    refine noRepeats_array.mpr fun o ho => ?_
    obtain ⟨v, -, hv⟩ := exists_of_mem_right h.flip ho
    exact hv.noRepeats
  toJson := toJson_array_eq_ok.mpr
    ⟨vs, traverses_itemsToJson.ok_iff.mpr (h.imp fun _ _ hw => hw.toJson), hnext, rfl⟩

/-- What stands under the name of a member is written. -/
theorem WritesMembers.exists_of_mem {ms : List Member} {vs : Named Json} (h : WritesMembers ms vs)
    {m : Member} (hm : m ∈ ms) :
    ∃ name v, m.1 = .ok name ∧ vs.get? name = some v ∧ m.2.Writes v := by
  obtain ⟨written, o⟩ := m
  obtain ⟨name, rfl⟩ := h.named _ hm
  have hfind := find?_of_mem h.once hm
  obtain ⟨hnone, -⟩ | ⟨p, v, hp, hget, hv⟩ := h.under name
  · rw [hfind] at hnone
    cases hnone
  · rw [hfind] at hp
    cases hp
    exact ⟨name, v, rfl, hget, hv⟩

/-- An object of what is written is written. -/
theorem writes_object {ms : List Member} {ending : Ending} {vs : Named Json}
    (hnext : ending.next = .ok ()) (h : WritesMembers ms vs) :
    Writes (.object ms ending) (.object vs) where
  noRepeats := by
    refine noRepeats_object.mpr ⟨h.once, fun m hm => ?_⟩
    obtain ⟨name, v, -, -, hv⟩ := h.exists_of_mem hm
    exact hv.noRepeats
  toJson := by
    have hmembers : Decoder.anything.members [] ms ending = .ok vs := by
      refine (Decoder.members_eq_ok h.once Named.ascending_nil).mpr
        ⟨h.named, hnext, h.ascending, fun name o ho => ?_, fun name hnone => ?_⟩
      · obtain ⟨hnone, -⟩ | ⟨p, v, hp, hget, hv⟩ := h.under name
        · rw [ho] at hnone
          cases hnone
        · rw [ho] at hp
          cases hp
          exact ⟨v, Record.orMalformed_eq_ok.mpr hv.toJson, hget⟩
      · obtain ⟨-, hget⟩ | ⟨p, v, hp, -, -⟩ := h.under name
        · exact hget
        · rw [hnone] at hp
          cases hp
    exact toJson_object_eq_ok.mpr ⟨vs, (members_anything.mp hmembers).1, hnext, rfl⟩

/-- Where nothing stands in a value, it is the outline of what it writes. -/
theorem Writes.leaf {o : Outline} {v : Json} (h : o.Writes v) (hleaf : o.isLeaf = true) :
    ofJson v = o := by
  have hwrites := h.toJson
  cases o <;> cases hleaf <;> cases hwrites <;> rfl

theorem Writes.eq_null_iff {o : Outline} {v : Json} (h : o.Writes v) :
    o = .null ↔ ofJson v = .null := by
  cases o with
  | array os ending =>
    obtain ⟨vs, rfl, -⟩ := h.array
    constructor <;> intro h <;> cases h
  | object ms ending =>
    obtain ⟨vs, rfl, -⟩ := h.object
    constructor <;> intro h <;> cases h
  | _ => rw [h.leaf rfl]

/-! ## Passing over and reading ahead -/

theorem skipItems_eq_ok {os : List Outline} (h : ∀ o ∈ os, o.skip = .ok ()) :
    skipItems os = .ok () := by
  induction os with
  | nil => rw [skipItems]
  | cons o rest ih =>
    rw [skipItems, h o List.mem_cons_self]
    exact ih fun p hp => h p (List.mem_cons_of_mem o hp)

theorem skipMembers_eq_ok {ms : List Member} (h : ∀ m ∈ ms, m.2.skip = .ok ()) :
    skipMembers ms = .ok () := by
  induction ms with
  | nil => rw [skipMembers]
  | cons m rest ih =>
    obtain ⟨written, o⟩ := m
    have ho : o.skip = .ok () := h (written, o) List.mem_cons_self
    rw [skipMembers, ho]
    exact ih fun n hn => h n (List.mem_cons_of_mem _ hn)

theorem skip_of_next {ending : Ending} (h : ending.next = .ok ()) : ending.skip = .ok () := by
  cases ending with
  | broken fault finish => cases h
  | _ => rfl

/-- What can be read can be passed over. -/
theorem Writes.skip {o : Outline} {v : Json} (h : o.Writes v) : o.skip = .ok () := by
  induction o using inductionOn generalizing v with
  | leaf o hleaf =>
    have hwrites := h.toJson
    cases o <;> cases hleaf <;> cases hwrites <;> rw [Outline.skip] <;> simp
  | array os ending ih =>
    obtain ⟨vs, -, hnext, hall⟩ := h.array
    rw [Outline.skip, skipItems_eq_ok]
    · exact skip_of_next hnext
    · intro o ho
      obtain ⟨w, -, hw⟩ := exists_of_mem_right hall.flip ho
      exact ih o ho hw
  | object ms ending ih =>
    obtain ⟨vs, -, hnext, hall⟩ := h.object
    rw [Outline.skip, skipMembers_eq_ok]
    · exact skip_of_next hnext
    · intro m hm
      obtain ⟨name, w, -, -, hw⟩ := hall.exists_of_mem hm
      exact ih m hm hw

/-- What is written is written by the outline of the value. -/
theorem Writes.ofJson {o : Outline} {v : Json} (h : o.Writes v) : (ofJson v).Writes v := by
  induction o using inductionOn generalizing v with
  | leaf o hleaf => rwa [h.leaf hleaf]
  | array os ending ih =>
    obtain ⟨vs, rfl, -, hall⟩ := h.array
    rw [Outline.ofJson, itemsOfJson_eq_map]
    refine writes_array rfl ?_
    rw [List.forall₂_map_left_iff, List.forall₂_same]
    intro v hv
    obtain ⟨o, ho, hw⟩ := exists_of_mem_right hall hv
    exact ih o ho hw
  | object ms ending ih =>
    obtain ⟨vs, rfl, -, hall⟩ := h.object
    rw [Outline.ofJson]
    refine writes_object rfl ⟨namesOnce_membersOfJson hall.ascending, named_membersOfJson vs,
      hall.ascending, fun name => ?_⟩
    rw [find?_membersOfJson]
    obtain ⟨-, hget⟩ | ⟨o, v, ho, hget, hv⟩ := hall.under name
    · exact .inl ⟨by rw [hget]; rfl, hget⟩
    · exact .inr ⟨_, v, by rw [hget]; rfl, hget, ih _ (mem_of_find? ho) hv⟩

/-- Elements are read ahead one by one. -/
theorem bufferedItems_eq_ok {os : List Outline} {vs : List Json} (h : List.Forall₂ Writes os vs)
    (hread : ∀ o ∈ os, ∀ v, o.Writes v → ∃ p, o.buffered = .ok p ∧ p.Writes v) :
    ∃ ps, bufferedItems os = .ok ps ∧ List.Forall₂ Writes ps vs := by
  induction h with
  | nil => exact ⟨[], by rw [bufferedItems], .nil⟩
  | cons hv _ ih =>
    obtain ⟨hfirst, hread⟩ := List.forall_mem_cons.mp hread
    obtain ⟨p, hp, hw⟩ := hfirst _ hv
    obtain ⟨ps, hps, hall⟩ := ih hread
    refine ⟨p :: ps, ?_, .cons hw hall⟩
    rw [bufferedItems, hp, hps]
    rfl

/-- Members are read ahead under the names they have. -/
theorem bufferedMembers_eq_ok {ms : List Member} (Q : Outline → Outline → Prop)
    (hnamed : ∀ m ∈ ms, ∃ name, m.1 = .ok name)
    (h : ∀ m ∈ ms, ∃ p, m.2.buffered = .ok p ∧ Q m.2 p) :
    ∃ ns, bufferedMembers ms = .ok ns ∧
      List.Forall₂ (fun m n : Member => n.1 = m.1 ∧ Q m.2 n.2) ms ns := by
  induction ms with
  | nil => exact ⟨[], by rw [bufferedMembers], .nil⟩
  | cons m rest ih =>
    obtain ⟨written, o⟩ := m
    obtain ⟨⟨name, hname⟩, hnamed⟩ := List.forall_mem_cons.mp hnamed
    obtain ⟨⟨p, hp, hQ⟩, hrest⟩ := List.forall_mem_cons.mp h
    obtain ⟨ns, hns, hall⟩ := ih hnamed hrest
    cases hname
    refine ⟨(.ok name, p) :: ns, ?_, .cons ⟨rfl, hQ⟩ hall⟩
    rw [bufferedMembers, show o.buffered = .ok p from hp, hns]
    rfl

/-- Opposite members under the same names stand under the same names. -/
theorem find?_of_forall₂ (Q : Outline → Outline → Prop) {ms ns : List Member}
    (h : List.Forall₂ (fun m n : Member => n.1 = m.1 ∧ Q m.2 n.2) ms ns) (name : String) :
    (find? name ms = none ∧ find? name ns = none) ∨
      ∃ o p, find? name ms = some o ∧ find? name ns = some p ∧ Q o p := by
  induction h with
  | nil => exact .inl ⟨rfl, rfl⟩
  | @cons m n ms ns hmn _ ih =>
    obtain ⟨written, o⟩ := m
    obtain ⟨written', p⟩ := n
    obtain ⟨rfl, hQ⟩ := hmn
    cases written' with
    | error e => exact ih
    | ok other =>
      by_cases hname : name = other
      · subst hname
        exact .inr ⟨o, p, find?_cons_self _ _ _, find?_cons_self _ _ _, hQ⟩
      · rw [find?_cons_of_ne hname, find?_cons_of_ne hname]
        exact ih

/-- Members write what opposite ones under the same names do, if each writes what the other does. -/
theorem WritesMembers.of_forall₂ {ms ns : List Member} {vs : Named Json} (h : WritesMembers ms vs)
    (hopposite : List.Forall₂
      (fun m n : Member => n.1 = m.1 ∧ ∀ v, m.2.Writes v → n.2.Writes v) ms ns) :
    WritesMembers ns vs := by
  have hnames : ns.map Prod.fst = ms.map Prod.fst := by
    rw [← List.forall₂_eq_eq_eq, List.forall₂_map_left_iff, List.forall₂_map_right_iff]
    exact hopposite.flip.imp fun _ _ hmn => hmn.1
  refine ⟨?_, ?_, h.ascending, fun name => ?_⟩
  · rw [NamesOnce, hnames]
    exact h.once
  · intro n hn
    obtain ⟨m, hm, hmn, -⟩ := exists_of_mem_right hopposite hn
    rw [hmn]
    exact h.named m hm
  · obtain ⟨hnone, hnone'⟩ | ⟨o, p, ho, hp, hwrites⟩ := find?_of_forall₂
        (fun o p => ∀ v, o.Writes v → p.Writes v) hopposite name
    · obtain ⟨-, hget⟩ | ⟨o, v, ho, -, -⟩ := h.under name
      · exact .inl ⟨hnone', hget⟩
      · rw [hnone] at ho
        cases ho
    · obtain ⟨hnone, -⟩ | ⟨o', v, ho', hget, hv⟩ := h.under name
      · rw [ho] at hnone
        cases hnone
      · rw [ho] at ho'
        cases ho'
        exact .inr ⟨p, v, hp, hget, hwrites v hv⟩

/-- What is read ahead writes the same value. -/
theorem Writes.buffered {o : Outline} {v : Json} (h : o.Writes v) :
    ∃ p, o.buffered = .ok p ∧ p.Writes v := by
  induction o using inductionOn generalizing v with
  | leaf o hleaf =>
    refine ⟨o, ?_, h⟩
    have hwrites := h.toJson
    cases o <;> cases hleaf <;> cases hwrites <;> rw [Outline.buffered] <;> simp
  | array os ending ih =>
    obtain ⟨vs, rfl, hnext, hall⟩ := h.array
    obtain ⟨ps, hps, hwrites⟩ := bufferedItems_eq_ok hall fun o ho v hv => ih o ho hv
    refine ⟨.array ps .complete, ?_, writes_array rfl hwrites⟩
    rw [Outline.buffered, hps]
    show (ending.next >>= fun _ => _) = _
    rw [hnext]
    rfl
  | object ms ending ih =>
    obtain ⟨vs, rfl, hnext, hall⟩ := h.object
    have hread : ∀ m ∈ ms, ∃ p, m.2.buffered = .ok p ∧ ∀ w, m.2.Writes w → p.Writes w := by
      intro m hm
      obtain ⟨name, w, -, -, hw⟩ := hall.exists_of_mem hm
      obtain ⟨p, hp, hwrites⟩ := ih m hm hw
      refine ⟨p, hp, fun w' hw' => ?_⟩
      cases hw.toJson.symm.trans hw'.toJson
      exact hwrites
    obtain ⟨ns, hns, hopposite⟩ :=
      bufferedMembers_eq_ok (fun o p => ∀ w, o.Writes w → p.Writes w) hall.named hread
    refine ⟨.object ns .complete, ?_, writes_object rfl (hall.of_forall₂ hopposite)⟩
    rw [Outline.buffered, hns]
    show (ending.next >>= fun _ => _) = _
    rw [hnext]
    rfl

end Quarry.Json.Outline
