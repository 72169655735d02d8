/-
# Entries of objects

The members of an object are read in turn, and of those of one name the last is kept.

* `Named.ofList_eq_singleton` — one thing is left just if all were put under its name.
* `Decoder.members_eq_foldl` — members are read one after another, whether names repeat or not.
* `Writes.of_object` — what writes an object. `writes_outline` — the text of a value writes it.
* `feed_not_mem_quotedChars` — a printed string stands on one line.
-/
import Mathlib.Data.List.Induction
import Quarry.Proofs.Json.Agreement
import Quarry.Proofs.Json.ReadBack

namespace Quarry

open Quarry.Outcome

/-! ## Members of one name -/

namespace Named

variable {α : Type} {name : String} {a : α}

theorem ofList_concat (entries : List (String × α)) (e : String × α) :
    ofList (entries ++ [e]) = insert e.1 e.2 (ofList entries) := List.foldl_concat ..

/-- Something stands under every name under which something was put. -/
theorem exists_get?_ofList {entries : List (String × α)} {e : String × α} (h : e ∈ entries) :
    ∃ b, get? e.1 (ofList entries) = some b := by
  induction entries using List.reverseRecOn with
  | nil => cases h
  | append_singleton entries last ih =>
    rw [ofList_concat]
    by_cases hname : e.1 = last.1
    · rw [hname]
      exact ⟨last.2, get?_insert_self _ _ _⟩
    · rw [get?_insert_of_ne hname]
      refine ih ((List.mem_append.mp h).resolve_right fun hlast => hname ?_)
      rw [List.mem_singleton.mp hlast]

/-- One thing is left just if all were put under its name, and it was the last. -/
theorem ofList_eq_singleton {entries : List (String × α)} :
    ofList entries = [(name, a)] ↔
      (∀ e ∈ entries, e.1 = name) ∧ entries.getLast? = some (name, a) := by
  constructor
  · intro h
    have hnames : ∀ e ∈ entries, e.1 = name := by
      intro e he
      obtain ⟨b, hb⟩ := exists_get?_ofList he
      rw [h] at hb
      exact congrArg Prod.fst (List.mem_singleton.mp (mem_of_get? hb))
    refine ⟨hnames, ?_⟩
    rcases List.eq_nil_or_concat' entries with rfl | ⟨init, ⟨key, b⟩, rfl⟩
    · cases h
    · obtain rfl : key = name := hnames (key, b) (List.mem_append_right _ List.mem_cons_self)
      have hget := get?_insert_self key b (ofList init)
      rw [ofList_concat] at h
      rw [h, get?_cons_self] at hget
      cases hget
      exact List.getLast?_concat
  · rintro ⟨hnames, hlast⟩
    obtain ⟨init, rfl⟩ := List.getLast?_eq_some_iff.mp hlast
    refine ext_of_get? (ascending_ofList _) (List.pairwise_singleton _ _) fun key => ?_
    rw [ofList_concat]
    by_cases hkey : key = name
    · rw [hkey, get?_insert_self, get?_cons_self]
    · rw [get?_insert_of_ne hkey, get?, if_neg hkey, get?]
      refine get?_eq_none fun hmem => hkey ?_
      obtain ⟨e, he, rfl⟩ := List.mem_map.mp hmem
      exact hnames e (List.mem_append_left _ (mem_of_mem_ofList he))

end Named

namespace Json

variable {α : Type} {d : Decoder α}

/-- A member has a name, and what stands under it is read. -/
def Decoder.ReadsMember (d : Decoder α) (m : Member) (e : String × α) : Prop :=
  m.1 = .ok e.1 ∧ d m.2 = .ok e.2

/-- Members are read one after another and put under their names. -/
theorem Decoder.members_eq_foldl {ms : List Member} {ending : Ending} {done l : Named α} :
    d.members done ms ending = .ok l ↔ ending.next = .ok () ∧
      ∃ entries, List.Forall₂ d.ReadsMember ms entries ∧
        entries.foldl (fun named (name, a) => named.insert name a) done = l := by
  induction ms generalizing done with
  | nil =>
    rw [Decoder.members, map_eq_ok]
    constructor
    · rintro ⟨⟨⟩, hnext, rfl⟩
      exact ⟨Record.orMalformed_eq_ok.mp hnext, [], .nil, rfl⟩
    · rintro ⟨hnext, entries, hentries, rfl⟩
      cases hentries
      exact ⟨(), Record.orMalformed_eq_ok.mpr hnext, rfl⟩
  | cons m rest ih =>
    obtain ⟨written, o⟩ := m
    rw [Decoder.members]
    simp only [bind_eq_ok, Record.orMalformed_eq_ok, ih]
    constructor
    · rintro ⟨name, hname, a, ha, hnext, entries, hentries, hl⟩
      exact ⟨hnext, (name, a) :: entries, .cons ⟨hname, ha⟩ hentries, hl⟩
    · rintro ⟨hnext, _, hentries, hl⟩
      cases hentries with
      | @cons _ e _ entries hfirst hrest =>
        exact ⟨e.1, hfirst.1, e.2, hfirst.2, hnext, entries, hrest, hl⟩

theorem decodeText_eq_ok {bs : List UInt8} {a : α} :
    decodeText d bs = .ok a ↔ d (scan bs).outline = .ok a ∧ (scan bs).trailing = false := by
  rw [decodeText, bind_eq_ok]
  cases (scan bs).trailing with
  | true =>
    refine iff_of_false ?_ ?_
    · rintro ⟨_, -, h⟩
      cases h
    · rintro ⟨-, h⟩
      cases h
  | false =>
    constructor
    · rintro ⟨b, hb, h⟩
      cases h
      exact ⟨hb, rfl⟩
    · rintro ⟨ha, -⟩
      exact ⟨a, ha, rfl⟩

/-- What writes an object is one, whose members write those of the object. -/
theorem Outline.Writes.of_object {o : Outline} {vs : Named Json} (h : o.Writes (.object vs)) :
    ∃ ms ending, o = .object ms ending ∧ ending.next = .ok () ∧ WritesMembers ms vs := by
  cases o with
  | array os ending =>
    obtain ⟨_, heq, -⟩ := h.array
    cases heq
  | object ms ending =>
    obtain ⟨_, heq, hnext, hall⟩ := h.object
    cases heq
    exact ⟨ms, ending, rfl, hnext, hall⟩
  | _ => cases h.leaf rfl

/-! ## Texts of values -/

theorem itemsOutline_eq_map (items : List Json) : itemsOutline items = items.map outline := by
  induction items with
  | nil => rfl
  | cons v rest ih => rw [itemsOutline, ih, List.map_cons]

theorem membersOutline_eq_map (members : List (String × Json)) :
    membersOutline members = members.map fun m => (.ok m.1, m.2.outline) := by
  induction members with
  | nil => rfl
  | cons m rest ih =>
    obtain ⟨name, v⟩ := m
    rw [membersOutline, ih, List.map_cons]

/-- The text of a value repeats no name. -/
theorem noRepeats_outline {v : Json} (h : v.Valid) : v.outline.NoRepeats := by
  induction h with
  | array items h ih =>
    rw [outline, itemsOutline_eq_map, Outline.noRepeats_array]
    exact List.forall_mem_map.mpr ih
  | object members hnames h ih =>
    rw [outline, membersOutline_eq_map, Outline.noRepeats_object]
    refine ⟨?_, List.forall_mem_map.mpr ih⟩
    rw [Outline.NamesOnce, List.map_map]
    refine List.pairwise_map.mpr (hnames.imp ?_)
    intro m n hlt heq
    exact hlt.ne (Except.ok.inj heq)
  | _ => trivial

/-- The text of a value writes the value. -/
theorem writes_outline {v : Json} (h : v.Valid) : v.outline.Writes v :=
  ⟨noRepeats_outline h, toJson_outline h⟩

/-- No line ends inside a string as it is printed. -/
theorem feed_not_mem_quotedChars (s : String) : '\n' ∉ quotedChars s := by
  have hescape : ∀ c, '\n' ∉ escapeChar c := by
    intro c
    have hescaped := escaped_escapeChar c
    generalize escapeChar c = cs at hescaped
    have hdigits : ∀ n < 16, '\n' ≠ n.digitChar := by decide
    cases hescaped with
    | letter x code h _ _ _ _ _ =>
      have hx : '\n' ≠ x := by
        rintro rfl
        cases h
      simp [hx]
    | code h => simp [hdigits (c.toNat / 16) (by omega), hdigits (c.toNat % 16) (by omega)]
    | itself hmark hslash h =>
      have hc : '\n' ≠ c := by
        rintro rfl
        exact absurd h (by decide)
      simp [hc]
  simp [quotedChars, hescape]

end Json

end Quarry
