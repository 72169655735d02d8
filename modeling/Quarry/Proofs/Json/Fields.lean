/-
# Records by their fields

What is read from an object depends on what stands under each name, not on the order in which the
members stand.

* `Outline.find?` — what stands under a name. `Outline.NamesOnce` — no name twice.
* `Record.Independent` — the fields of a record can be read in any order.
* `Record.readFields` — a record read field by field. `Independent.ofMembers_eq_ok` — that is how it
  is read from members, in whatever order they stand.
* `Decoder.members_eq_ok` — things read by name are those under the names.
-/
import Mathlib.Data.List.Pairwise
import Quarry.Json.Decode
import Quarry.Proofs.Json.Named
import Quarry.Proofs.Outcome

namespace Quarry.Json

open Quarry.Outcome

/-! ## What stands under a name -/

/-- A member of an object as it was scanned. -/
abbrev Member := Except Malformed String × Outline

namespace Outline

/-- What stands under a name. -/
def find? (name : String) : List Member → Option Outline
  | [] => none
  | (.ok other, o) :: rest => if name = other then some o else find? name rest
  | (.error _, _) :: rest => find? name rest

/-- No name stands twice. -/
def NamesOnce (ms : List Member) : Prop := (ms.map Prod.fst).Nodup

variable {name other : String} {o : Outline} {ms rest : List Member}

theorem find?_cons_self (name : String) (o : Outline) (rest : List Member) :
    find? name ((.ok name, o) :: rest) = some o := if_pos rfl

theorem find?_cons_of_ne (h : other ≠ name) (o : Outline) (rest : List Member) :
    find? other ((.ok name, o) :: rest) = find? other rest := if_neg h

/-- What stands under a name is there. -/
theorem mem_of_find? (h : find? name ms = some o) : (.ok name, o) ∈ ms := by
  induction ms with
  | nil => cases h
  | cons m rest ih =>
    obtain ⟨written, p⟩ := m
    cases written with
    | error e => exact List.mem_cons_of_mem _ (ih h)
    | ok other =>
      rw [find?] at h
      split_ifs at h with hname
      · cases h
        rw [hname]
        exact List.mem_cons_self
      · exact List.mem_cons_of_mem _ (ih h)

theorem find?_eq_none (h : .ok name ∉ ms.map Prod.fst) : find? name ms = none := by
  rw [Option.eq_none_iff_forall_ne_some]
  intro o ho
  exact h (List.mem_map_of_mem (mem_of_find? ho))

/-- Where no name stands twice, each member is what stands under its name. -/
theorem find?_of_mem (hms : NamesOnce ms) (h : (.ok name, o) ∈ ms) : find? name ms = some o := by
  induction ms with
  | nil => cases h
  | cons m rest ih =>
    obtain ⟨hfirst, hrest⟩ := List.nodup_cons.mp hms
    rcases List.mem_cons.mp h with rfl | hmem
    · exact find?_cons_self name o rest
    · obtain ⟨written, p⟩ := m
      cases written with
      | error e => exact ih hrest hmem
      | ok other =>
        have hne : name ≠ other := by
          rintro rfl
          exact hfirst (List.mem_map.mpr ⟨_, hmem, rfl⟩)
        rw [find?_cons_of_ne hne]
        exact ih hrest hmem

/-! ### Outlines of values -/

theorem find?_membersOfJson (name : String) (members : List (String × Json)) :
    find? name (membersOfJson members) = (Named.get? name members).map ofJson := by
  induction members with
  | nil => rfl
  | cons m rest ih =>
    obtain ⟨other, v⟩ := m
    rw [membersOfJson, find?, Named.get?, ih]
    split_ifs <;> rfl

theorem fst_membersOfJson (members : List (String × Json)) :
    (membersOfJson members).map Prod.fst = members.map (.ok ·.1) := by
  induction members with
  | nil => rfl
  | cons m rest ih =>
    obtain ⟨name, v⟩ := m
    rw [membersOfJson, List.map_cons, ih, List.map_cons]

theorem named_membersOfJson (members : List (String × Json)) :
    ∀ m ∈ membersOfJson members, ∃ name, m.1 = .ok name := by
  intro m hm
  have hname : m.1 ∈ (membersOfJson members).map Prod.fst := List.mem_map_of_mem hm
  rw [fst_membersOfJson] at hname
  obtain ⟨n, -, hn⟩ := List.mem_map.mp hname
  exact ⟨n.1, hn.symm⟩

theorem itemsOfJson_eq_map (items : List Json) : itemsOfJson items = items.map ofJson := by
  induction items with
  | nil => rfl
  | cons v rest ih => rw [itemsOfJson, ih, List.map_cons]

theorem namesOnce_membersOfJson {members : Named Json} (h : members.Ascending) :
    NamesOnce (membersOfJson members) := by
  rw [NamesOnce, fst_membersOfJson]
  refine List.pairwise_map.mpr (h.imp ?_)
  intro a b hab heq
  exact (ne_of_lt hab) (Except.ok.inj heq)

end Outline

open Outline

/-! ## Records -/

namespace Record

variable {ρ : Type} {r : Record ρ} {ms : List Member} {ending : Ending}

/-- Two fields can be read in either order. -/
def Commute (r : Record ρ) (m n : String) : Prop :=
  ∀ o p a c, (r.set m o a >>= r.set n p) = .ok c ↔ (r.set n p a >>= r.set m o) = .ok c

/-- The fields of a record can be read in any order. -/
structure Independent (r : Record ρ) : Prop where
  nodup : r.fields.Nodup
  required : r.required ⊆ r.fields
  commute : r.fields.Pairwise r.Commute

/-- Fields that are put into different parts of a record can be read in either order. -/
theorem commute_of_map {β γ : Type} {m n : String} {d : Decoder β} {e : Decoder γ}
    {f : ρ → β → ρ} {g : ρ → γ → ρ} (hm : ∀ o a, r.set m o a = (d o).map (f a))
    (hn : ∀ o a, r.set n o a = (e o).map (g a))
    (hput : ∀ a v w, g (f a v) w = f (g a w) v) : r.Commute m n := by
  intro o p a c
  have hleft : (r.set m o a >>= r.set n p) = .ok c ↔
      ∃ v w, d o = .ok v ∧ e p = .ok w ∧ g (f a v) w = c := by
    simp only [bind_eq_ok, hm, hn, map_eq_ok]
    constructor
    · rintro ⟨_, ⟨v, hv, rfl⟩, w, hw, hc⟩
      exact ⟨v, w, hv, hw, hc⟩
    · rintro ⟨v, w, hv, hw, hc⟩
      exact ⟨_, ⟨v, hv, rfl⟩, w, hw, hc⟩
  have hright : (r.set n p a >>= r.set m o) = .ok c ↔
      ∃ v w, d o = .ok v ∧ e p = .ok w ∧ f (g a w) v = c := by
    simp only [bind_eq_ok, hm, hn, map_eq_ok]
    constructor
    · rintro ⟨_, ⟨w, hw, rfl⟩, v, hv, hc⟩
      exact ⟨v, w, hv, hw, hc⟩
    · rintro ⟨v, w, hv, hw, hc⟩
      exact ⟨_, ⟨w, hw, rfl⟩, v, hv, hc⟩
  rw [hleft, hright]
  simp only [hput]

theorem Independent.commutes (h : r.Independent) {m n : String} (hm : m ∈ r.fields)
    (hn : n ∈ r.fields) (hne : m ≠ n) : r.Commute m n :=
  have : Std.Symm r.Commute := ⟨fun _ _ hmn o p a c => (hmn p o a c).symm⟩
  h.commute.forall hm hn hne

/-- Reads a field from what stands under its name, if anything does. -/
def readField (r : Record ρ) (name : String) : Option Outline → ρ → Except DecodeError ρ
  | none, a => .ok a
  | some o, a => r.set name o a

/-- Reads fields in turn from what stands under their names. -/
def readFields (r : Record ρ) (find : String → Option Outline) :
    List String → ρ → Except DecodeError ρ
  | [], a => .ok a
  | name :: names, a => do
    let a ← r.readField name (find name) a
    readFields r find names a

/-- Fields under whose names nothing stands leave the record as it is. -/
theorem readFields_none (names : List String) (a : ρ) :
    r.readFields (fun _ => none) names a = .ok a := by
  induction names with
  | nil => rfl
  | cons name names ih => exact ih

theorem readFields_congr {find find' : String → Option Outline} {names : List String} (a : ρ)
    (h : ∀ name ∈ names, find name = find' name) :
    r.readFields find names a = r.readFields find' names a := by
  induction names generalizing a with
  | nil => rfl
  | cons name names ih =>
    rw [readFields, readFields, h name List.mem_cons_self]
    congr 1
    funext b
    exact ih b fun n hn => h n (List.mem_cons_of_mem _ hn)

/-- A field that is read in its turn can be read before all others. -/
theorem Independent.readFields_first (h : r.Independent) {name : String} (hname : name ∈ r.fields)
    (o : Outline) {find find' : String → Option Outline} (hself : find' name = some o)
    (habsent : find name = none) (hother : ∀ n, n ≠ name → find' n = find n) {names : List String}
    (hnodup : names.Nodup) (hsub : names ⊆ r.fields) (hmem : name ∈ names) {a c : ρ} :
    r.readFields find' names a = .ok c ↔
      ∃ b, r.set name o a = .ok b ∧ r.readFields find names b = .ok c := by
  induction names generalizing a with
  | nil => cases hmem
  | cons n names ih =>
    obtain ⟨hfirst, hnodup⟩ := List.nodup_cons.mp hnodup
    rw [readFields, bind_eq_ok]
    by_cases hn : n = name
    · subst hn
      rw [hself]
      simp only [readFields, habsent, readField]
      refine exists_congr fun b => and_congr_right fun _ => ?_
      rw [readFields_congr b fun m hm => hother m (ne_of_mem_of_not_mem hm hfirst)]
      rfl
    · have hrest : name ∈ names := (List.mem_cons.mp hmem).resolve_left (Ne.symm hn)
      have hn' : n ∈ r.fields := hsub List.mem_cons_self
      have ih' := fun a => ih (a := a) hnodup (fun m hm => hsub (List.mem_cons_of_mem _ hm)) hrest
      rw [hother n hn]
      simp only [ih', readFields, bind_eq_ok]
      cases find n with
      | none => simp [readField]
      | some p =>
        -- The field before it and the field itself change places.
        constructor
        · rintro ⟨a₁, h₁, b, hb, hc⟩
          obtain ⟨b₁, hb₁, hb⟩ := bind_eq_ok.mp
            ((h.commutes hn' hname hn p o a b).mp (bind_eq_ok.mpr ⟨a₁, h₁, hb⟩))
          exact ⟨b₁, hb₁, b, hb, hc⟩
        · rintro ⟨b₁, hb₁, b, hb, hc⟩
          obtain ⟨a₁, h₁, hb⟩ := bind_eq_ok.mp
            ((h.commutes hn' hname hn p o a b).mpr (bind_eq_ok.mpr ⟨b₁, hb₁, hb⟩))
          exact ⟨a₁, h₁, b, hb, hc⟩

theorem checkRequired_eq_ok {seen names : List String} :
    checkRequired seen names = .ok () ↔ ∀ name ∈ names, name ∈ seen := by
  induction names with
  | nil => simp [checkRequired]
  | cons name names ih =>
    rw [checkRequired, List.forall_mem_cons, ← ih]
    by_cases h : name ∈ seen <;> simp [h]

theorem orMalformed_eq_ok {α : Type} {x : Except Malformed α} {a : α} :
    orMalformed x = .ok a ↔ x = .ok a := mapError_eq_ok

/-- A member of a field that was not seen yet is read into the record. -/
theorem ofMembers_cons_known {name : String} (hknown : name ∈ r.fields) {seen : List String}
    (hnew : name ∉ seen) (o : Outline) (rest : List Member) (a : ρ) :
    r.ofMembers a seen ((.ok name, o) :: rest) ending =
      (r.set name o a >>= fun a => r.ofMembers a (name :: seen) rest ending) := by
  show (if r.fields.contains name = true then _ else _) = _
  rw [if_pos (List.contains_iff_mem.mpr hknown)]
  show (if seen.contains name = true then _ else _) = _
  rw [if_neg fun h => hnew (List.contains_iff_mem.mp h)]

/-- A member of no field is passed over. -/
theorem ofMembers_cons_unknown {name : String} (hunknown : name ∉ r.fields) (seen : List String)
    (o : Outline) (rest : List Member) (a : ρ) :
    r.ofMembers a seen ((.ok name, o) :: rest) ending =
      (orMalformed o.skip >>= fun _ => r.ofMembers a seen rest ending) := by
  show (if r.fields.contains name = true then _ else _) = _
  rw [if_neg fun h => hunknown (List.contains_iff_mem.mp h)]

/-- The form of members from which a record can be read: names that can be read, and unknown members
that can be passed over. -/
def CanBePassed (r : Record ρ) (ms : List Member) : Prop :=
  ∀ m ∈ ms, ∃ name, m.1 = .ok name ∧ (name ∉ r.fields → m.2.skip = .ok ())

/-- What is read from members: they can be passed over, every required field is among them or was
seen before, and the fields are read in turn. -/
def ReadFrom (r : Record ρ) (seen : List String) (ms : List Member) (ending : Ending) (a b : ρ) :
    Prop :=
  r.CanBePassed ms ∧ ending.next = .ok () ∧
    (∀ name ∈ r.required, name ∈ seen ∨ ∃ o, find? name ms = some o) ∧
    r.readFields (find? · ms) r.fields a = .ok b

section

variable {name : String} {o : Outline} {rest : List Member} {seen : List String} {a b : ρ}

theorem canBePassed_cons : r.CanBePassed ((.ok name, o) :: rest) ↔
    (name ∉ r.fields → o.skip = .ok ()) ∧ r.CanBePassed rest := by
  rw [CanBePassed, List.forall_mem_cons, ← CanBePassed]
  refine and_congr_left fun _ => ?_
  constructor
  · rintro ⟨n, hn, hskip⟩
    cases hn
    exact hskip
  · exact fun hskip => ⟨name, rfl, hskip⟩

/-- The first member is read before the others if it is one of a field. -/
theorem Independent.readFrom_cons_known (h : r.Independent) (hknown : name ∈ r.fields)
    (hfirst : .ok name ∉ rest.map Prod.fst) :
    r.ReadFrom seen ((.ok name, o) :: rest) ending a b ↔
      ∃ c, r.set name o a = .ok c ∧ r.ReadFrom (name :: seen) rest ending c b := by
  have hother : ∀ n, n ≠ name → find? n ((.ok name, o) :: rest) = find? n rest :=
    fun n hn => find?_cons_of_ne hn o rest
  have hrequired : (∀ n ∈ r.required, n ∈ seen ∨ ∃ p, find? n ((.ok name, o) :: rest) = some p) ↔
      ∀ n ∈ r.required, n ∈ name :: seen ∨ ∃ p, find? n rest = some p := by
    refine forall₂_congr fun n _ => ?_
    by_cases hn : n = name
    · subst hn
      simp [find?_cons_self]
    · simp [hother n hn, hn]
  rw [ReadFrom, canBePassed_cons, hrequired, h.readFields_first hknown o
    (find?_cons_self name o rest) (find?_eq_none hfirst) hother h.nodup (List.Subset.refl _) hknown]
  constructor
  · rintro ⟨⟨-, hpassed⟩, hnext, hall, c, hc, hread⟩
    exact ⟨c, hc, hpassed, hnext, hall, hread⟩
  · rintro ⟨c, hc, hpassed, hnext, hall, hread⟩
    exact ⟨⟨fun hn => absurd hknown hn, hpassed⟩, hnext, hall, c, hc, hread⟩

/-- The first member is passed over if it is one of no field. -/
theorem Independent.readFrom_cons_unknown (h : r.Independent) (hunknown : name ∉ r.fields) :
    r.ReadFrom seen ((.ok name, o) :: rest) ending a b ↔
      o.skip = .ok () ∧ r.ReadFrom seen rest ending a b := by
  have hother : ∀ n ∈ r.fields, find? n ((.ok name, o) :: rest) = find? n rest :=
    fun n hn => find?_cons_of_ne (ne_of_mem_of_not_mem hn hunknown) o rest
  have hrequired : (∀ n ∈ r.required, n ∈ seen ∨ ∃ p, find? n ((.ok name, o) :: rest) = some p) ↔
      ∀ n ∈ r.required, n ∈ seen ∨ ∃ p, find? n rest = some p :=
    forall₂_congr fun n hn => by rw [hother n (h.required hn)]
  rw [ReadFrom, canBePassed_cons, hrequired, readFields_congr a hother, ReadFrom, and_assoc]
  exact and_congr_left fun _ => ⟨fun hskip => hskip hunknown, fun hskip _ => hskip⟩

end

/-- A record is read from members field by field, whatever their order. -/
theorem Independent.ofMembers_eq_ok (h : r.Independent) (hms : NamesOnce ms) {seen : List String}
    (hseen : ∀ name ∈ seen, .ok name ∉ ms.map Prod.fst) {a b : ρ} :
    r.ofMembers a seen ms ending = .ok b ↔ r.ReadFrom seen ms ending a b := by
  induction ms generalizing seen a with
  | nil =>
    rw [ReadFrom, show r.readFields (find? · []) r.fields a = .ok a from readFields_none r.fields a]
    constructor
    · intro hb
      obtain ⟨⟨⟩, hnext, hb⟩ := bind_eq_ok.mp hb
      obtain ⟨⟨⟩, hrequired, hb⟩ := bind_eq_ok.mp hb
      exact ⟨List.forall_mem_nil _, orMalformed_eq_ok.mp hnext,
        fun name hname => .inl (checkRequired_eq_ok.mp hrequired name hname), hb⟩
    · rintro ⟨-, hnext, hrequired, hb⟩
      refine bind_eq_ok.mpr ⟨(), orMalformed_eq_ok.mpr hnext, bind_eq_ok.mpr ⟨(), ?_, hb⟩⟩
      refine checkRequired_eq_ok.mpr fun name hname => (hrequired name hname).resolve_right ?_
      rintro ⟨o, ⟨⟩⟩
  | cons m rest ih =>
    obtain ⟨written, o⟩ := m
    obtain ⟨hfirst, hrest⟩ := List.nodup_cons.mp hms
    cases written with
    | error e =>
      -- A name that cannot be read is no member at all.
      refine iff_of_false (fun hb => by cases hb) fun hb => ?_
      obtain ⟨name, hname, -⟩ := hb.1 _ List.mem_cons_self
      cases hname
    | ok name =>
      have hnew : name ∉ seen := fun hin => hseen name hin List.mem_cons_self
      have hseen' : ∀ n ∈ seen, .ok n ∉ rest.map Prod.fst :=
        fun n hn hin => hseen n hn (List.mem_cons_of_mem _ hin)
      by_cases hknown : name ∈ r.fields
      · rw [ofMembers_cons_known hknown hnew, bind_eq_ok, h.readFrom_cons_known hknown hfirst]
        exact exists_congr fun c => and_congr_right fun _ =>
          ih hrest (List.forall_mem_cons.mpr ⟨hfirst, hseen'⟩)
      · rw [ofMembers_cons_unknown hknown, bind_eq_ok, h.readFrom_cons_unknown hknown,
          ← ih hrest hseen']
        constructor
        · rintro ⟨⟨⟩, hskip, hread⟩
          exact ⟨orMalformed_eq_ok.mp hskip, hread⟩
        · rintro ⟨hskip, hread⟩
          exact ⟨(), orMalformed_eq_ok.mpr hskip, hread⟩

end Record

/-! ## Things by name -/

namespace Decoder

variable {α : Type} {d : Decoder α} {ms : List Member} {ending : Ending}

/-- Members are put under their names, whatever their order. -/
theorem members_eq_ok (hms : NamesOnce ms) {done l : Named α} (hdone : done.Ascending) :
    d.members done ms ending = .ok l ↔
      (∀ m ∈ ms, ∃ name, m.1 = .ok name) ∧ ending.next = .ok () ∧ l.Ascending ∧
        (∀ name o, find? name ms = some o → ∃ a, d o = .ok a ∧ l.get? name = some a) ∧
        ∀ name, find? name ms = none → l.get? name = done.get? name := by
  induction ms generalizing done with
  | nil =>
    rw [members, map_eq_ok]
    constructor
    · rintro ⟨⟨⟩, hnext, rfl⟩
      exact ⟨List.forall_mem_nil _, Record.orMalformed_eq_ok.mp hnext, hdone,
        fun name o ho => (by cases ho), fun name _ => rfl⟩
    · rintro ⟨-, hnext, hl, -, hget⟩
      exact ⟨(), Record.orMalformed_eq_ok.mpr hnext,
        Named.ext_of_get? hdone hl fun name => (hget name rfl).symm⟩
  | cons m rest ih =>
    obtain ⟨written, o⟩ := m
    obtain ⟨hfirst, hrest⟩ := List.nodup_cons.mp hms
    rw [members, List.forall_mem_cons]
    simp only [bind_eq_ok, Record.orMalformed_eq_ok]
    constructor
    · rintro ⟨name, rfl, a, ha, hl⟩
      obtain ⟨hnames, hnext, hl, hfound, hnot⟩ :=
        (ih hrest (Named.ascending_insert hdone name a)).mp hl
      refine ⟨⟨⟨name, rfl⟩, hnames⟩, hnext, hl, fun n p hp => ?_, fun n hn => ?_⟩
      · by_cases hname : n = name
        · subst hname
          rw [find?_cons_self] at hp
          cases hp
          exact ⟨a, ha, (hnot n (find?_eq_none hfirst)).trans (Named.get?_insert_self _ _ _)⟩
        · rw [find?_cons_of_ne hname] at hp
          exact hfound n p hp
      · by_cases hname : n = name
        · subst hname
          rw [find?_cons_self] at hn
          cases hn
        · rw [find?_cons_of_ne hname] at hn
          exact (hnot n hn).trans (Named.get?_insert_of_ne hname _ _)
    · rintro ⟨⟨⟨name, rfl⟩, hnames⟩, hnext, hl, hfound, hnot⟩
      obtain ⟨a, ha, hget⟩ := hfound name o (find?_cons_self name o rest)
      refine ⟨name, rfl, a, ha, (ih hrest (Named.ascending_insert hdone name a)).mpr
        ⟨hnames, hnext, hl, fun n p hp => ?_, fun n hn => ?_⟩⟩
      · refine hfound n p ?_
        rw [find?_cons_of_ne, hp]
        rintro rfl
        rw [find?_eq_none hfirst] at hp
        cases hp
      · by_cases hname : n = name
        · subst hname
          rw [hget, Named.get?_insert_self]
        · rw [Named.get?_insert_of_ne hname]
          exact hnot n ((find?_cons_of_ne hname o rest).trans hn)

end Decoder

end Quarry.Json
