/-
# Values as they are kept

A value keeps the members of its objects in the order of names, whatever their order was.

* `sorted` — a value as it is kept. `writes_sorted` — a kept value is written by its outline.
* `Decoder.Reads` — a decoder reads something from a kept value.
* `Record.Independent.reads_object` — a record is read from a kept object by what stands under the
  names of its fields.
-/
import Quarry.Proofs.Json.Agreement

namespace Quarry.Json

open Quarry.Outcome

/-! ## Kept values -/

mutual

/-- A value with the members of every object in the order of their names. -/
def sorted : Json → Json
  | .array items => .array (sortedItems items)
  | .object members => .object (Named.ofList (sortedMembers members))
  | v => v

/-- Values with the members of every object in the order of their names. -/
def sortedItems : List Json → List Json
  | [] => []
  | v :: rest => v.sorted :: sortedItems rest

/-- Members whose values have the members of every object in the order of their names. -/
def sortedMembers : List (String × Json) → List (String × Json)
  | [] => []
  | (name, v) :: rest => (name, v.sorted) :: sortedMembers rest

end

theorem sortedItems_eq_map (items : List Json) : sortedItems items = items.map sorted := by
  induction items with
  | nil => rfl
  | cons v rest ih => rw [sortedItems, ih, List.map_cons]

theorem get?_sortedMembers (name : String) (ms : List (String × Json)) :
    Named.get? name (sortedMembers ms) = (Named.get? name ms).map sorted := by
  induction ms with
  | nil => rfl
  | cons m rest ih =>
    obtain ⟨other, v⟩ := m
    rw [sortedMembers, Named.get?, Named.get?, ih]
    split_ifs <;> rfl

theorem fst_sortedMembers (ms : List (String × Json)) :
    (sortedMembers ms).map Prod.fst = ms.map Prod.fst := by
  induction ms with
  | nil => rfl
  | cons m rest ih =>
    obtain ⟨name, v⟩ := m
    rw [sortedMembers, List.map_cons, ih, List.map_cons]

theorem exists_of_mem_sortedMembers {ms : List (String × Json)} {name : String} {w : Json}
    (h : (name, w) ∈ sortedMembers ms) : ∃ v, (name, v) ∈ ms ∧ v.sorted = w := by
  induction ms with
  | nil => cases h
  | cons m rest ih =>
    obtain ⟨other, v⟩ := m
    rw [sortedMembers] at h
    rcases List.mem_cons.mp h with heq | h
    · cases heq
      exact ⟨v, List.mem_cons_self, rfl⟩
    · obtain ⟨u, hu, rfl⟩ := ih h
      exact ⟨u, List.mem_cons_of_mem _ hu, rfl⟩

/-- What stands under a name in a kept object is what stands there in the object. -/
theorem find?_kept {ms : List (String × Json)} (h : (ms.map Prod.fst).Nodup) (name : String) :
    Outline.find? name (Outline.membersOfJson (Named.ofList (sortedMembers ms))) =
      (Named.get? name ms).map fun v => .ofJson v.sorted := by
  rw [Outline.find?_membersOfJson, Named.get?_ofList (by rwa [fst_sortedMembers]),
    get?_sortedMembers, Option.map_map]
  rfl

theorem namesOnce_kept (ms : List (String × Json)) :
    Outline.NamesOnce (Outline.membersOfJson (Named.ofList (sortedMembers ms))) :=
  Outline.namesOnce_membersOfJson (Named.ascending_ofList _)

/-- A kept value is written by its outline. -/
theorem writes_sorted (v : Json) : (Outline.ofJson v.sorted).Writes v.sorted := by
  cases v with
  | array items =>
    rw [sorted, Outline.ofJson, Outline.itemsOfJson_eq_map]
    refine Outline.writes_array rfl ?_
    rw [List.forall₂_map_left_iff, List.forall₂_same, sortedItems_eq_map, List.forall_mem_map]
    exact fun v hv => writes_sorted v
  | object ms =>
    rw [sorted, Outline.ofJson]
    refine Outline.writes_object rfl ⟨namesOnce_kept ms, Outline.named_membersOfJson _,
      Named.ascending_ofList _, fun name => ?_⟩
    rw [Outline.find?_membersOfJson]
    -- Whatever is kept under the name is the kept form of a member, and so is smaller.
    cases hget : Named.get? name (Named.ofList (sortedMembers ms)) with
    | none => exact .inl ⟨rfl, rfl⟩
    | some w =>
      obtain ⟨v, hv, rfl⟩ := exists_of_mem_sortedMembers
        (Named.mem_of_mem_ofList (Named.mem_of_get? hget))
      exact .inr ⟨_, _, rfl, rfl, writes_sorted v⟩
  | null => exact ⟨trivial, rfl⟩
  | bool b => exact ⟨trivial, rfl⟩
  | number n => exact ⟨trivial, rfl⟩
  | string s => exact ⟨trivial, rfl⟩
termination_by sizeOf v
decreasing_by
  · have hlt : sizeOf v < sizeOf items := List.sizeOf_lt_of_mem hv
    simp only [Json.array.sizeOf_spec]
    omega
  · have hlt : sizeOf (name, v) < sizeOf ms := List.sizeOf_lt_of_mem hv
    simp only [Prod.mk.sizeOf_spec] at hlt
    simp only [Json.object.sizeOf_spec]
    omega

/-! ## Reading kept values -/

variable {α ρ : Type} {R : α → Json → Prop}

/-- A decoder reads something from a kept value. -/
def Decoder.Reads (d : Decoder α) (v : Json) (a : α) : Prop := d (.ofJson v.sorted) = .ok a

/-- A decoder reads something from what may be absent, and nothing if it is. -/
def Decoder.ReadsOptional (d : Decoder (Option α)) (w : Option Json) (x : Option α) : Prop :=
  (∀ v, w = some v → d.Reads v x) ∧ (w = none → x = none)

namespace Record

variable {r : Record ρ}

theorem readFields_cons {find : String → Option Outline} {name : String} {names : List String}
    {a b c : ρ} (hfirst : r.readField name (find name) a = .ok b)
    (hrest : r.readFields find names b = .ok c) : r.readFields find (name :: names) a = .ok c :=
  bind_eq_ok.mpr ⟨b, hfirst, hrest⟩

/-- What stands under a name of a kept object. -/
def kept (ms : List (String × Json)) (name : String) : Option Outline :=
  (Named.get? name ms).map fun v => .ofJson v.sorted

/-- A record is read from an object by what stands under the names of its fields. -/
theorem Independent.reads_object (h : r.Independent) {ms : List (String × Json)}
    (hms : (ms.map Prod.fst).Nodup)
    (hrequired : ∀ name ∈ r.required, ∃ v, Named.get? name ms = some v)
    {b : ρ} (hread : r.readFields (kept ms) r.fields r.start = .ok b) :
    Decoder.Reads r.decode (.object ms) b := by
  have hfind : ∀ name,
      Outline.find? name (Outline.membersOfJson (Named.ofList (sortedMembers ms))) =
        kept ms name := fun name => find?_kept hms name
  -- Members of no field are passed over because the kept object is well formed.
  obtain ⟨vs, hvs, -, hall⟩ := (writes_sorted (.object ms)).object
  cases hvs
  show r.ofMembers r.start [] (Outline.membersOfJson (Named.ofList (sortedMembers ms))) .complete =
    .ok b
  rw [h.ofMembers_eq_ok (namesOnce_kept ms) (List.forall_mem_nil _)]
  refine ⟨canBePassed_of_writes hall, rfl, fun name hname => .inr ?_, ?_⟩
  · obtain ⟨v, hv⟩ := hrequired name hname
    rw [hfind, kept, hv]
    exact ⟨_, rfl⟩
  · simp only [hfind]
    exact hread

/-- A field is read from what stands under its name. -/
theorem readField_of_get? {name : String} {ms : List (String × Json)} {v : Json} {a b : ρ}
    (hget : Named.get? name ms = some v) (hset : r.set name (.ofJson v.sorted) a = .ok b) :
    r.readField name (kept ms name) a = .ok b := by
  rw [kept, hget]
  exact hset

/-- A field is read from what stands under its name, and keeps its value without it. -/
theorem readField_of_reads {β : Type} {e : Decoder β} {f : β → ρ} {x : β} {name : String}
    {ms : List (String × Json)} {a : ρ} (hread : ∀ v, Named.get? name ms = some v → e.Reads v x)
    (habsent : Named.get? name ms = none → f x = a) (hset : ∀ o, r.set name o a = (e o).map f) :
    r.readField name (kept ms name) a = .ok (f x) := by
  cases hget : Named.get? name ms with
  | none =>
    rw [kept, hget, habsent hget]
    rfl
  | some v =>
    refine readField_of_get? hget ?_
    rw [hset, map_eq_ok]
    exact ⟨x, hread v hget, rfl⟩

/-- A field is read from what may be absent. -/
theorem readField_of_optional {β : Type} {e : Decoder (Option β)} {f : Option β → ρ}
    {x : Option β} {name : String} {ms : List (String × Json)} {a : ρ}
    (h : e.ReadsOptional (Named.get? name ms) x) (hset : ∀ o, r.set name o a = (e o).map f)
    (hnone : f none = a) : r.readField name (kept ms name) a = .ok (f x) := by
  refine readField_of_reads h.1 (fun hget => ?_) hset
  rw [h.2 hget, hnone]

end Record

end Quarry.Json
