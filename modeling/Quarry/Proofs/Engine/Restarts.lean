/-
# Templates over restarts

An engine that is opened on a store sets up the templates that the store keeps.

* `putTemplate_onTables`, `reloadTemplates_eq_ok` — runs of the activities with templates.
* `Reopens` — an engine opened on the same store has the same templates.
* `reopens_afterPuts` — so it is however templates were set up.
-/
import Quarry.Proofs.Engine.Registrations

namespace Quarry.Engine

open Quarry.Engine.Program (World)
open Quarry.Outcome Quarry.Store Quarry.Store.Tables Quarry.Template

/-! ## Runs -/

section

variable {w w' : World Tables} {name : String} {m : Mapping}

theorem onTables_register (name : String) (m : Mapping) (w : World Tables) :
    onTables (register name m) w =
      match w.registry.put name m with
      | .ok r => (.ok (), { w with registry := r })
      | .error e => (.error e, w) := run_register Tables.store name m w

/-- A template is refused if its pattern cannot be read; otherwise it takes its place in the
registry, and is kept. -/
theorem putTemplate_onTables (name : String) (r : TemplateRequest) (w : World Tables) :
    (¬ r.mapping.IsReadable ∧
      onTables (putTemplate name r) w = (.error (.template r.mapping.pattern), w)) ∨
    (r.mapping.IsReadable ∧ ∃ registry : Registry,
      registry.toList = replaceOrAppend name r.mapping w.registry.toList ∧
      onTables (putTemplate name r) w = (.ok r.mapping,
        ⟨{ w.store with templates := keep (rowOf name r.mapping) w.store.templates },
          registry⟩)) := by
  unfold onTables
  rw [putTemplate_run]
  cases hput : w.registry.put name r.mapping with
  | error e =>
    obtain ⟨hnot, rfl⟩ := Registry.put_eq_error.mp hput
    exact .inl ⟨hnot, rfl⟩
  | ok registry =>
    obtain ⟨hreadable, hlist⟩ := Registry.put_eq_ok.mp hput
    refine .inr ⟨hreadable, registry, hlist, ?_⟩
    simp only [perform_saveTemplate]

/-- Templates are set up if all their patterns can be read; each then takes its place. -/
theorem restoreTemplates_eq_ok {l : List (String × Mapping)} {u : Unit} :
    onTables (restoreTemplates l) w = (.ok u, w') ↔ (∀ e ∈ l, e.2.IsReadable) ∧
      w'.store = w.store ∧ w'.registry.toList = placed w.registry.toList l := by
  induction l generalizing w with
  | nil =>
    have hrun : onTables (restoreTemplates []) w = (.ok (), w) := rfl
    rw [hrun, Prod.mk.injEq, and_iff_right rfl, and_iff_right (List.forall_mem_nil _)]
    constructor
    · rintro rfl
      exact ⟨rfl, rfl⟩
    · rintro ⟨hstore, hlist⟩
      obtain ⟨store, registry⟩ := w
      obtain ⟨store', registry'⟩ := w'
      obtain rfl : store' = store := hstore
      obtain rfl : registry' = registry := Registry.ext_toList hlist
      rfl
  | cons e rest ih =>
    obtain ⟨name, m⟩ := e
    have hregister := onTables_register name m w
    unfold restoreTemplates
    cases hput : w.registry.put name m with
    | error e =>
      rw [hput] at hregister
      rw [onTables_bind_error hregister]
      constructor
      · intro h
        cases h
      · rintro ⟨hall, -⟩
        exact absurd (hall _ List.mem_cons_self) (Registry.put_eq_error.mp hput).1
    | ok registry =>
      obtain ⟨hreadable, hlist⟩ := Registry.put_eq_ok.mp hput
      rw [hput] at hregister
      rw [onTables_bind_ok hregister, ih, List.forall_mem_cons, and_iff_right hreadable, hlist]
      rfl

/-- An engine sets up the templates that are loaded, if all their patterns can be read. -/
theorem reloadTemplates_eq_ok {n : Nat} :
    onTables reloadTemplates w = (.ok n, w') ↔ ∃ l, w.store.loadTemplates = .ok l ∧
      (∀ e ∈ l, e.2.IsReadable) ∧ n = l.length ∧ w'.store = w.store ∧
      w'.registry.toList = placed w.registry.toList l := by
  have hcall : onTables (call .loadTemplates) w =
      (w.store.loadTemplates.mapError .storage, w) := rfl
  unfold reloadTemplates
  cases hload : w.store.loadTemplates with
  | error e =>
    rw [hload] at hcall
    rw [onTables_bind_error hcall]
    simp
  | ok l =>
    rw [hload] at hcall
    rw [onTables_bind_ok hcall]
    simp only [Except.ok.injEq, exists_eq_left']
    rw [onTables_bind]
    constructor
    · intro h
      cases hrestore : onTables (restoreTemplates l) w with
      | mk x v =>
        rw [hrestore] at h
        cases x with
        | error e => cases h
        | ok u =>
          cases h
          obtain ⟨hall, hstore, hlist⟩ := restoreTemplates_eq_ok.mp hrestore
          exact ⟨hall, rfl, hstore, hlist⟩
    · rintro ⟨hall, rfl, hstore, hlist⟩
      rw [restoreTemplates_eq_ok (u := ()).mpr ⟨hall, hstore, hlist⟩]
      rfl

end

/-! ## Restarts -/

/-- What an engine has that is opened on a store. -/
def Opens (t : Tables) (w : World Tables) : Prop :=
  ∃ n, onTables reloadTemplates { store := t } = (.ok n, w)

/-- An engine that is opened on the same store has the same templates in the same order, and the
same one applies to every index. -/
def Reopens (w : World Tables) : Prop :=
  ∃ w', Opens w.store w' ∧ w'.store = w.store ∧ w'.registry.toList = w.registry.toList ∧
    ∀ index, w'.registry.lookup index = w.registry.lookup index

/-- The registry holds what is loaded, each template in its place. -/
theorem reopens_iff {w : World Tables} : Reopens w ↔ ∃ l, w.store.loadTemplates = .ok l ∧
    (∀ e ∈ l, e.2.IsReadable) ∧ w.registry.toList = placed [] l := by
  constructor
  · rintro ⟨w', ⟨n, hreload⟩, -, hlist, -⟩
    obtain ⟨l, hload, hall, -, -, hplaced⟩ := reloadTemplates_eq_ok.mp hreload
    exact ⟨l, hload, hall, hlist.symm.trans hplaced⟩
  · rintro ⟨l, hload, hall, hplaced⟩
    exact ⟨w, ⟨l.length, reloadTemplates_eq_ok.mpr ⟨l, hload, hall, rfl, rfl, hplaced⟩⟩, rfl, rfl,
      fun _ => rfl⟩

/-- An engine that was opened can be opened again. -/
theorem Opens.reopens {t : Tables} {w : World Tables} (h : Opens t w) : Reopens w := by
  obtain ⟨n, h⟩ := h
  obtain ⟨l, hload, hall, -, hstore, hlist⟩ := reloadTemplates_eq_ok.mp h
  refine reopens_iff.mpr ⟨l, ?_, hall, hlist⟩
  rw [hstore]
  exact hload

/-- A request to set up a template leaves an engine that can be opened again. -/
theorem Reopens.putTemplate {w : World Tables} (h : Reopens w) {r : TemplateRequest}
    (hr : r.Ordered) (name : String) : Reopens (onTables (putTemplate name r) w).2 := by
  rcases putTemplate_onTables name r w with ⟨-, hrun⟩ | ⟨hreadable, registry, hlist, hrun⟩
  · rw [hrun]
    exact h
  · rw [hrun]
    obtain ⟨l, hload, hall, hplaced⟩ := reopens_iff.mp h
    refine reopens_iff.mpr ⟨_, loadTemplates_saved hload hr.mapping, ?_, ?_⟩
    · exact forall_mem_replaceAll hall hreadable
    · rw [placed_replaceAll, ← hplaced]
      exact hlist

/-- The tables and registry after some requests to set up templates. -/
def afterPuts (w : World Tables) (xs : List (String × TemplateRequest)) : World Tables :=
  xs.foldl (fun w x => (onTables (putTemplate x.1 x.2) w).2) w

/-- What the requests whose patterns can be read set up. -/
def accepted (xs : List (String × TemplateRequest)) : List (String × Mapping) :=
  (xs.map fun x => (x.1, x.2.mapping)).filter fun e => e.2.IsReadable

theorem accepted_cons (x : String × TemplateRequest) (rest : List (String × TemplateRequest)) :
    accepted (x :: rest) =
      if x.2.mapping.IsReadable then (x.1, x.2.mapping) :: accepted rest else accepted rest := by
  unfold accepted
  rw [List.map_cons, List.filter_cons]
  simp only [decide_eq_true_eq]

/-- So do several, one after another. -/
theorem reopens_of_puts {xs : List (String × TemplateRequest)} (hxs : ∀ x ∈ xs, x.2.Ordered)
    {w : World Tables} (h : Reopens w) : Reopens (afterPuts w xs) := by
  induction xs generalizing w with
  | nil => exact h
  | cons x rest ih =>
    obtain ⟨hx, hrest⟩ := List.forall_mem_cons.mp hxs
    exact ih hrest (h.putTemplate hx x.1)

/-- The registry holds what was set up, each template in its place. -/
theorem toList_afterPuts (w : World Tables) (xs : List (String × TemplateRequest)) :
    (afterPuts w xs).registry.toList = placed w.registry.toList (accepted xs) := by
  induction xs generalizing w with
  | nil => rfl
  | cons x rest ih =>
    have hafter : afterPuts w (x :: rest) = afterPuts (onTables (putTemplate x.1 x.2) w).2 rest :=
      rfl
    rw [hafter, ih, accepted_cons]
    rcases putTemplate_onTables x.1 x.2 w with ⟨hnot, hrun⟩ | ⟨hreadable, registry, hlist, hrun⟩
    · rw [hrun, if_neg hnot]
    · rw [hrun, if_pos hreadable, placed_cons]
      exact congrArg (placed · (accepted rest)) hlist

/-- An engine that was opened on a store, and one that is opened on it after requests to set up
templates, have the same ones: those that were there with those of the requests whose patterns can
be read, each in the place of one with its name, or behind the others. The other requests are
refused. -/
theorem reopens_afterPuts {t : Tables} {w : World Tables} (hopen : Opens t w)
    (xs : List (String × TemplateRequest)) (hxs : ∀ x ∈ xs, x.2.Ordered) :
    Reopens (afterPuts w xs) ∧
    (afterPuts w xs).registry.toList = placed w.registry.toList (accepted xs) ∧
    ∀ before x rest, xs = before ++ x :: rest →
      (onTables (putTemplate x.1 x.2) (afterPuts w before)).1.toOption =
        if x.2.mapping.IsReadable then some x.2.mapping else none := by
  refine ⟨reopens_of_puts hxs hopen.reopens, toList_afterPuts w xs, ?_⟩
  rintro before x rest -
  rcases putTemplate_onTables x.1 x.2 (afterPuts w before) with
    ⟨hnot, hrun⟩ | ⟨hreadable, registry, -, hrun⟩
  · rw [hrun, if_neg hnot]
    rfl
  · rw [hrun, if_pos hreadable]
    rfl

/-- Four requests, of which one has a pattern that cannot be read, and one a name that is there. -/
def exampleRequests : List (String × TemplateRequest) :=
  [("visits", ⟨"visits-*", [("at", ⟨"date", "epoch_second"⟩), ("who", ⟨"text", ""⟩)]⟩),
    ("broken", ⟨"[", []⟩), ("all", ⟨"*", [("at", ⟨"date", ""⟩)]⟩),
    ("visits", ⟨"visit*", [("seen", ⟨"date", "epoch_millis"⟩)]⟩)]

theorem reopens_afterPuts_example :
    (∃ w, Opens (afterPuts { store := {} } exampleRequests).store w ∧ w.registry.toList =
      [("visits", ⟨"visit.*", [("seen", "epoch_millis")]⟩), ("all", ⟨".*", [("at", "")]⟩)]) ∧
    (onTables (putTemplate "broken" ⟨"[", []⟩)
      (afterPuts { store := {} } (exampleRequests.take 1))).1.toOption = none := by
  have hopen : Opens {} { store := {} } := ⟨0, rfl⟩
  have hordered : ∀ x ∈ exampleRequests, x.2.Ordered := by decide
  obtain ⟨⟨w, hw, -, hlist, -⟩, hplaced, hanswers⟩ :=
    reopens_afterPuts hopen exampleRequests hordered
  have haccepted : placed [] (accepted exampleRequests) =
      [("visits", ⟨"visit.*", [("seen", "epoch_millis")]⟩), ("all", ⟨".*", [("at", "")]⟩)] := by
    decide +kernel
  refine ⟨⟨w, hw, (hlist.trans hplaced).trans haccepted⟩, ?_⟩
  rw [hanswers (exampleRequests.take 1) _ _ rfl, if_neg (by decide +kernel)]

end Quarry.Engine
