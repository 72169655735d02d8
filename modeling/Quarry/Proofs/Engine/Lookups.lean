/-
# The registry after any calls

A registry is an ordered map: a name keeps the place that it got first, and holds what was last set
up under it. The first template that applies to an index is the one that counts.

* `Setup` — a call that sets up a template. `afterSetups` — what some calls leave of no templates.
* `OrderedMap` — the templates of a registry are those that some calls set up.
* `LooksUpFirst` — the template of an index is the first that applies to it.
* `afterSetups_orderedMap` — both hold after any calls, of which some may fail.
-/
import Quarry.Proofs.Engine.Registrations
import Quarry.Proofs.Template.Kept

namespace Quarry

namespace Store

variable {α : Type}

/-- In a list with distinct names, what stands under a name is what is found there. -/
theorem mem_iff_lookup {l : List (String × α)} (h : (l.map Prod.fst).Nodup) {name : String}
    {a : α} : (name, a) ∈ l ↔ l.lookup name = some a := by
  induction l with
  | nil => simp
  | cons e rest ih =>
    obtain ⟨other, b⟩ := e
    obtain ⟨hfirst, hrest⟩ := List.nodup_cons.mp h
    rw [List.mem_cons, ih hrest, Prod.mk.injEq]
    by_cases hname : name = other
    · subst hname
      have hnone : rest.lookup name = none := lookup_eq_none.mpr hfirst
      simp [hnone, eq_comm]
    · simp [lookup_cons_of_ne hname, hname]

/-- In a list with distinct names, a thing takes the place of the one with its name. -/
theorem replaceOrAppend_of_split {before rest : List (String × α)} {name : String} {old : α}
    (h : name ∉ before.map Prod.fst) (a : α) :
    replaceOrAppend name a (before ++ (name, old) :: rest) = before ++ (name, a) :: rest := by
  induction before with
  | nil => rw [List.nil_append, replaceOrAppend, if_pos rfl, List.nil_append]
  | cons e before ih =>
    obtain ⟨hfirst, hbefore⟩ := not_or.mp (fun hmem => h (List.mem_cons.mpr hmem))
    rw [List.cons_append, replaceOrAppend, if_neg (Ne.symm hfirst), ih hbefore, List.cons_append]

end Store

namespace Template

/-- Whether the pattern of a mapping has a match in the name of an index. -/
def Mapping.appliesTo (m : Mapping) (index : String) : Bool :=
  (Regex.ofText? m.pattern).any fun regex => regex.isMatch index

namespace Registry

theorem applies_eq (t : Template) (index : String) :
    t.applies index = t.mapping.appliesTo index := by
  rw [Mapping.appliesTo, t.regex_eq]
  rfl

/-- Templates are looked up in the list. -/
theorem lookup_eq_find? (r : Registry) (index : String) :
    r.lookup index = (r.toList.find? fun e => e.2.appliesTo index).map Prod.snd := by
  rw [lookup, toList, List.find?_map, Option.map_map]
  have hsame : (fun t : Template => t.applies index) =
      (fun e : String × Mapping => e.2.appliesTo index) ∘ fun t => (t.name, t.mapping) :=
    funext fun t => applies_eq t index
  rw [hsame]
  rfl

/-- Where one mapping of a list stands in the place of another, the template of an index is another
one only if either of them applies to it and none before them does. -/
theorem applies_of_lookup_ne {r r' : Registry} {before rest : List (String × Mapping)}
    {name : String} {old new : Mapping} (h : r.toList = before ++ (name, old) :: rest)
    (h' : r'.toList = before ++ (name, new) :: rest) {index : String}
    (hne : r'.lookup index ≠ r.lookup index) :
    (old.appliesTo index = true ∨ new.appliesTo index = true) ∧
      ∀ e ∈ before, e.2.appliesTo index = false := by
  rw [lookup_eq_find?, lookup_eq_find?, h, h', List.find?_append, List.find?_append] at hne
  cases hbefore : before.find? fun e => e.2.appliesTo index with
  | some e =>
    rw [hbefore] at hne
    exact absurd rfl hne
  | none =>
    rw [hbefore, Option.none_or, Option.none_or] at hne
    refine ⟨?_, fun e he => Bool.eq_false_iff.mpr (List.find?_eq_none.mp hbefore e he)⟩
    by_contra hneither
    obtain ⟨hold, hnew⟩ := not_or.mp hneither
    have hskip : ∀ m : Mapping, ¬ m.appliesTo index = true →
        (((name, m) :: rest).find? fun e => e.2.appliesTo index) =
          rest.find? fun e => e.2.appliesTo index :=
      fun m hm => List.find?_cons_of_neg hm
    rw [hskip old hold, hskip new hnew] at hne
    exact hne rfl

end Registry

end Template

namespace Engine

open Quarry.Store Quarry.Template

/-! ## Calls -/

/-- A call that sets up a template. -/
inductive Setup where
  /-- A client asks for it. -/
  | register (name : String) (request : TemplateRequest)
  /-- It was kept. -/
  | restore (name : String) (m : Mapping)

namespace Setup

/-- The name of the template. -/
def name : Setup → String
  | register name _ => name
  | restore name _ => name

/-- What stands under the name if the call succeeds. -/
def mapping : Setup → Mapping
  | register _ request => request.mapping
  | restore _ m => m

/-- Makes the call. -/
def perform (c : Setup) (r : Registry) : Except Error Unit × Registry :=
  Program.registerIn r c.name c.mapping

/-- The pattern of the template can be read. -/
def Succeeds (c : Setup) : Prop := c.mapping.IsReadable

instance (c : Setup) : Decidable c.Succeeds := inferInstanceAs (Decidable c.mapping.IsReadable)

/-- What a call sets up: the stars of the pattern are any text, and only dates are kept. -/
inductive SetsUp : Setup → Mapping → Prop
  | register {name : String} {request : TemplateRequest} {m : Mapping}
    (pattern : m.pattern = expandStars request.pattern)
    (dates : m.dates.mapValues Mapping.dateField =
      request.properties.filter fun p => p.2.type = dateType) :
    SetsUp (register name request) m
  | restore {name : String} {m : Mapping} : SetsUp (restore name m) m

/-- What stands under the name then is what the call sets up. -/
theorem setsUp_mapping (c : Setup) : c.SetsUp c.mapping := by
  cases c with
  | restore name m => exact .restore
  | register name request =>
    refine .register rfl ?_
    have hdate : ∀ p ∈ request.properties.filter fun p => p.2.type == dateType,
        (p.1, Mapping.dateField p.2.format) = p := by
      rintro ⟨field, type, format⟩ hp
      obtain rfl : type = dateType := beq_iff_eq.mp (List.mem_filter.mp hp).2
      rfl
    calc Named.mapValues Mapping.dateField request.mapping.dates
        = (request.properties.filter fun p => p.2.type == dateType).map fun p =>
            (p.1, Mapping.dateField p.2.format) := List.map_map
      _ = (request.properties.filter fun p => p.2.type == dateType).map id :=
        List.map_congr_left hdate
      _ = request.properties.filter fun p => p.2.type == dateType := List.map_id _

/-- A call that fails leaves the templates as they were. -/
theorem perform_of_not_succeeds {c : Setup} (h : ¬ c.Succeeds) (r : Registry) :
    c.perform r = (.error (.template c.mapping.pattern), r) := by
  have hput : r.put c.name c.mapping = .error (.template c.mapping.pattern) :=
    Registry.put_eq_error.mpr ⟨h, rfl⟩
  rw [perform, Program.registerIn, hput]

/-- One that succeeds puts its mapping in its place. -/
theorem perform_of_succeeds {c : Setup} (h : c.Succeeds) (r : Registry) :
    ∃ r', c.perform r = (.ok (), r') ∧ r'.toList = replaceOrAppend c.name c.mapping r.toList := by
  obtain ⟨r', hput⟩ := Registry.exists_put h r c.name
  refine ⟨r', ?_, (Registry.put_eq_ok.mp hput).2⟩
  rw [perform, Program.registerIn, hput]

end Setup

/-- The registry that some calls leave of one without templates. -/
def afterSetups (calls : List Setup) : Registry := calls.foldl (fun r c => (c.perform r).2) {}

theorem afterSetups_concat (calls : List Setup) (c : Setup) :
    afterSetups (calls ++ [c]) = (c.perform (afterSetups calls)).2 := by
  rw [afterSetups, List.foldl_append]
  rfl

/-! ## Ordered maps -/

/-- Whether a call sets up a template of a name, and succeeds. -/
def Setup.setsUpName (name : String) (c : Setup) : Bool := decide (c.Succeeds ∧ c.name = name)

/-- The place of the first call that sets up a template of a name. -/
def firstCall (calls : List Setup) (name : String) : Nat := calls.findIdx (Setup.setsUpName name)

/-- The last call that sets up a template of a name. -/
def lastCall? (calls : List Setup) (name : String) : Option Setup :=
  calls.reverse.find? (Setup.setsUpName name)

/-- The templates of a registry are those that some calls set up. -/
structure OrderedMap (calls : List Setup) (r : Registry) : Prop where
  /-- The names are distinct. -/
  distinct : (r.toList.map Prod.fst).Nodup
  /-- They are those of the calls that succeed. -/
  names : ∀ name, name ∈ r.toList.map Prod.fst ↔ ∃ c ∈ calls, c.Succeeds ∧ c.name = name
  /-- They stand in the order of the first such calls. -/
  ordered : (r.toList.map Prod.fst).Pairwise fun a b => firstCall calls a < firstCall calls b
  /-- Under a name stands what the last such call set up. -/
  get : ∀ name, Option.Rel Setup.SetsUp (lastCall? calls name) (r.get? name)
  /-- The same is listed. -/
  entries : ∀ name m, (name, m) ∈ r.toList ↔ r.get? name = some m

/-- The template of an index is the first that applies to it, and there is none if none does. -/
structure LooksUpFirst (r : Registry) : Prop where
  found : ∀ index m, r.lookup index = some m ↔ ∃ before name rest,
    r.toList = before ++ (name, m) :: rest ∧ m.appliesTo index = true ∧
      ∀ e ∈ before, e.2.appliesTo index = false
  absent : ∀ index, r.lookup index = none ↔ ∀ e ∈ r.toList, e.2.appliesTo index = false

theorem looksUpFirst (r : Registry) : LooksUpFirst r where
  found index m := by
    rw [Registry.lookup_eq_find?, Option.map_eq_some_iff]
    simp only [List.find?_eq_some_iff_append, Bool.not_eq_true']
    constructor
    · rintro ⟨⟨name, m⟩, ⟨happlies, before, rest, hlist, hbefore⟩, rfl⟩
      exact ⟨before, name, rest, hlist, happlies, hbefore⟩
    · rintro ⟨before, name, rest, hlist, happlies, hbefore⟩
      exact ⟨(name, m), ⟨happlies, before, rest, hlist, hbefore⟩, rfl⟩
  absent index := by
    rw [Registry.lookup_eq_find?, Option.map_eq_none_iff, List.find?_eq_none]
    simp only [Bool.not_eq_true]

section

variable {calls : List Setup} {r : Registry}

theorem setsUpName_iff {name : String} {c : Setup} :
    Setup.setsUpName name c = true ↔ c.Succeeds ∧ c.name = name := decide_eq_true_iff

/-- A call after the first one for a name changes nothing of where that one stands. -/
theorem firstCall_concat {name : String} (h : ∃ c ∈ calls, c.Succeeds ∧ c.name = name) (c : Setup) :
    firstCall (calls ++ [c]) name = firstCall calls name := by
  obtain ⟨d, hd, hsets⟩ := h
  rw [firstCall, List.findIdx_append, if_pos]
  · rfl
  · exact List.findIdx_lt_length_of_exists ⟨d, hd, setsUpName_iff.mpr hsets⟩

theorem firstCall_lt {name : String} (h : ∃ c ∈ calls, c.Succeeds ∧ c.name = name) :
    firstCall calls name < calls.length := by
  obtain ⟨d, hd, hsets⟩ := h
  exact List.findIdx_lt_length_of_exists ⟨d, hd, setsUpName_iff.mpr hsets⟩

theorem length_le_firstCall {name : String} (h : ¬ ∃ c ∈ calls, c.Succeeds ∧ c.name = name)
    (c : Setup) : calls.length ≤ firstCall (calls ++ [c]) name := by
  rw [firstCall, List.findIdx_append, if_neg]
  · exact Nat.le_add_left _ _
  · rw [List.findIdx_lt_length]
    rintro ⟨d, hd, hsets⟩
    exact h ⟨d, hd, setsUpName_iff.mp hsets⟩

theorem lastCall?_concat (calls : List Setup) (c : Setup) (name : String) :
    lastCall? (calls ++ [c]) name =
      if c.Succeeds ∧ c.name = name then some c else lastCall? calls name := by
  rw [lastCall?, List.reverse_append, List.reverse_singleton, List.singleton_append,
    List.find?_cons]
  by_cases h : c.Succeeds ∧ c.name = name
  · rw [setsUpName_iff.mpr h, if_pos h]
  · rw [Bool.eq_false_iff.mpr (fun hsets => h (setsUpName_iff.mp hsets)), if_neg h]
    rfl

theorem orderedMap_nil : OrderedMap [] {} where
  distinct := List.nodup_nil
  names name := by simp [Registry.toList]
  ordered := List.Pairwise.nil
  get name := .none
  entries name m := by simp [Registry.toList, Registry.get?]

/-- One call more leaves the first calls for the names that there are where they stand. -/
theorem OrderedMap.ordered_concat (h : OrderedMap calls r) (c : Setup) :
    (r.toList.map Prod.fst).Pairwise fun a b =>
      firstCall (calls ++ [c]) a < firstCall (calls ++ [c]) b := by
  refine h.ordered.imp_of_mem fun ha hb hab => ?_
  rwa [firstCall_concat ((h.names _).mp ha), firstCall_concat ((h.names _).mp hb)]

/-- One call more, of which nothing but the templates it sets up is seen. -/
theorem OrderedMap.perform (h : OrderedMap calls r) (c : Setup) :
    OrderedMap (calls ++ [c]) (c.perform r).2 := by
  by_cases hc : c.Succeeds
  · obtain ⟨r', hperform, hlist⟩ := Setup.perform_of_succeeds hc r
    rw [hperform]
    have hnames : ∀ name, (∃ d ∈ calls ++ [c], d.Succeeds ∧ d.name = name) ↔
        (∃ d ∈ calls, d.Succeeds ∧ d.name = name) ∨ c.name = name := by
      intro name
      simp [or_and_right, exists_or, hc]
    have hdistinct : (r'.toList.map Prod.fst).Nodup := by
      rw [hlist]
      exact nodup_replaceOrAppend h.distinct c.name c.mapping
    have hfst := fst_replaceOrAppend c.name c.mapping r.toList
    rw [← hlist] at hfst
    refine ⟨hdistinct, fun name => ?_, ?_, fun name => ?_, fun name m => ?_⟩
    · rw [hnames, ← h.names, hfst]
      split_ifs with hmem
      · exact ⟨.inl, fun hname => hname.elim id fun hname => hname ▸ hmem⟩
      · rw [List.mem_append, List.mem_singleton, eq_comm (a := name)]
    · rw [hfst]
      split_ifs with hmem
      · exact h.ordered_concat c
      · -- A name that is new comes with this call.
        refine List.pairwise_append.mpr ⟨h.ordered_concat c, List.pairwise_singleton _ _, ?_⟩
        intro a ha b hb
        obtain rfl := List.mem_singleton.mp hb
        have hnew := length_le_firstCall (fun hcall => hmem ((h.names _).mpr hcall)) c
        rw [firstCall_concat ((h.names a).mp ha)]
        exact Nat.lt_of_lt_of_le (firstCall_lt ((h.names a).mp ha)) hnew
    · rw [lastCall?_concat, Registry.get?_eq_lookup, hlist, lookup_replaceOrAppend]
      by_cases hname : c.name = name
      · rw [if_pos ⟨hc, hname⟩, if_pos hname.symm]
        exact .some c.setsUp_mapping
      · rw [if_neg fun hsets => hname hsets.2, if_neg (Ne.symm hname),
          ← Registry.get?_eq_lookup]
        exact h.get name
    · rw [Registry.get?_eq_lookup]
      exact mem_iff_lookup hdistinct
  · rw [Setup.perform_of_not_succeeds hc]
    have hnames : ∀ name, (∃ d ∈ calls ++ [c], d.Succeeds ∧ d.name = name) ↔
        ∃ d ∈ calls, d.Succeeds ∧ d.name = name := by
      intro name
      simp [or_and_right, exists_or, hc]
    refine ⟨h.distinct, fun name => (h.names name).trans (hnames name).symm, h.ordered_concat c,
      fun name => ?_, h.entries⟩
    rw [lastCall?_concat, if_neg fun hsets => hc hsets.1]
    exact h.get name

end

/-- The templates after some calls are those that the calls set up. -/
theorem orderedMap_afterSetups (calls : List Setup) : OrderedMap calls (afterSetups calls) := by
  induction calls using List.reverseRecOn with
  | nil => exact orderedMap_nil
  | append_singleton calls c ih =>
    rw [afterSetups_concat]
    exact ih.perform c

/-! ## Lookups -/

/-- After any calls the templates are an ordered map, of which the first counts that applies to an
index. A further call fails if its pattern cannot be read, and changes nothing then. If it replaces
a template, the template of an index is another one only if the pattern before or the one after
applies to it, and none of an earlier template does. -/
theorem afterSetups_orderedMap (calls : List Setup) :
    OrderedMap calls (afterSetups calls) ∧ LooksUpFirst (afterSetups calls) ∧
    ∀ c : Setup,
      match c.perform (afterSetups calls) with
      | (.error e, r) => ¬ c.Succeeds ∧ e = .template c.mapping.pattern ∧
          SameTemplates (afterSetups calls) r
      | (.ok (), r) => c.Succeeds ∧ ∀ before old rest,
          (afterSetups calls).toList = before ++ (c.name, old) :: rest →
            r.toList = before ++ (c.name, c.mapping) :: rest ∧
            ∀ index, r.lookup index ≠ (afterSetups calls).lookup index →
              (old.appliesTo index = true ∨ c.mapping.appliesTo index = true) ∧
                ∀ e ∈ before, e.2.appliesTo index = false := by
  have hmap := orderedMap_afterSetups calls
  refine ⟨hmap, looksUpFirst _, fun c => ?_⟩
  by_cases hc : c.Succeeds
  · obtain ⟨r, hperform, hlist⟩ := Setup.perform_of_succeeds hc (afterSetups calls)
    rw [hperform]
    refine ⟨hc, fun before old rest hsplit => ?_⟩
    have hfirst : c.name ∉ before.map Prod.fst := by
      intro hmem
      have hdistinct := hmap.distinct
      rw [hsplit, List.map_append] at hdistinct
      exact (List.nodup_append.mp hdistinct).2.2 _ hmem _ List.mem_cons_self rfl
    rw [hsplit, replaceOrAppend_of_split hfirst] at hlist
    exact ⟨hlist, fun index hne => Registry.applies_of_lookup_ne hsplit hlist hne⟩
  · rw [Setup.perform_of_not_succeeds hc]
    exact ⟨hc, rfl, sameTemplates_iff.mpr rfl⟩

/-- Three calls, of which one fails. -/
def exampleSetups : List Setup :=
  [.register "visits" ⟨"visits-*", [("at", ⟨"date", "epoch_second"⟩), ("who", ⟨"text", ""⟩)]⟩,
    .register "broken" ⟨"[", []⟩, .restore "all" ⟨".*", [("at", "")]⟩]

/-- A template with a wider pattern in the place of the first one comes before the one that applied
to an index until then. -/
theorem afterSetups_orderedMap_example : ∃ r,
    (Setup.register "visits" ⟨"visit*", []⟩).perform (afterSetups exampleSetups) = (.ok (), r) ∧
    (afterSetups exampleSetups).lookup "visit" = some ⟨".*", [("at", "")]⟩ ∧
    r.lookup "visit" = some ⟨"visit.*", []⟩ ∧
    r.toList = [("visits", ⟨"visit.*", []⟩), ("all", ⟨".*", [("at", "")]⟩)] ∧
    Mapping.appliesTo ⟨"visit.*", []⟩ "visit" = true := by
  have hlist : (afterSetups exampleSetups).toList =
      [] ++ ("visits", ⟨"visits-.*", [("at", "epoch_second")]⟩) ::
        [("all", ⟨".*", [("at", "")]⟩)] := by
    decide +kernel
  have hbefore : (afterSetups exampleSetups).lookup "visit" = some ⟨".*", [("at", "")]⟩ := by
    decide +kernel
  obtain ⟨r, hperform, -⟩ := Setup.perform_of_succeeds
    (c := .register "visits" ⟨"visit*", []⟩) (by decide +kernel) (afterSetups exampleSetups)
  have h := (afterSetups_orderedMap exampleSetups).2.2 (.register "visits" ⟨"visit*", []⟩)
  rw [hperform] at h
  obtain ⟨hreplaced, hlookup⟩ := h.2 _ _ _ hlist
  have hafter : r.lookup "visit" = some ⟨"visit.*", []⟩ := by
    refine ((looksUpFirst r).found _ _).mpr ⟨[], "visits", _, hreplaced, ?_, List.forall_mem_nil _⟩
    decide +kernel
  refine ⟨r, hperform, hbefore, hafter, hreplaced, ?_⟩
  refine ((hlookup "visit" ?_).1).resolve_left ?_
  · rw [hbefore, hafter]
    decide
  · decide +kernel

end Engine

end Quarry
