/-
# Lines of bulk requests

The actions of a bulk request stand on its lines in turn, each with its document on the next line.
No line is passed over and none is read twice.

* `IsActionLine`, `RendersAction` — the lines that are read as an action, and ways to write one.
* `Framed` — actions with their documents stand on lines. `Misframed` — no actions do.
* `parseActions_eq_ok`, `parseActions_error_iff` — the actions of lines are those standing on them.
* `BulkAction.lines` — the lines of an action. `framed_lines` — every action stands on its lines.
* `parseBulk_framing` — what the actions of a text are, and when it has none.
-/
import Quarry.Proofs.Http.Bulk
import Quarry.Proofs.Json.Entries
import Quarry.Proofs.Request.Rendered
import Quarry.Proofs.Text.Lines

namespace Quarry.Http

open Quarry.Json Quarry.Outcome Quarry.Request Quarry.Text

/-! ## Lines of actions -/

/-- The fields of what an action says can be read in any order. -/
theorem actionRecord_independent : actionRecord.Independent where
  nodup := List.pairwise_singleton _ _
  required := List.nil_subset _
  commute := List.pairwise_singleton _ _

theorem actionRecord_agrees : Decoder.Agrees actionRecord.decode :=
  actionRecord_independent.agrees fun _ o v h _ _ b => Decoder.agrees_string.optional o v h b

/-- A line is an object with the name of an action as its only name. What stands under the name says
the index; if there is more than one, the last says it. -/
def IsActionLine (line name : String) (index : Option String) : Prop :=
  ∃ ms ending entries, scan (Utf8.encode line) = ⟨.object ms ending, false⟩ ∧
    ending.next = .ok () ∧ List.Forall₂ (Decoder.ReadsMember actionRecord.decode) ms entries ∧
    (∀ e ∈ entries, e.1 = name) ∧ entries.getLast? = some (name, index)

theorem parseActionLine_eq_ok {line name : String} {index : Option String} :
    parseActionLine line = .ok (name, index) ↔ IsActionLine line name index := by
  have hparse : parseActionLine line = .ok (name, index) ↔
      decodeText (Decoder.namedOf actionRecord.decode) (Utf8.encode line) =
        .ok [(name, index)] := by
    rw [parseActionLine, bind_eq_ok]
    simp only [mapError_eq_ok]
    constructor
    · rintro ⟨entries, hentries, h⟩
      split at h
      · cases h
        exact hentries
      · cases h
    · intro h
      exact ⟨_, h, rfl⟩
  rw [hparse, decodeText_eq_ok]
  constructor
  · rintro ⟨hread, htrailing⟩
    cases houtline : (scan (Utf8.encode line)).outline with
    | object ms ending =>
      rw [houtline] at hread
      obtain ⟨hnext, entries, hentries, hlist⟩ := Decoder.members_eq_foldl.mp hread
      obtain ⟨hnames, hlast⟩ := Named.ofList_eq_singleton.mp hlist
      refine ⟨ms, ending, entries, ?_, hnext, hentries, hnames, hlast⟩
      rw [← houtline, ← htrailing]
    | _ =>
      rw [houtline] at hread
      cases hread
  · rintro ⟨ms, ending, entries, hscan, hnext, hentries, hnames, hlast⟩
    rw [hscan]
    exact ⟨Decoder.members_eq_foldl.mpr
      ⟨hnext, entries, hentries, Named.ofList_eq_singleton.mpr ⟨hnames, hlast⟩⟩, rfl⟩

/-- What an action says gives its index, by name or in an array. -/
inductive SaysIndex (index : Option String) : Json → Prop
  | byName {vs : Named Json} : Optionally IsText index (Named.get? "_index" vs) →
    SaysIndex index (.object vs)
  | inOrder {vs : List Json} : vs.length ≤ 1 → Optionally IsText index vs.head? →
    SaysIndex index (.array vs)

theorem optional_string_eq_ok {v : Json} {index : Option String} :
    Decoder.optional Decoder.string (.ofJson v) = .ok index ↔
      Optionally IsText index (some v) := by
  constructor
  · intro h
    cases v <;> cases h
    · exact .null
    · exact .present rfl
  · rintro (_ | _ | htext)
    · rfl
    · cases htext
      rfl

/-- From an object the index is read by its name. -/
theorem readFields_index {ms : List Member} {vs : Named Json}
    (h : Outline.WritesMembers ms vs) {index : Option String} :
    actionRecord.readFields (Outline.find? · ms) ["_index"] none = .ok index ↔
      Optionally IsText index (Named.get? "_index" vs) := by
  rw [Record.readFields, bind_eq_ok]
  simp only [Record.readFields, Except.ok.injEq, exists_eq_right]
  obtain ⟨hnone, hget⟩ | ⟨o, v, ho, hget, hv⟩ := h.under "_index"
  · rw [hnone, hget]
    constructor
    · rintro ⟨⟩
      exact .absent
    · rintro ⟨⟩
      rfl
  · rw [ho, hget, ← optional_string_eq_ok]
    exact Decoder.agrees_string.optional o v hv index

/-- From an array it is read as the only element. -/
theorem actionRecord_array_eq_ok {vs : List Json} {index : Option String} :
    actionRecord.decode (.ofJson (.array vs)) = .ok index ↔
      vs.length ≤ 1 ∧ Optionally IsText index vs.head? := by
  rw [Outline.ofJson, Outline.itemsOfJson_eq_map]
  rcases vs with _ | ⟨v, _ | ⟨w, rest⟩⟩
  · constructor
    · rintro ⟨⟩
      exact ⟨Nat.zero_le 1, .absent⟩
    · rintro ⟨-, ⟨⟩⟩
      rfl
  · refine bind_eq_ok.trans ?_
    constructor
    · rintro ⟨_, hv, ⟨⟩⟩
      exact ⟨le_rfl, optional_string_eq_ok.mp hv⟩
    · rintro ⟨-, hv⟩
      exact ⟨index, optional_string_eq_ok.mpr hv, rfl⟩
  · -- There is an element too many.
    refine iff_of_false (fun h => ?_) fun h => absurd h.1 (by simp)
    obtain ⟨_, -, h⟩ := bind_eq_ok.mp h
    cases h

/-- What an action says is read as its index. -/
theorem actionRecord_eq_ok {o : Outline} {v : Json} {index : Option String} (h : o.Writes v) :
    actionRecord.decode o = .ok index ↔ SaysIndex index v := by
  cases v with
  | object vs =>
    obtain ⟨ms, ending, rfl, hnext, hall⟩ := h.of_object
    refine (actionRecord_independent.ofMembers_eq_ok hall.once (List.forall_mem_nil _)).trans ?_
    constructor
    · rintro ⟨-, -, -, hread⟩
      exact .byName ((readFields_index hall).mp hread)
    · rintro ⟨hindex⟩
      exact ⟨Record.canBePassed_of_writes hall, hnext, List.forall_mem_nil _,
        (readFields_index hall).mpr hindex⟩
  | array vs =>
    rw [actionRecord_agrees o _ h, actionRecord_array_eq_ok]
    constructor
    · exact fun h => .inOrder h.1 h.2
    · rintro (_ | ⟨hlength, hindex⟩)
      exact ⟨hlength, hindex⟩
  | _ =>
    rw [actionRecord_agrees o _ h]
    refine iff_of_false ?_ ?_
    · rintro ⟨⟩
    · rintro ⟨⟩

/-- A line writes an object whose only key is the name of an action. What stands under it gives the
index. -/
def RendersAction (line name : String) (index : Option String) : Prop :=
  ∃ v, (scan (Utf8.encode line)).outline.Writes (.object [(name, v)]) ∧
    (scan (Utf8.encode line)).trailing = false ∧ SaysIndex index v

/-- A line that writes an action is read as one. -/
theorem RendersAction.isActionLine {line name : String} {index : Option String}
    (h : RendersAction line name index) : IsActionLine line name index := by
  obtain ⟨v, hwrites, htrailing, hindex⟩ := h
  obtain ⟨ms, ending, houtline, hnext, hall⟩ := hwrites.of_object
  obtain ⟨-, hnil⟩ | ⟨_, o, _, rfl, heq, hv⟩ := writesMembers_one hall le_rfl
  · cases hnil
  · cases heq
    have hmember : Decoder.ReadsMember actionRecord.decode (.ok name, o) (name, index) :=
      ⟨rfl, (actionRecord_eq_ok hv).mpr hindex⟩
    refine ⟨_, ending, [(name, index)], ?_, hnext, .cons hmember .nil,
      List.forall_mem_singleton.mpr rfl, rfl⟩
    rw [← houtline, ← htrailing]

/-! ## Frames -/

/-- Actions stand on lines in turn, each on a line and its document on the next one. The action that
deletes has no document. -/
inductive Framed (R : String → String → Option String → Prop) : List BulkAction → List String → Prop
  | nil : Framed R [] []
  | delete {line : String} {index : Option String} {actions : List BulkAction}
    {lines : List String} : R line deleteName index → Framed R actions lines →
      Framed R (⟨deleteName, index, none⟩ :: actions) (line :: lines)
  | put {line name source : String} {index : Option String} {actions : List BulkAction}
    {lines : List String} : R line name index → name ≠ deleteName → Framed R actions lines →
      Framed R (⟨name, index, some source⟩ :: actions) (line :: source :: lines)

theorem Framed.imp {R S : String → String → Option String → Prop} {actions : List BulkAction}
    {lines : List String} (hRS : ∀ line name index, R line name index → S line name index)
    (h : Framed R actions lines) : Framed S actions lines := by
  induction h with
  | nil => exact .nil
  | delete hline _ ih => exact .delete (hRS _ _ _ hline) ih
  | put hline hname _ ih => exact .put (hRS _ _ _ hline) hname ih

theorem Framed.append {R : String → String → Option String → Prop}
    {before actions : List BulkAction} {front lines : List String} (hfront : Framed R before front)
    (h : Framed R actions lines) : Framed R (before ++ actions) (front ++ lines) := by
  induction hfront with
  | nil => exact h
  | delete hline _ ih => exact .delete hline ih
  | put hline hname _ ih => exact .put hline hname ih

/-- Behind some actions with their documents there is a line that is no action, or an action without
its document. -/
def Misframed (lines : List String) : Prop :=
  ∃ actions before line rest, lines = before ++ line :: rest ∧ Framed IsActionLine actions before ∧
    ((∀ name index, ¬ IsActionLine line name index) ∨
      rest = [] ∧ ∃ name index, IsActionLine line name index ∧ name ≠ deleteName)

/-- Actions in front leave lines misframed. -/
theorem Misframed.append {before : List BulkAction} {front lines : List String}
    (h : Misframed lines) (hfront : Framed IsActionLine before front) :
    Misframed (front ++ lines) := by
  obtain ⟨actions, between, line, rest, rfl, hbetween, hline⟩ := h
  exact ⟨before ++ actions, front ++ between, line, rest, (List.append_assoc ..).symm,
    hfront.append hbetween, hline⟩

/-- Actions stand on lines, or the lines are misframed. -/
theorem framed_or_misframed (lines : List String) :
    (∃ actions, Framed IsActionLine actions lines) ∨ Misframed lines := by
  induction lines using parseActions.induct with
  | case1 => exact .inl ⟨[], .nil⟩
  | case2 line rest ih ihSource =>
    by_cases hline : ∃ name index, IsActionLine line name index
    · obtain ⟨name, index, hline⟩ := hline
      by_cases hname : name = deleteName
      · subst hname
        rcases ih with ⟨actions, hrest⟩ | hrest
        · exact .inl ⟨_, .delete hline hrest⟩
        · exact .inr (hrest.append (.delete hline .nil))
      · cases rest with
        | nil => exact .inr ⟨[], [], line, [], rfl, .nil, .inr ⟨rfl, name, index, hline, hname⟩⟩
        | cons source rest =>
          rcases ihSource with ⟨actions, hrest⟩ | hrest
          · exact .inl ⟨_, .put hline hname hrest⟩
          · have hput : Framed IsActionLine [⟨name, index, some source⟩] [line, source] :=
              .put hline hname .nil
            exact .inr (hrest.append hput)
    · exact .inr ⟨[], [], line, rest, rfl, .nil, .inl fun name index h => hline ⟨name, index, h⟩⟩

/-! ## Reading frames -/

section

variable {line name : String} {index : Option String} {actions : List BulkAction}
  {lines : List String}

theorem orElse_none (o : Option String) : (o.orElse fun _ => none) = o := by cases o <;> rfl

theorem parseActions_delete (h : IsActionLine line deleteName index) (rest : List String) :
    parseActions none (line :: rest) =
      (parseActions none rest).map (⟨deleteName, index, none⟩ :: ·) := by
  rw [parseActions, parseActionLine_eq_ok.mpr h]
  simp only [bind, Except.bind, ↓reduceIte, orElse_none]
  cases parseActions none rest <;> rfl

theorem parseActions_put (h : IsActionLine line name index) (hname : name ≠ deleteName)
    (source : String) (rest : List String) : parseActions none (line :: source :: rest) =
      (parseActions none rest).map (⟨name, index, some source⟩ :: ·) := by
  rw [parseActions, parseActionLine_eq_ok.mpr h]
  simp only [bind, Except.bind, if_neg hname, orElse_none]
  cases parseActions none rest <;> rfl

/-- An action that stands on the last line lacks its document. -/
theorem parseActions_last (h : IsActionLine line name index) (hname : name ≠ deleteName) :
    parseActions none [line] = .error (.noSource name) := by
  rw [parseActions, parseActionLine_eq_ok.mpr h]
  simp only [bind, Except.bind, if_neg hname]
  rfl

/-- A line that is no action cannot be read. -/
theorem parseActions_unread (h : ∀ name index, ¬ IsActionLine line name index)
    (rest : List String) : ∃ e, parseActions none (line :: rest) = .error e := by
  rw [parseActions]
  cases hline : parseActionLine line with
  | error e => exact ⟨e, rfl⟩
  | ok action => exact absurd (parseActionLine_eq_ok.mp hline) (h action.1 action.2)

/-- The actions that stand on some lines come before those of the lines behind. -/
theorem Framed.parseActions_append (h : Framed IsActionLine actions lines) (rest : List String) :
    parseActions none (lines ++ rest) = (parseActions none rest).map (actions ++ ·) := by
  induction h with
  | nil =>
    rw [List.nil_append]
    cases parseActions none rest <;> rfl
  | delete hline _ ih =>
    rw [List.cons_append, parseActions_delete hline, ih]
    cases parseActions none rest <;> rfl
  | put hline hname _ ih =>
    rw [List.cons_append, List.cons_append, parseActions_put hline hname, ih]
    cases parseActions none rest <;> rfl

theorem Framed.parseActions_eq (h : Framed IsActionLine actions lines) :
    parseActions none lines = .ok actions := by
  have happend := h.parseActions_append []
  rw [List.append_nil] at happend
  rw [happend, parseActions]
  exact congrArg Except.ok (List.append_nil actions)

theorem Misframed.exists_error (h : Misframed lines) :
    ∃ e, parseActions none lines = .error e := by
  obtain ⟨actions, before, line, rest, rfl, hbefore, hline⟩ := h
  have herror : ∃ e, parseActions none (line :: rest) = .error e := by
    rcases hline with hline | ⟨rfl, name, index, hline, hname⟩
    · exact parseActions_unread hline rest
    · exact ⟨_, parseActions_last hline hname⟩
  obtain ⟨e, he⟩ := herror
  exact ⟨e, by rw [hbefore.parseActions_append, he]; rfl⟩

/-- The actions of lines are those that stand on them. -/
theorem parseActions_eq_ok : parseActions none lines = .ok actions ↔
    Framed IsActionLine actions lines := by
  refine ⟨fun h => ?_, Framed.parseActions_eq⟩
  rcases framed_or_misframed lines with ⟨actions', hframed⟩ | hmisframed
  · rw [hframed.parseActions_eq] at h
    cases h
    exact hframed
  · obtain ⟨e, he⟩ := hmisframed.exists_error
    rw [he] at h
    cases h

theorem parseActions_error_iff : (∃ e, parseActions none lines = .error e) ↔ Misframed lines := by
  refine ⟨fun ⟨e, he⟩ => ?_, Misframed.exists_error⟩
  refine (framed_or_misframed lines).resolve_left fun ⟨actions, hframed⟩ => ?_
  rw [hframed.parseActions_eq] at he
  cases he

end

/-! ## Printed actions -/

/-- What an action says besides its name. -/
def BulkAction.members (a : BulkAction) : List (String × Json) :=
  a.index.elim [] fun index => [("_index", .string index)]

/-- An action as an object with its name as the only key. -/
def BulkAction.toJson (a : BulkAction) : Json := .object [(a.name, .object a.members)]

/-- The lines of an action: what it says, and its document if it has one. -/
def BulkAction.lines (a : BulkAction) : List String := a.toJson.text :: a.source.toList

/-- The action that deletes has no document, and every other one has one, which is a line. -/
structure BulkAction.IsSound (a : BulkAction) : Prop where
  delete : a.source = none ↔ a.name = deleteName
  content : ∀ line ∈ a.source, IsContent line

theorem BulkAction.valid_toJson (a : BulkAction) : a.toJson.Valid := by
  refine .object _ (List.pairwise_singleton _ _) (List.forall_mem_singleton.mpr ?_)
  rw [members]
  cases a.index with
  | none => exact .object _ Named.ascending_nil (List.forall_mem_nil _)
  | some index =>
    exact .object _ (List.pairwise_singleton _ _) (List.forall_mem_singleton.mpr (.string index))

/-- The text of an action writes it. -/
theorem BulkAction.rendersAction (a : BulkAction) : RendersAction a.toJson.text a.name a.index := by
  have hnesting : a.toJson.nesting ≤ Scanner.nestingLimit := by
    rw [toJson, members]
    cases a.index <;> exact (by decide : 2 ≤ 127)
  have hfloats : a.toJson.FloatsReadBack := by
    rw [toJson, members]
    cases a.index <;> exact List.forall_mem_nil _
  have hindex : SaysIndex a.index (.object a.members) := by
    rw [members]
    cases a.index with
    | none => exact .byName .absent
    | some index => exact .byName (.present rfl)
  have hscan := Scanner.scan_text a.valid_toJson.writable hnesting hfloats
  refine ⟨.object a.members, ?_, ?_, hindex⟩
  · rw [hscan]
    exact writes_outline a.valid_toJson
  · rw [hscan]

/-- The text of an action is a line. -/
theorem BulkAction.isContent_text (a : BulkAction) : IsContent a.toJson.text := by
  have hquoted : ∀ s, '\n' ∉ (quoted s).toList := by
    intro s
    rw [quoted, String.toList_ofList]
    exact feed_not_mem_quotedChars s
  have hmembers : '\n' ∉ (membersText a.members).toList := by
    rw [members]
    cases a.index <;> simp [membersText, Json.text, hquoted]
  have htext : a.toJson.text = String.ofList ('\x7b' ::
      ((quoted a.name ++ ":\x7b" ++ membersText a.members ++ "\x7d").toList ++ ['\x7d'])) := by
    rw [← String.toList_inj]
    simp [toJson, Json.text, membersText]
  rw [htext]
  exact isContent_of_ends rfl rfl (by simp [hquoted, hmembers])

/-- Sound actions stand on their lines. -/
theorem framed_lines {actions : List BulkAction} (h : ∀ a ∈ actions, a.IsSound) :
    Framed RendersAction actions (actions.flatMap BulkAction.lines) := by
  induction actions with
  | nil => exact .nil
  | cons a rest ih =>
    obtain ⟨ha, hrest⟩ := List.forall_mem_cons.mp h
    have hline := a.rendersAction
    rw [List.flatMap_cons, BulkAction.lines]
    obtain ⟨name, index, source⟩ := a
    cases source with
    | none =>
      obtain rfl : name = deleteName := ha.delete.mp rfl
      exact .delete hline (ih hrest)
    | some source =>
      refine .put hline (fun hname => ?_) (ih hrest)
      cases ha.delete.mpr hname

theorem isContent_lines {actions : List BulkAction} (h : ∀ a ∈ actions, a.IsSound) :
    ∀ line ∈ actions.flatMap BulkAction.lines, IsContent line := by
  intro line hline
  obtain ⟨a, ha, hline⟩ := List.mem_flatMap.mp hline
  rcases List.mem_cons.mp hline with rfl | hline
  · exact a.isContent_text
  · exact (h a ha).content line (Option.mem_toList.mp hline)

/-! ## Texts -/

/-- The actions of a text are those that stand on its lines, each on the index it names or else on
the one given, with its document as it stands there. Sound actions stand on the lines that are
printed for them. A text that has no such lines has no actions. -/
theorem parseBulk_framing (index : Option String) :
    (∀ actions lines text, Framed RendersAction actions lines → Written lines text.toList →
      parseBulk index text = .ok (actions.map (BulkAction.on index))) ∧
    (∀ actions : List BulkAction, (∀ a ∈ actions, a.IsSound) →
      Framed RendersAction actions (actions.flatMap BulkAction.lines) ∧
        ∀ line ∈ actions.flatMap BulkAction.lines, IsContent line) ∧
    ∀ text, ∃ lines, Written lines text.toList ∧
      (∀ actions, parseBulk index text = .ok actions ↔
        ∃ framed, Framed IsActionLine framed lines ∧ framed.map (BulkAction.on index) = actions) ∧
      ((∃ e, parseBulk index text = .error e) ↔ Misframed lines) := by
  have hparse : ∀ {text lines}, Written lines text.toList →
      parseBulk index text = (parseActions none lines).map (List.map (BulkAction.on index)) := by
    intro text lines hwritten
    rw [parseBulk_eq, parseBulk, contentLines_eq_iff.mpr hwritten]
  refine ⟨?_, fun actions h => ⟨framed_lines h, isContent_lines h⟩, ?_⟩
  · intro actions lines text hframed hwritten
    rw [hparse hwritten, (hframed.imp fun _ _ _ => RendersAction.isActionLine).parseActions_eq]
    rfl
  · intro text
    have hwritten := contentLines_eq_iff.mp (rfl : contentLines text = _)
    refine ⟨_, hwritten, fun actions => ?_, ?_⟩
    · simp only [hparse hwritten, map_eq_ok, parseActions_eq_ok]
    · simp only [hparse hwritten, map_eq_error, parseActions_error_iff]

/-- Two actions of which the second has no document. -/
def framingExample : List BulkAction :=
  [⟨"create", some "events", some "\x7b\"delete\":\x7b\x7d\x7d"⟩, ⟨"delete", none, none⟩]

/-- A document that looks like an action stays a document, whatever blanks stand around it. -/
theorem parseBulk_framing_example : (∀ a ∈ framingExample, a.IsSound) ∧
    parseBulk (some "logs") ("\r\n  \x7b\"create\":\x7b\"_index\":\"events\"\x7d\x7d\t\r\n\n" ++
        " \x7b\"delete\":\x7b\x7d\x7d\n\x7b\"delete\":\x7b\x7d\x7d") =
      .ok [⟨"create", some "events", some "\x7b\"delete\":\x7b\x7d\x7d"⟩,
        ⟨"delete", some "logs", none⟩] ∧
    ∃ lines, Written lines "\x7b\"create\":\x7b\x7d\x7d\n".toList ∧ Misframed lines := by
  obtain ⟨hread, hframed, hall⟩ := parseBulk_framing (some "logs")
  have hsound : ∀ a ∈ framingExample, a.IsSound := by
    refine List.forall_mem_cons.mpr ⟨⟨by decide, ?_⟩, List.forall_mem_singleton.mpr ⟨by decide, ?_⟩⟩
    · rintro _ ⟨⟩
      exact ⟨by decide +kernel, by decide +kernel, by decide +kernel⟩
    · rintro _ ⟨⟩
  refine ⟨hsound, hread framingExample _ _ (hframed framingExample hsound).1 ?_, ?_⟩
  · exact contentLines_eq_iff.mp (by decide +kernel)
  · obtain ⟨lines, hwritten, -, herror⟩ := hall "\x7b\"create\":\x7b\x7d\x7d\n"
    exact ⟨lines, hwritten, herror.mp ⟨.noSource "create", by decide +kernel⟩⟩

end Quarry.Http
