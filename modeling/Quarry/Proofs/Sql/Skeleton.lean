/-
# Skeletons of statements

Which places of a statement texts from outside may fill, and with which tokens.

* `Place`, `Statement.skeleton` — the fixed tokens of a statement and its open places.
* `Statement.erased` — a statement without any text from outside.
* `UserText` — a text from outside, by its use.
* `Fills` — texts fill the open places of a skeleton, each one with its own tokens.
* `Statement.skeleton_erased` — the skeleton does not depend on texts from outside.
-/
import Quarry.Proofs.Sql.Pieces

namespace Quarry.Sql

open Quarry.Request Quarry.Text

/-! ## Places -/

/-- A place of a statement: a fixed token, or an open place by its kind. -/
inductive Place where
  | fixed (t : Token)
  | index
  | field
  | constant
  deriving DecidableEq, Repr

/-- The place of a piece. -/
def Piece.place : Piece → Place
  | .fixed t => .fixed t
  | .index _ => .index
  | .field _ => .field
  | .constant _ => .constant

/-- The places of some pieces. -/
def placesOf (ps : List Piece) : List Place := ps.map Piece.place

@[simp] theorem placesOf_nil : placesOf [] = [] := rfl

@[simp] theorem placesOf_cons (p : Piece) (ps : List Piece) :
    placesOf (p :: ps) = p.place :: placesOf ps := rfl

@[simp] theorem placesOf_append (ps qs : List Piece) :
    placesOf (ps ++ qs) = placesOf ps ++ placesOf qs := List.map_append

/-- The fixed tokens and open places of a statement. -/
def Statement.skeleton (s : Statement) : List Place := placesOf (Statement.pieces s)

/-! ## Fields -/

/-- One ending of a field that is not analysed is taken off. -/
theorem documentField_append (base : String) : documentField (base ++ ".keyword") = base := by
  have hlist : (base ++ ".keyword").toList = base.toList ++ keywordEnding := by
    rw [String.toList_append]
    rfl
  have hsuffix : keywordEnding.isSuffixOf (base.toList ++ keywordEnding) = true :=
    List.isSuffixOf_iff_suffix.mpr (List.suffix_append _ _)
  simp only [documentField, hlist, hsuffix, if_true, List.length_append, Nat.add_sub_cancel,
    List.take_left', String.ofList_toList]

/-- Any other field stays as it is. -/
theorem documentField_of_not_suffix {field : String}
    (h : ¬ keywordEnding <:+ field.toList) : documentField field = field := by
  have hsuffix : keywordEnding.isSuffixOf field.toList = false :=
    Bool.eq_false_iff.mpr fun hc => h (List.isSuffixOf_iff_suffix.mp hc)
  simp [documentField, hsuffix]

/-! ## Texts from outside -/

/-- A text from outside. -/
inductive UserText where
  /-- The name of an index. -/
  | index (s : String)
  /-- The name of a field. -/
  | field (s : String)
  /-- A value of a term or match, or one that stands in for a missing field. -/
  | value (s : String)
  /-- The text of a bound after conversion. -/
  | bound (s : String)
  deriving DecidableEq, Repr

/-- The piece that a text from outside becomes. -/
def UserText.piece : UserText → Piece
  | .index s => .index s
  | .field s => .field s
  | .value s => .constant (.ofText s)
  | .bound s => .constant (.text s)

/-- Texts fill the open places of a skeleton in their order, and nothing else changes. A field is
the literal of its path, a value that writes a 64-bit integer that integer, and any other text is a
name or literal that holds it unchanged. -/
inductive Fills : List Place → List UserText → List Token → Prop
  | nil : Fills [] [] []
  | fixed {ps : List Place} {us : List UserText} {ts : List Token} (t : Token) :
    Fills ps us ts → Fills (.fixed t :: ps) us (t :: ts)
  | index {ps : List Place} {us : List UserText} {ts : List Token} (s : String) :
    Fills ps us ts → Fills (.index :: ps) (.index s :: us) (.name s :: ts)
  | field {ps : List Place} {us : List UserText} {ts : List Token} (s : String) :
    Fills ps us ts →
      Fills (.field :: ps) (.field s :: us) (.literal ("$." ++ documentField s) :: ts)
  | integer {ps : List Place} {us : List UserText} {ts : List Token} (s : String) (n : Int) :
    Digits.int64Of? s = some n → Fills ps us ts →
      Fills (.constant :: ps) (.value s :: us) (integerTokens n ++ ts)
  | text {ps : List Place} {us : List UserText} {ts : List Token} (s : String) :
    Digits.int64Of? s = none → Fills ps us ts →
      Fills (.constant :: ps) (.value s :: us) (.literal s :: ts)
  | bound {ps : List Place} {us : List UserText} {ts : List Token} (s : String) :
    Fills ps us ts → Fills (.constant :: ps) (.bound s :: us) (.literal s :: ts)

/-- Whether a piece comes from outside. -/
def Piece.isOpen : Piece → Bool
  | .fixed _ => false
  | _ => true

/-- The pieces from outside. -/
def openPieces (ps : List Piece) : List Piece := ps.filter Piece.isOpen

@[simp] theorem openPieces_nil : openPieces [] = [] := rfl

@[simp] theorem openPieces_word (s : String) (ps : List Piece) :
    openPieces (.word s :: ps) = openPieces ps := rfl

@[simp] theorem openPieces_sign (s : String) (ps : List Piece) :
    openPieces (.sign s :: ps) = openPieces ps := rfl

@[simp] theorem openPieces_append (ps qs : List Piece) :
    openPieces (ps ++ qs) = openPieces ps ++ openPieces qs := List.filter_append ..

@[simp] theorem openPieces_number (n : Nat) (ps : List Piece) :
    openPieces (.fixed (.number n) :: ps) = openPieces ps := rfl

@[simp] theorem openPieces_index (name : String) (ps : List Piece) :
    openPieces (.index name :: ps) = .index name :: openPieces ps := rfl

@[simp] theorem openPieces_field (name : String) (ps : List Piece) :
    openPieces (.field name :: ps) = .field name :: openPieces ps := rfl

@[simp] theorem openPieces_constant (l : Literal) (ps : List Piece) :
    openPieces (.constant l :: ps) = .constant l :: openPieces ps := rfl

/-- Fixed pieces between lists leave the pieces from outside as they are. -/
theorem openPieces_joined {between : List Piece} (h : openPieces between = [])
    (l : List (List Piece)) : openPieces (joined between l) = l.flatMap openPieces := by
  induction l with
  | nil => rfl
  | cons a rest ih =>
    cases rest with
    | nil => simp [joined]
    | cons b rest =>
      rw [joined, openPieces_append, openPieces_append, h, List.append_nil, ih,
        ← List.flatMap_cons]

theorem openPieces_wherePieces (l : List (List Piece)) :
    openPieces (wherePieces l) = l.flatMap openPieces := by
  cases l with
  | nil => rfl
  | cons a rest => exact openPieces_joined rfl (a :: rest)

theorem openPieces_groupPieces (l : List (List Piece)) :
    openPieces (groupPieces l) = l.flatMap openPieces := by
  cases l with
  | nil => rfl
  | cons a rest => exact openPieces_joined rfl (a :: rest)

theorem openPieces_orderPieces (l : List (List Piece)) :
    openPieces (orderPieces l) = l.flatMap openPieces := by
  cases l with
  | nil => rfl
  | cons a rest => exact openPieces_joined rfl (a :: rest)

theorem openPieces_limitPieces (limit offset : Option Nat) :
    openPieces (limitPieces limit offset) = [] := by
  rcases limit with _ | n <;> rcases offset with _ | _ | m <;> rfl

/-- The pieces from outside of a statement: those of its columns, its table, and those of its
predicates, groups and order. -/
theorem Select.openPieces_pieces {κ ε : Type} (p : κ → List Piece) (q : ε → List Piece)
    (s : Select κ ε SortDirection) : openPieces (s.pieces p q) =
      (s.columns.flatMap fun c => openPieces (p c.expr)) ++
        (s.source.toList.map fun t => .index t.table) ++
        (s.predicates.flatMap fun e => openPieces (q e)) ++
        (s.groups.flatMap fun e => openPieces (q e)) ++
        s.order.flatMap fun k => openPieces (q k.expr) := by
  have hsource : openPieces ((s.source.map Source.pieces).getD []) =
      s.source.toList.map fun t => .index t.table := by
    rcases s.source with _ | ⟨table, _ | name⟩ <;> simp [Source.pieces]
  have hcolumns : openPieces (joined [.sign ","]
      (s.columns.map fun c => p c.expr ++ [.word "AS", .word c.name])) =
        s.columns.flatMap fun c => openPieces (p c.expr) := by
    rw [openPieces_joined rfl, List.flatMap_map]
    simp
  simp [pieces, hcolumns, hsource, openPieces_wherePieces, openPieces_groupPieces,
    openPieces_orderPieces, openPieces_limitPieces, List.flatMap_map]

/-- The texts that became the open pieces fill the places of all pieces with their tokens. -/
theorem fills_pieces {ps : List Piece} {us : List UserText}
    (h : us.map UserText.piece = openPieces ps) : Fills (placesOf ps) us (tokensOf ps) := by
  induction ps generalizing us with
  | nil =>
    have hus : us = [] := List.map_eq_nil_iff.mp h
    subst hus
    exact .nil
  | cons p ps ih =>
    -- A fixed piece takes no text; an open one takes the next, and its kind says which use that has.
    cases p with
    | fixed t => exact .fixed t (ih h)
    | index name =>
      obtain ⟨u, us, rfl, hu, hrest⟩ := List.map_eq_cons_iff.mp h
      cases u with
      | index s =>
        obtain rfl : s = name := Piece.index.inj hu
        exact .index s (ih hrest)
      | field s => cases hu
      | value s => cases hu
      | bound s => cases hu
    | field name =>
      obtain ⟨u, us, rfl, hu, hrest⟩ := List.map_eq_cons_iff.mp h
      cases u with
      | index s => cases hu
      | field s =>
        obtain rfl : s = name := Piece.field.inj hu
        exact .field s (ih hrest)
      | value s => cases hu
      | bound s => cases hu
    | constant l =>
      obtain ⟨u, us, rfl, hu, hrest⟩ := List.map_eq_cons_iff.mp h
      cases u with
      | index s => cases hu
      | field s => cases hu
      | value s =>
        obtain rfl : Literal.ofText s = l := Piece.constant.inj hu
        rw [placesOf_cons, tokensOf_cons]
        cases hn : Digits.int64Of? s with
        | some n =>
          rw [Literal.ofText, hn]
          exact .integer s n hn (ih hrest)
        | none =>
          rw [Literal.ofText, hn]
          exact .text s hn (ih hrest)
      | bound s =>
        obtain rfl : Literal.text s = l := Piece.constant.inj hu
        exact .bound s (ih hrest)

/-! ## Statements without texts from outside -/

/-- An expression without texts from outside. -/
def Expr.erased : Expr → Expr
  | .field qualifier _ => .field qualifier ""
  | .constant _ => .constant (.text "")
  | .coalesce a b => .coalesce a.erased b.erased
  | .datetime a => .datetime a.erased
  | .compare op a b => .compare op a.erased b.erased
  | .avg a => .avg a.erased
  | .max a => .max a.erased
  | e => e

/-- A statement without texts from outside, given how they leave its expressions. -/
def Select.erased {κ ε : Type} (column : κ → κ) (expr : ε → ε) (s : Select κ ε SortDirection) :
    Select κ ε SortDirection :=
  { s.mapParts column expr id with source := s.source.map fun t => { t with table := "" } }

/-- A statement in the place of one value without texts from outside. -/
def Subselect.erased (s : Subselect) : Subselect := Select.erased Expr.erased Expr.erased s

/-- A result column without texts from outside. -/
def Output.erased : Output → Output
  | .expr e => .expr e.erased
  | .subselect s => .subselect (Subselect.erased s)

/-- A statement without texts from outside. -/
def Statement.erased (s : Statement) : Statement := Select.erased Output.erased Expr.erased s

/-- The places of joined pieces are the joined places. -/
theorem placesOf_joined (between : List Piece) (l : List (List Piece)) :
    placesOf (joined between l) = joined (placesOf between) (l.map placesOf) := by
  induction l with
  | nil => rfl
  | cons a rest ih =>
    cases rest with
    | nil => rfl
    | cons b rest =>
      simp only [joined, placesOf_append, List.map_cons] at ih ⊢
      rw [ih]

/-- The places of an expression do not depend on texts from outside. -/
theorem Expr.placesOf_erased (e : Expr) : placesOf e.erased.pieces = placesOf e.pieces := by
  induction e with
  | coalesce a b iha ihb => simp only [erased, pieces, placesOf_append, iha, ihb]
  | datetime a ih => simp only [erased, pieces, placesOf_append, ih]
  | compare op a b iha ihb => simp only [erased, pieces, placesOf_append, iha, ihb]
  | avg a ih => simp only [erased, pieces, placesOf_append, ih]
  | max a ih => simp only [erased, pieces, placesOf_append, ih]
  | field qualifier name => cases qualifier <;> rfl
  | _ => rfl

section

variable {l l' : List (List Piece)}

/-- The places of predicates are given by those of each. -/
theorem placesOf_wherePieces (h : l.map placesOf = l'.map placesOf) :
    placesOf (wherePieces l) = placesOf (wherePieces l') := by
  have hjoined : placesOf (joined [.word "AND"] l) = placesOf (joined [.word "AND"] l') := by
    rw [placesOf_joined, placesOf_joined, h]
  cases l <;> cases l' <;> simp_all [wherePieces]

/-- The places of groups are given by those of each. -/
theorem placesOf_groupPieces (h : l.map placesOf = l'.map placesOf) :
    placesOf (groupPieces l) = placesOf (groupPieces l') := by
  have hjoined : placesOf (joined [.sign ","] l) = placesOf (joined [.sign ","] l') := by
    rw [placesOf_joined, placesOf_joined, h]
  cases l <;> cases l' <;> simp_all [groupPieces]

/-- The places of an order are given by those of each key. -/
theorem placesOf_orderPieces (h : l.map placesOf = l'.map placesOf) :
    placesOf (orderPieces l) = placesOf (orderPieces l') := by
  have hjoined : placesOf (joined [.sign ","] l) = placesOf (joined [.sign ","] l') := by
    rw [placesOf_joined, placesOf_joined, h]
  cases l <;> cases l' <;> simp_all [orderPieces]

end

/-- The places of a statement do not depend on texts from outside if those of its expressions do
not. -/
theorem Select.placesOf_erased {κ ε : Type} {p : κ → List Piece} {q : ε → List Piece}
    {column : κ → κ} {expr : ε → ε} (hp : ∀ k, placesOf (p (column k)) = placesOf (p k))
    (hq : ∀ e, placesOf (q (expr e)) = placesOf (q e)) (s : Select κ ε SortDirection) :
    placesOf ((s.erased column expr).pieces p q) = placesOf (s.pieces p q) := by
  have hsource : placesOf (((s.erased column expr).source.map Source.pieces).getD []) =
      placesOf ((s.source.map Source.pieces).getD []) := by
    rcases hs : s.source with _ | ⟨table, _ | name⟩ <;> simp [erased, hs] <;> rfl
  have hcolumns : placesOf (joined [.sign ","] ((s.erased column expr).columns.map fun c =>
        p c.expr ++ [.word "AS", .word c.name])) =
      placesOf (joined [.sign ","] (s.columns.map fun c =>
        p c.expr ++ [.word "AS", .word c.name])) := by
    rw [placesOf_joined, placesOf_joined]
    simp [erased, mapParts, Function.comp_def, hp]
  have hwhere : placesOf (wherePieces ((s.erased column expr).predicates.map q)) =
      placesOf (wherePieces (s.predicates.map q)) :=
    placesOf_wherePieces (by simp [erased, mapParts, Function.comp_def, hq])
  have hgroup : placesOf (groupPieces ((s.erased column expr).groups.map q)) =
      placesOf (groupPieces (s.groups.map q)) :=
    placesOf_groupPieces (by simp [erased, mapParts, Function.comp_def, hq])
  have horder : placesOf (orderPieces ((s.erased column expr).order.map fun k =>
        q k.expr ++ [.word k.direction.keyword])) =
      placesOf (orderPieces (s.order.map fun k => q k.expr ++ [.word k.direction.keyword])) :=
    placesOf_orderPieces (by simp [erased, mapParts, Function.comp_def, hq])
  have hlimit : limitPieces (s.erased column expr).limit (s.erased column expr).offset =
      limitPieces s.limit s.offset := rfl
  unfold pieces
  simp only [placesOf_append, placesOf_cons, hcolumns, hsource, hwhere, hgroup, horder, hlimit]

/-- The skeleton of a statement does not depend on texts from outside. -/
theorem Statement.skeleton_erased (s : Statement) :
    (Statement.erased s).skeleton = Statement.skeleton s := by
  refine Select.placesOf_erased (fun o => ?_) Expr.placesOf_erased s
  cases o with
  | expr e => exact Expr.placesOf_erased e
  | subselect s =>
    have hs := Select.placesOf_erased Expr.placesOf_erased Expr.placesOf_erased s
    simp only [Output.erased, Output.pieces, placesOf_append, placesOf_cons]
    rw [Subselect.erased, Subselect.pieces, hs, ← Subselect.pieces]

/-! ## One statement only -/

/-- Texts that fill places bring no sign that ends a statement. -/
theorem Fills.semicolon {ps : List Place} {us : List UserText} {ts : List Token}
    (h : Fills ps us ts) (hps : Place.fixed (.sign ";") ∉ ps) : Token.sign ";" ∉ ts := by
  induction h with
  | nil => exact List.not_mem_nil
  | fixed t _ ih =>
    simp only [List.mem_cons, Place.fixed.injEq, not_or] at hps ⊢
    exact ⟨hps.1, ih hps.2⟩
  | index s _ ih | field s _ ih | text s _ _ ih | bound s _ ih =>
    simp only [List.mem_cons, not_or] at hps ⊢
    exact ⟨by simp, ih hps.2⟩
  | integer s n _ _ ih =>
    simp only [List.mem_cons, List.mem_append, not_or] at hps ⊢
    refine ⟨?_, ih hps.2⟩
    cases n <;> simp [integerTokens]

/-- What stands neither in some lists nor between them is not in the joined list. -/
theorem not_mem_joined {α : Type} {between : List α} {l : List (List α)} {x : α}
    (hb : x ∉ between) (hl : ∀ a ∈ l, x ∉ a) : x ∉ joined between l := by
  induction l with
  | nil => exact List.not_mem_nil
  | cons a rest ih =>
    have ha := hl a List.mem_cons_self
    have hrest := ih fun b hb => hl b (List.mem_cons_of_mem a hb)
    cases rest with
    | nil => exact ha
    | cons b rest =>
      simp only [joined, List.mem_append, not_or]
      exact ⟨⟨ha, hb⟩, hrest⟩

@[simp] theorem Piece.sign_inj {a b : String} : Piece.sign a = Piece.sign b ↔ a = b := by
  simp [Piece.sign]

@[simp] theorem Piece.sign_ne_word {a b : String} : Piece.sign a ≠ Piece.word b := by
  simp [Piece.sign, Piece.word]

@[simp] theorem Piece.sign_ne_number {a : String} {n : Nat} :
    Piece.sign a ≠ .fixed (.number n) := by
  simp [Piece.sign]

@[simp] theorem Piece.sign_ne_index {a name : String} : Piece.sign a ≠ .index name := by
  simp [Piece.sign]

@[simp] theorem Piece.sign_ne_field {a name : String} : Piece.sign a ≠ .field name := by
  simp [Piece.sign]

@[simp] theorem Piece.sign_ne_constant {a : String} {l : Literal} :
    Piece.sign a ≠ .constant l := by
  simp [Piece.sign]

/-- No expression has a sign that ends a statement. -/
theorem Expr.semicolon (e : Expr) : Piece.sign ";" ∉ e.pieces := by
  induction e with
  | field qualifier name => cases qualifier <;> simp [pieces, fieldPieces]
  | coalesce a b iha ihb => simp [pieces, iha, ihb]
  | compare op a b iha ihb => cases op <;> simp [pieces, Comparison.sign, iha, ihb]
  | datetime a ih | avg a ih | max a ih => simp [pieces, ih]
  | _ => simp [pieces]

/-- No statement has a sign that ends it if its expressions have none. -/
theorem Select.semicolon {κ ε : Type} {p : κ → List Piece} {q : ε → List Piece}
    (hp : ∀ k, Piece.sign ";" ∉ p k) (hq : ∀ e, Piece.sign ";" ∉ q e)
    (s : Select κ ε SortDirection) : Piece.sign ";" ∉ s.pieces p q := by
  have hcolumns : Piece.sign ";" ∉ joined [.sign ","]
      (s.columns.map fun c => p c.expr ++ [.word "AS", .word c.name]) :=
    not_mem_joined (by simp) (by simp [hp])
  have hsource : Piece.sign ";" ∉ (s.source.map Source.pieces).getD [] := by
    rcases s.source with _ | ⟨table, _ | name⟩ <;> simp [Source.pieces]
  have hwhere : Piece.sign ";" ∉ wherePieces (s.predicates.map q) := by
    have hjoined : Piece.sign ";" ∉ joined [.word "AND"] (s.predicates.map q) :=
      not_mem_joined (by simp) (by simp [hq])
    cases hl : s.predicates.map q <;> simp_all [wherePieces]
  have hgroup : Piece.sign ";" ∉ groupPieces (s.groups.map q) := by
    have hjoined : Piece.sign ";" ∉ joined [.sign ","] (s.groups.map q) :=
      not_mem_joined (by simp) (by simp [hq])
    cases hl : s.groups.map q <;> simp_all [groupPieces]
  have horder : Piece.sign ";" ∉
      orderPieces (s.order.map fun k => q k.expr ++ [.word k.direction.keyword]) := by
    have hjoined : Piece.sign ";" ∉ joined [.sign ","]
        (s.order.map fun k => q k.expr ++ [.word k.direction.keyword]) :=
      not_mem_joined (by simp) (by simp [hq])
    cases hl : s.order.map fun k => q k.expr ++ [.word k.direction.keyword] <;>
      simp_all [orderPieces]
  have hlimit : Piece.sign ";" ∉ limitPieces s.limit s.offset := by
    rcases s.limit with _ | n <;> rcases s.offset with _ | _ | m <;> simp [limitPieces]
  simp [pieces, hcolumns, hsource, hwhere, hgroup, horder, hlimit]

/-- No skeleton has a sign that ends a statement. -/
theorem Statement.semicolon (s : Statement) :
    Place.fixed (.sign ";") ∉ Statement.skeleton s := by
  have hpieces : Piece.sign ";" ∉ Statement.pieces s := by
    refine Select.semicolon (fun o => ?_) Expr.semicolon s
    cases o with
    | expr e => exact e.semicolon
    | subselect s =>
      have hs := Select.semicolon Expr.semicolon Expr.semicolon s
      simpa [Output.pieces, Subselect.pieces] using hs
  intro h
  obtain ⟨p, hp, hplace⟩ := List.mem_map.mp h
  cases p with
  | fixed t =>
    obtain rfl : t = .sign ";" := Place.fixed.inj hplace
    exact hpieces hp
  | index name => cases hplace
  | field name => cases hplace
  | constant l => cases hplace

end Quarry.Sql
