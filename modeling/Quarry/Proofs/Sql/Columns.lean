/-
# Columns of statements

What a statement selects, as it can be read in its text.

* `readColumns`, `columnsOf` — the columns in the tokens of a statement: the tokens of an expression
  and the name after it.
* `Passes` — tokens that stand inside an expression, under some number of open brackets.
* `columnsOf_pieces`, `Statement.reads_columns` — in the text of a statement stand its columns, in their
  order and with their names.
-/
import Quarry.Proofs.Sql.Pieces

namespace Quarry.Sql

open Quarry.Request Quarry.Text

/-! ## Reading columns -/

/-- The number of open brackets after a token. -/
def Token.depthAfter (depth : Nat) (t : Token) : Nat :=
  if t = .sign "(" then depth + 1 else if t = .sign ")" then depth - 1 else depth

/-- Reads columns: outside brackets `AS` ends an expression, and the name comes after it. A comma
leads to the next column, and `FROM` ends them. -/
def readColumns : Nat → List Token → List Token → Option (List (List Token × String))
  | depth, read, t :: rest =>
    if depth = 0 ∧ t = .word "AS" then
      match rest with
      | .word name :: t :: rest =>
        if t = .sign "," then (readColumns 0 [] rest).map ((read, name) :: ·)
        else if t = .word "FROM" then some [(read, name)]
        else none
      | _ => none
    else readColumns (t.depthAfter depth) (read ++ [t]) rest
  | _, _, [] => none

/-- The columns in the tokens of a statement. -/
def columnsOf : List Token → Option (List (List Token × String))
  | t :: rest => if t = .word "SELECT" then readColumns 0 [] rest else none
  | [] => none

/-! ## Tokens inside expressions -/

/-- Under so many open brackets at least, tokens belong to the expression that is read, and they
close the brackets that they open. -/
def Passes (least : Nat) (ts : List Token) : Prop :=
  ∀ depth read rest, least ≤ depth →
    readColumns depth read (ts ++ rest) = readColumns depth (read ++ ts) rest

namespace Passes

variable {least : Nat} {ts us : List Token}

theorem nil : Passes least [] := by
  intro depth read rest _
  rw [List.append_nil, List.nil_append]

theorem append (ht : Passes least ts) (hu : Passes least us) : Passes least (ts ++ us) := by
  intro depth read rest hdepth
  rw [List.append_assoc, ht depth read _ hdepth, hu depth _ rest hdepth, List.append_assoc]

/-- A token that is not `AS` outside brackets belongs to the expression. -/
theorem readColumns_cons {t : Token} {depth : Nat} (h : depth = 0 → t ≠ .word "AS")
    (read rest : List Token) :
    readColumns depth read (t :: rest) = readColumns (t.depthAfter depth) (read ++ [t]) rest := by
  rw [readColumns.eq_def]
  exact if_neg fun hboth => h hboth.1 hboth.2

/-- A token that is no bracket. -/
theorem token {t : Token} (hopen : t ≠ .sign "(") (hclose : t ≠ .sign ")")
    (has : least = 0 → t ≠ .word "AS") : Passes least [t] := by
  intro depth read rest hdepth
  have hsame : t.depthAfter depth = depth := by rw [Token.depthAfter, if_neg hopen, if_neg hclose]
  have hname : depth = 0 → t ≠ .word "AS" := fun hzero => has (Nat.le_zero.mp (hzero ▸ hdepth))
  rw [List.singleton_append, readColumns_cons hname, hsame]

theorem word {s : String} (h : least = 0 → s ≠ "AS") : Passes least (tokensOf [.word s]) :=
  token (fun h => nomatch h) (fun h => nomatch h) fun hzero heq => h hzero (Token.word.inj heq)

/-- In brackets a word may be any. -/
theorem inner_word (s : String) : Passes (least + 1) (tokensOf [.word s]) :=
  word fun hzero => absurd hzero least.succ_ne_zero

/-- A token that a reader of columns does not look for. -/
theorem plain {t : Token} (h : t ≠ .sign "(" ∧ t ≠ .sign ")" ∧ t ≠ .word "AS") :
    Passes least [t] :=
  token h.1 h.2.1 fun _ => h.2.2

theorem comma : Passes least (tokensOf [.sign ","]) := plain (by simp)

theorem number (n : Nat) : Passes least [.number n] := plain (by simp)

/-- Tokens in brackets. -/
theorem bracketed (h : Passes (least + 1) ts) :
    Passes least (.sign "(" :: ts ++ [.sign ")"]) := by
  intro depth read rest hdepth
  have hopen : (Token.sign "(").depthAfter depth = depth + 1 := rfl
  have hclose : (Token.sign ")").depthAfter (depth + 1) = depth := rfl
  have hsign : ∀ s d, d = 0 → Token.sign s ≠ .word "AS" := fun s d _ h => nomatch h
  rw [List.append_assoc, List.cons_append, readColumns_cons (hsign _ _), hopen,
    h (depth + 1) _ _ (Nat.succ_le_succ hdepth), List.singleton_append,
    readColumns_cons (hsign _ _), hclose]
  simp

/-- Tokens with one list of them between any two. -/
theorem joined {between : List Piece} (hbetween : Passes least (tokensOf between))
    {l : List (List Piece)} (h : ∀ ps ∈ l, Passes least (tokensOf ps)) :
    Passes least (tokensOf (Sql.joined between l)) := by
  induction l with
  | nil => exact nil
  | cons ps rest ih =>
    have hps := h ps List.mem_cons_self
    have hrest := ih fun qs hqs => h qs (List.mem_cons_of_mem ps hqs)
    cases rest with
    | nil => exact hps
    | cons qs rest =>
      rw [Sql.joined, tokensOf_append, tokensOf_append]
      exact (hps.append hbetween).append hrest

end Passes

/-! ## Expressions -/

/-- No column called `AS` stands outside the brackets of an expression. -/
def Expr.Unnamed : Expr → Prop
  | .column name => name ≠ "AS"
  | .compare _ a b => a.Unnamed ∧ b.Unnamed
  | _ => True

theorem Literal.passes {least : Nat} (l : Literal) : Passes least l.tokens := by
  cases l with
  | integer n =>
    cases n with
    | ofNat n => exact .number n
    | negSucc n =>
      have hsign : Passes least [.sign "-"] := .plain (by simp)
      exact hsign.append (.number (n + 1))
  | text s => exact .plain (by simp)

/-- The name of a function and what stands in its brackets. -/
theorem Passes.call {least : Nat} {f : String} (hf : f ≠ "AS") {ps : List Piece}
    (h : Passes (least + 1) (tokensOf ps)) :
    Passes least (tokensOf ([.word f, .sign "("] ++ ps ++ [.sign ")"])) := by
  rw [tokensOf_append, tokensOf_append]
  exact (Passes.word fun _ => hf).append h.bracketed

/-- The tokens of an expression belong to it. -/
theorem Expr.passes {least : Nat} {e : Expr} (h : least = 0 → e.Unnamed) :
    Passes least (tokensOf e.pieces) := by
  -- In the brackets of a function any name may stand.
  have hinner : ∀ n {P : Prop}, n + 1 = 0 → P := fun n _ h => absurd h n.succ_ne_zero
  induction e generalizing least with
  | rowid => exact .word fun _ => by decide
  | document => exact .call (f := "JSON") (by decide) (.inner_word "content")
  | field qualifier name =>
    have hrest : Passes (least + 1) (tokensOf [.word "content", .sign ",", .field name]) :=
      ((Passes.inner_word "content").append .comma).append (.plain (by simp))
    cases qualifier with
    | none => exact .call (f := "JSON_EXTRACT") (by decide) hrest
    | some q =>
      have hdot : Passes (least + 1) [.sign "."] := .plain (by simp)
      have hall : Passes (least + 1)
          (tokensOf [.word q, .sign ".", .word "content", .sign ",", .field name]) :=
        ((Passes.inner_word q).append hdot).append hrest
      exact .call (f := "JSON_EXTRACT") (by decide) hall
  | constant l =>
    show Passes least (l.tokens ++ [])
    rw [List.append_nil]
    exact l.passes
  | coalesce a b iha ihb =>
    have hboth := ((iha (hinner least)).append .comma).append (ihb (hinner least))
    rw [← tokensOf_append, ← tokensOf_append] at hboth
    simpa only [Expr.pieces, List.append_assoc] using Passes.call (f := "COALESCE") (by decide) hboth
  | datetime a ih => exact .call (by decide) (ih (hinner least))
  | compare op a b iha ihb =>
    have hsign : Passes least (tokensOf [.sign op.sign]) := by
      cases op <;> exact .plain (by simp [Comparison.sign])
    rw [Expr.pieces, tokensOf_append, tokensOf_append]
    exact ((iha fun hzero => (h hzero).1).append hsign).append (ihb fun hzero => (h hzero).2)
  | count =>
    have hstar : Passes (least + 1) (tokensOf [.sign "*"]) := .plain (by simp)
    exact .call (f := "COUNT") (by decide) hstar
  | avg a ih => exact .call (by decide) (ih (hinner least))
  | max a ih => exact .call (by decide) (ih (hinner least))
  | column name => exact .word h

/-! ## Statements in brackets -/

section

variable {least : Nat} {l : List (List Piece)} (h : ∀ ps ∈ l, Passes (least + 1) (tokensOf ps))

include h

theorem passes_wherePieces : Passes (least + 1) (tokensOf (wherePieces l)) := by
  have hwhere : Passes (least + 1) (tokensOf [.word "WHERE"]) := .inner_word _
  cases l with
  | nil =>
    have hsign : Passes (least + 1) [.sign "="] := .plain (by simp)
    exact hwhere.append (((Passes.number 1).append hsign).append (.number 1))
  | cons ps rest => exact hwhere.append (.joined (.inner_word "AND") h)

theorem passes_groupPieces : Passes (least + 1) (tokensOf (groupPieces l)) := by
  cases l with
  | nil => exact .nil
  | cons ps rest =>
    exact ((Passes.inner_word "GROUP").append (.inner_word "BY")).append (.joined .comma h)

theorem passes_orderPieces : Passes (least + 1) (tokensOf (orderPieces l)) := by
  cases l with
  | nil => exact .nil
  | cons ps rest =>
    exact ((Passes.inner_word "ORDER").append (.inner_word "BY")).append (.joined .comma h)

end

theorem passes_limitPieces {least : Nat} (limit offset : Option Nat) :
    Passes (least + 1) (tokensOf (limitPieces limit offset)) := by
  cases limit with
  | none => exact .nil
  | some n =>
    have hlimit : Passes (least + 1) (tokensOf [.word "LIMIT", .fixed (.number n)]) :=
      (Passes.inner_word "LIMIT").append (.number n)
    rcases offset with _ | _ | m
    · exact hlimit
    · exact hlimit
    · exact hlimit.append ((Passes.inner_word "OFFSET").append (.number (m + 1)))

/-- In brackets a whole statement belongs to an expression. -/
theorem Select.passes {κ ε : Type} {least : Nat} {column : κ → List Piece} {expr : ε → List Piece}
    {s : Select κ ε SortDirection}
    (hcolumn : ∀ c ∈ s.columns, Passes (least + 1) (tokensOf (column c.expr)))
    (hexpr : ∀ e, Passes (least + 1) (tokensOf (expr e))) :
    Passes (least + 1) (tokensOf (s.pieces column expr)) := by
  have hcolumns : Passes (least + 1) (tokensOf (joined [.sign ","]
      (s.columns.map fun c => column c.expr ++ [.word "AS", .word c.name]))) := by
    refine .joined .comma fun ps hps => ?_
    obtain ⟨c, hc, rfl⟩ := List.mem_map.mp hps
    rw [tokensOf_append]
    exact (hcolumn c hc).append ((Passes.inner_word "AS").append (.inner_word c.name))
  have hsource : Passes (least + 1) (tokensOf ((s.source.map Source.pieces).getD [])) := by
    have hname : ∀ table, Passes (least + 1) [.name table] := fun _ => .plain (by simp)
    rcases s.source with _ | ⟨table, _ | name⟩
    · exact .nil
    · exact hname table
    · exact (hname table).append ((Passes.inner_word "AS").append (.inner_word name))
  have hmapped : ∀ (l : List ε), ∀ ps ∈ l.map expr, Passes (least + 1) (tokensOf ps) := by
    intro l ps hps
    obtain ⟨e, -, rfl⟩ := List.mem_map.mp hps
    exact hexpr e
  have horder : ∀ ps ∈ s.order.map fun k => expr k.expr ++ [.word k.direction.keyword],
      Passes (least + 1) (tokensOf ps) := by
    intro ps hps
    obtain ⟨k, -, rfl⟩ := List.mem_map.mp hps
    rw [tokensOf_append]
    exact (hexpr k.expr).append (Passes.inner_word _)
  unfold Select.pieces
  simp only [tokensOf_append]
  exact (((((((Passes.inner_word "SELECT").append hcolumns).append (Passes.inner_word "FROM")).append hsource).append
    (passes_wherePieces (hmapped _))).append (passes_groupPieces (hmapped _))).append
    (passes_orderPieces horder)).append (passes_limitPieces _ _)

/-- The tokens of a statement in the place of one value, with its brackets. -/
theorem Output.passes {least : Nat} {o : Output}
    (h : least = 0 → ∀ e, o = .expr e → e.Unnamed) : Passes least (tokensOf o.pieces) := by
  cases o with
  | expr e => exact Expr.passes fun hzero => h hzero e rfl
  | subselect s =>
    have hs : Passes (least + 1) (tokensOf (Subselect.pieces s)) :=
      Select.passes (fun c _ => Expr.passes fun h => absurd h least.succ_ne_zero)
        fun e => Expr.passes fun h => absurd h least.succ_ne_zero
    show Passes least (.sign "(" :: tokensOf (Subselect.pieces s ++ [.sign ")"]))
    rw [tokensOf_append]
    exact hs.bracketed

/-! ## Reading columns of statements -/

/-- After an expression and `AS` come the name of the column and what follows it. -/
theorem readColumns_column {ts : List Token} (h : Passes 0 ts) (name : String) (t : Token)
    (rest : List Token) : readColumns 0 [] (ts ++ .word "AS" :: .word name :: t :: rest) =
      if t = .sign "," then (readColumns 0 [] rest).map ((ts, name) :: ·)
      else if t = .word "FROM" then some [(ts, name)] else none := by
  rw [h 0 [] _ (le_refl 0), List.nil_append, readColumns, if_pos ⟨rfl, rfl⟩]

/-- The columns are read one after another, up to the table. -/
theorem readColumns_joined {κ : Type} {column : κ → List Piece} {l : List (Column κ)} (hne : l ≠ [])
    (h : ∀ c ∈ l, Passes 0 (tokensOf (column c.expr))) (rest : List Token) :
    readColumns 0 [] (tokensOf (joined [.sign ","]
        (l.map fun c => column c.expr ++ [.word "AS", .word c.name])) ++ .word "FROM" :: rest) =
      some (l.map fun c => (tokensOf (column c.expr), c.name)) := by
  induction l with
  | nil => exact absurd rfl hne
  | cons c l ih =>
    have hc := readColumns_column (h c List.mem_cons_self) c.name
    cases l with
    | nil =>
      have hread := hc (.word "FROM") rest
      rw [if_neg (by simp), if_pos rfl] at hread
      simpa [joined, Piece.word, Piece.tokens] using hread
    | cons d l =>
      have hread := hc (.sign ",") (tokensOf (joined [.sign ","]
        ((d :: l).map fun c => column c.expr ++ [.word "AS", .word c.name])) ++ .word "FROM" :: rest)
      rw [if_pos rfl, ih (List.cons_ne_nil d l) fun c hc => h c (List.mem_cons_of_mem _ hc)] at hread
      simpa [joined, Piece.word, Piece.sign, Piece.tokens] using hread

/-- In the tokens of a statement stand its columns with their names. -/
theorem columnsOf_pieces {κ ε : Type} {column : κ → List Piece} {expr : ε → List Piece}
    {s : Select κ ε SortDirection} (hne : s.columns ≠ [])
    (h : ∀ c ∈ s.columns, Passes 0 (tokensOf (column c.expr))) :
    columnsOf (tokensOf (s.pieces column expr)) =
      some (s.columns.map fun c => (tokensOf (column c.expr), c.name)) := by
  have hread := readColumns_joined hne h (tokensOf ((s.source.map Source.pieces).getD [] ++
    wherePieces (s.predicates.map expr) ++ groupPieces (s.groups.map expr) ++
    orderPieces (s.order.map fun k => expr k.expr ++ [.word k.direction.keyword]) ++
    limitPieces s.limit s.offset))
  rw [← hread]
  simp [Select.pieces, columnsOf, Piece.word, Piece.tokens]

/-- In the text of a statement stand its columns with their names. -/
theorem Statement.reads_columns {s : Statement} (hs : Statement.Plain s) (hne : s.columns ≠ [])
    (h : ∀ c ∈ s.columns, ∀ e, c.expr = .expr e → e.Unnamed) :
    ∃ ts, lex (Statement.sql s) = some ts ∧
      columnsOf ts = some (s.columns.map fun c => (tokensOf c.expr.pieces, c.name)) :=
  ⟨_, (Statement.reads hs).lex, columnsOf_pieces hne fun c hc => Output.passes fun _ => h c hc⟩

end Quarry.Sql
