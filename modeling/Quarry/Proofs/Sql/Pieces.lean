/-
# Pieces of statements

What the text of a statement is made of, and how it falls into tokens.

* `Piece` — a fixed token, or what came from outside: the name of a table, a field or a constant.
* `Expr.pieces`, `Subselect.pieces`, `Statement.pieces` — the pieces in the order of the text.
* `Expr.Plain`, `Statement.Plain` — the names that stand without marks are words.
* `Statement.reads` — the text of such a statement falls into the tokens of its pieces.
-/
import Quarry.Proofs.Sql.Lexer
import Quarry.Sql.Expr

namespace Quarry.Sql

open Quarry.Request Quarry.Text

/-! ## Pieces -/

/-- The tokens of a constant. -/
def Literal.tokens : Literal → List Token
  | .integer n => integerTokens n
  | .text s => [.literal s]

/-- A piece of a statement. -/
inductive Piece where
  | fixed (t : Token)
  /-- The name of the table that is read. -/
  | index (name : String)
  /-- The path of a field. -/
  | field (name : String)
  | constant (l : Literal)
  deriving DecidableEq, Repr

/-- The tokens of a piece. -/
def Piece.tokens : Piece → List Token
  | .fixed t => [t]
  | .index name => [.name name]
  | .field name => [.literal (fieldPath name)]
  | .constant l => l.tokens

/-- The tokens of some pieces. -/
def tokensOf (ps : List Piece) : List Token := ps.flatMap Piece.tokens

/-- A fixed word. -/
def Piece.word (s : String) : Piece := .fixed (.word s)

/-- A fixed sign. -/
def Piece.sign (s : String) : Piece := .fixed (.sign s)

@[simp] theorem tokensOf_nil : tokensOf [] = [] := rfl

@[simp] theorem tokensOf_cons (p : Piece) (ps : List Piece) :
    tokensOf (p :: ps) = p.tokens ++ tokensOf ps := rfl

@[simp] theorem tokensOf_append (ps qs : List Piece) :
    tokensOf (ps ++ qs) = tokensOf ps ++ tokensOf qs := List.flatMap_append

/-- Lists one after another with one between them. -/
def joined {α : Type} (between : List α) : List (List α) → List α
  | [] => []
  | [a] => a
  | a :: b :: rest => a ++ between ++ joined between (b :: rest)

/-! ## Pieces of expressions -/

/-- The pieces of a field. -/
def fieldPieces (qualifier : Option String) (name : String) : List Piece :=
  [.word "JSON_EXTRACT", .sign "("] ++
    (match qualifier with
      | some q => [.word q, .sign "."]
      | none => []) ++
    [.word "content", .sign ",", .field name, .sign ")"]

/-- The pieces of an expression. -/
def Expr.pieces : Expr → List Piece
  | .rowid => [.word "rowid"]
  | .document => [.word "JSON", .sign "(", .word "content", .sign ")"]
  | .field qualifier name => fieldPieces qualifier name
  | .constant l => [.constant l]
  | .coalesce a b =>
    [.word "COALESCE", .sign "("] ++ a.pieces ++ [.sign ","] ++ b.pieces ++ [.sign ")"]
  | .datetime a => [.word "DATETIME", .sign "("] ++ a.pieces ++ [.sign ")"]
  | .compare op a b => a.pieces ++ [.sign op.sign] ++ b.pieces
  | .count => [.word "COUNT", .sign "(", .sign "*", .sign ")"]
  | .avg a => [.word "AVG", .sign "("] ++ a.pieces ++ [.sign ")"]
  | .max a => [.word "MAX", .sign "("] ++ a.pieces ++ [.sign ")"]
  | .column name => [.word name]

/-! ## Pieces of statements -/

/-- The pieces of a table. -/
def Source.pieces (s : Source) : List Piece :=
  match s.name with
  | some name => [.index s.table, .word "AS", .word name]
  | none => [.index s.table]

/-- The pieces of predicates. -/
def wherePieces : List (List Piece) → List Piece
  | [] => [.word "WHERE", .fixed (.number 1), .sign "=", .fixed (.number 1)]
  | ps => .word "WHERE" :: joined [.word "AND"] ps

/-- The pieces of groups. -/
def groupPieces : List (List Piece) → List Piece
  | [] => []
  | gs => [.word "GROUP", .word "BY"] ++ joined [.sign ","] gs

/-- The pieces of an order. -/
def orderPieces : List (List Piece) → List Piece
  | [] => []
  | ks => [.word "ORDER", .word "BY"] ++ joined [.sign ","] ks

/-- The pieces of limit and offset. -/
def limitPieces (limit offset : Option Nat) : List Piece :=
  match limit with
  | none => []
  | some n =>
    [.word "LIMIT", .fixed (.number n)] ++
      match offset with
      | some (m + 1) => [.word "OFFSET", .fixed (.number (m + 1))]
      | _ => []

/-- The pieces of a statement, given those of its columns and other expressions. -/
def Select.pieces {κ ε : Type} (column : κ → List Piece) (expr : ε → List Piece)
    (s : Select κ ε SortDirection) : List Piece :=
  .word "SELECT" ::
    joined [.sign ","] (s.columns.map fun c => column c.expr ++ [.word "AS", .word c.name]) ++
    [.word "FROM"] ++ (s.source.map Source.pieces).getD [] ++
    wherePieces (s.predicates.map expr) ++ groupPieces (s.groups.map expr) ++
    orderPieces (s.order.map fun k => expr k.expr ++ [.word k.direction.keyword]) ++
    limitPieces s.limit s.offset

/-- The pieces of a statement in the place of one value. -/
def Subselect.pieces (s : Subselect) : List Piece := Select.pieces Expr.pieces Expr.pieces s

/-- The pieces of a result column. -/
def Output.pieces : Output → List Piece
  | .expr e => e.pieces
  | .subselect s => .sign "(" :: Subselect.pieces s ++ [.sign ")"]

/-- The pieces of a statement. -/
def Statement.pieces (s : Statement) : List Piece := Select.pieces Output.pieces Expr.pieces s

/-! ## Names without marks -/

/-- The names in an expression that stand without marks are words. -/
def Expr.Plain : Expr → Prop
  | .field (some q) _ => isWord q = true
  | .column name => isWord name = true
  | .coalesce a b => a.Plain ∧ b.Plain
  | .datetime a => a.Plain
  | .compare _ a b => a.Plain ∧ b.Plain
  | .avg a => a.Plain
  | .max a => a.Plain
  | _ => True

/-- The names in a statement that stand without marks are words. -/
structure Select.Plain {κ ε : Type} (column : κ → Prop) (expr : ε → Prop)
    (s : Select κ ε SortDirection) : Prop where
  columns : ∀ c ∈ s.columns, column c.expr ∧ isWord c.name = true
  source : ∀ t ∈ s.source, ∀ name ∈ t.name, isWord name = true
  predicates : ∀ e ∈ s.predicates, expr e
  groups : ∀ e ∈ s.groups, expr e
  order : ∀ k ∈ s.order, expr k.expr

/-- The names in a statement in the place of one value are words. -/
def Subselect.Plain (s : Subselect) : Prop := Select.Plain Expr.Plain Expr.Plain s

/-- The names in a result column are words. -/
def Output.Plain : Output → Prop
  | .expr e => e.Plain
  | .subselect s => Subselect.Plain s

/-- The names in a statement are words. -/
def Statement.Plain (s : Statement) : Prop := Select.Plain Output.Plain Expr.Plain s

/-! ## Fixed text between pieces -/

/-- A text that ends what stands before it and leads to the next token. -/
structure Separates (text : String) (ts : List Token) : Prop where
  closes : ∃ c ∈ Lexer.closers, text.toList.head? = some c
  leads : Leads text ts

/-- What a separating text begins closes what stands before it. -/
theorem Separates.closes_append {text : String} {ts : List Token} (h : Separates text ts)
    (b : String) : Closes (text ++ b) := by
  obtain ⟨c, hc, hhead⟩ := h.closes
  intro d hd
  rw [String.toList_append, List.head?_append, hhead] at hd
  simp only [Option.some_or, Option.mem_some_iff] at hd
  rw [← hd]
  exact hc

/-- Text between two tokens falls into its tokens. -/
theorem Leads.reads {text : String} {ts : List Token} (h : Leads text ts) : Reads text ts :=
  ⟨ts, [], .between, h, trivial, rfl, (List.append_nil ts).symm⟩

/-- A text that can stand behind any other one that can be read. -/
structure Follows (text : String) (ts : List Token) : Prop where
  closes : Closes text
  reads : Reads text ts

/-- Nothing can stand behind any text. -/
theorem Follows.empty : Follows "" [] := ⟨fun c hc => by simp at hc, Reads.empty⟩

/-- A separating text and what comes after it can stand behind any text. -/
theorem Separates.follows {text b : String} {ts us : List Token} (h : Separates text ts)
    (hb : Reads b us) : Follows (text ++ b) (ts ++ us) := ⟨h.closes_append b, hb.after h.leads⟩

/-- Two texts with a separating one between them. -/
theorem Reads.separated {a text b : String} {ts us vs : List Token} (ha : Reads a ts)
    (h : Separates text us) (hb : Reads b vs) : Reads (a ++ text ++ b) (ts ++ (us ++ vs)) := by
  rw [String.append_assoc]
  exact ha.append (hb.after h.leads) (h.closes_append b)

/-- A text in brackets, or after the name of a function with its opening bracket. -/
theorem Reads.bracketed {p a : String} {ps ts : List Token} (hp : Leads p ps) (ha : Reads a ts) :
    Reads (p ++ a ++ ")") (ps ++ ts ++ tokensOf [.sign ")"]) := by
  have hclose : Separates ")" (tokensOf [.sign ")"]) := ⟨⟨')', by decide, rfl⟩, rfl⟩
  refine (ha.after hp).append hclose.leads.reads ?_
  exact hclose.closes_append ""

/-- A list of texts with a separating one between them. -/
theorem reads_separated {α : Type} {text : String} {between : List Piece} (f : α → String)
    (g : α → List Piece) (h : Separates text (tokensOf between)) {l : List α}
    (hl : ∀ a ∈ l, Reads (f a) (tokensOf (g a))) :
    Reads (separated text (l.map f)) (tokensOf (joined between (l.map g))) := by
  induction l with
  | nil => exact Reads.empty
  | cons a rest ih =>
    have ha := hl a List.mem_cons_self
    have hrest := ih fun b hb => hl b (List.mem_cons_of_mem a hb)
    cases rest with
    | nil => exact ha
    | cons b rest =>
      simp only [List.map_cons, separated, joined, tokensOf_append, List.append_assoc]
        at hrest ⊢
      exact ha.separated h hrest

theorem separates_comma : Separates ", " (tokensOf [.sign ","]) := ⟨⟨',', by decide, rfl⟩, rfl⟩

theorem separates_and : Separates " AND " (tokensOf [.word "AND"]) := ⟨⟨' ', by decide, rfl⟩, rfl⟩

theorem separates_as : Separates " AS " (tokensOf [.word "AS"]) := ⟨⟨' ', by decide, rfl⟩, rfl⟩

theorem separates_from : Separates " FROM " (tokensOf [.word "FROM"]) :=
  ⟨⟨' ', by decide, rfl⟩, rfl⟩

/-! ## Reading expressions -/

/-- The sign of a comparison between two texts. -/
theorem Comparison.separates (op : Comparison) :
    Separates (" " ++ op.sign ++ " ") (tokensOf [.sign op.sign]) := by
  cases op <;> exact ⟨⟨' ', by decide, rfl⟩, rfl⟩

/-- A constant falls into its tokens. -/
theorem Literal.reads (l : Literal) : Reads l.sql l.tokens := by
  cases l with
  | integer n => exact reads_ofInt n
  | text s => exact reads_stringLiteral s

/-- The text of a field in front of its path. -/
theorem leads_fieldSql {q : String} (hq : isWord q = true) :
    Leads ("JSON_EXTRACT(" ++ q ++ ".content, ")
      [.word "JSON_EXTRACT", .sign "(", .word q, .sign ".", .word "content", .sign ","] := by
  have hopen : Lexer.run .between "JSON_EXTRACT(".toList =
      some ([.word "JSON_EXTRACT", .sign "("], .between) := rfl
  have hdot : Lexer.step (.word q.toList) '.' = some ([.word q], .sign '.') := by
    simp [Lexer.step, show Lexer.continuesWord '.' = false by decide, Lexer.next, Lexer.flush,
      show Lexer.start '.' = some ([], .sign '.') from rfl]
  have hrest : Lexer.run (.sign '.') "content, ".toList =
      some ([.sign ".", .word "content", .sign ","], .between) := rfl
  have hcontent : ".content, ".toList = '.' :: "content, ".toList := rfl
  unfold Leads
  rw [String.append_assoc, String.toList_append, String.toList_append, hcontent]
  refine Lexer.run_append hopen ?_
  rw [Lexer.run_append_silent (run_of_isWord hq)]
  exact Lexer.run_cons hdot hrest

/-- The text of a field falls into its tokens. -/
theorem reads_fieldSql {qualifier : Option String} (h : ∀ q ∈ qualifier, isWord q = true)
    (name : String) : Reads (fieldSql qualifier name) (tokensOf (fieldPieces qualifier name)) := by
  cases qualifier with
  | none =>
    have hopen : Leads "JSON_EXTRACT(content, "
        [.word "JSON_EXTRACT", .sign "(", .word "content", .sign ","] := rfl
    exact Reads.bracketed hopen (reads_stringLiteral (fieldPath name))
  | some q => exact Reads.bracketed (leads_fieldSql (h q rfl)) (reads_stringLiteral (fieldPath name))

/-- The text of an expression falls into the tokens of its pieces. -/
theorem Expr.reads {e : Expr} (h : e.Plain) : Reads e.sql (tokensOf e.pieces) := by
  induction e with
  | rowid => exact reads_word (by decide)
  | document => exact Leads.reads rfl
  | field qualifier name =>
    refine reads_fieldSql ?_ name
    rintro q rfl
    exact h
  | constant l =>
    have hl := l.reads
    rwa [← List.append_nil l.tokens] at hl
  | coalesce a b iha ihb =>
    have hopen : Leads "COALESCE(" (tokensOf [.word "COALESCE", .sign "("]) := rfl
    have hboth := (iha h.1).separated separates_comma (ihb h.2)
    have hall := Reads.bracketed hopen hboth
    simpa only [Expr.sql, Expr.pieces, tokensOf_append, String.append_assoc, List.append_assoc]
      using hall
  | datetime a ih =>
    have hopen : Leads "DATETIME(" (tokensOf [.word "DATETIME", .sign "("]) := rfl
    simpa only [Expr.sql, Expr.pieces, tokensOf_append] using Reads.bracketed hopen (ih h)
  | compare op a b iha ihb =>
    have hboth := (iha h.1).separated op.separates (ihb h.2)
    simpa only [Expr.sql, Expr.pieces, tokensOf_append, String.append_assoc, List.append_assoc]
      using hboth
  | count => exact Leads.reads rfl
  | avg a ih =>
    have hopen : Leads "AVG(" (tokensOf [.word "AVG", .sign "("]) := rfl
    simpa only [Expr.sql, Expr.pieces, tokensOf_append] using Reads.bracketed hopen (ih h)
  | max a ih =>
    have hopen : Leads "MAX(" (tokensOf [.word "MAX", .sign "("]) := rfl
    simpa only [Expr.sql, Expr.pieces, tokensOf_append] using Reads.bracketed hopen (ih h)
  | column name => exact reads_word h

/-! ## Reading statements -/

section

variable {ε : Type} {f : ε → String} {g : ε → List Piece} {l : List ε}

/-- The predicates follow the table. -/
theorem follows_whereSql (h : ∀ e ∈ l, Reads (f e) (tokensOf (g e))) :
    Follows (SelectText.whereSql (l.map f)) (tokensOf (wherePieces (l.map g))) := by
  have hwhere : Separates " WHERE " (tokensOf [.word "WHERE"]) := ⟨⟨' ', by decide, rfl⟩, rfl⟩
  cases l with
  | nil =>
    have hone : Reads "1 = 1" (tokensOf [.fixed (.number 1), .sign "=", .fixed (.number 1)]) :=
      ⟨[.number 1, .sign "="], [.number 1], .digits 1, rfl, trivial, rfl, rfl⟩
    exact hwhere.follows hone
  | cons e rest => exact hwhere.follows (reads_separated f g separates_and h)

/-- The groups follow the predicates. -/
theorem follows_groupSql (h : ∀ e ∈ l, Reads (f e) (tokensOf (g e))) :
    Follows (SelectText.groupSql (l.map f)) (tokensOf (groupPieces (l.map g))) := by
  have hgroup : Separates " GROUP BY " (tokensOf [.word "GROUP", .word "BY"]) :=
    ⟨⟨' ', by decide, rfl⟩, rfl⟩
  cases l with
  | nil => exact Follows.empty
  | cons e rest => exact hgroup.follows (reads_separated f g separates_comma h)

/-- A key of an order is an expression and its direction. -/
theorem reads_orderKey {e : ε} (h : Reads (f e) (tokensOf (g e))) (d : SortDirection) :
    Reads (f e ++ " " ++ d.keyword) (tokensOf (g e ++ [.word d.keyword])) := by
  have hblank : Separates " " (tokensOf []) := ⟨⟨' ', by decide, rfl⟩, rfl⟩
  have hword : Reads d.keyword [.word d.keyword] := by
    cases d <;> exact reads_word (by decide)
  have hall := h.separated hblank hword
  rwa [tokensOf_append]

/-- The order follows the groups. -/
theorem follows_orderSql {l : List (OrderKey ε SortDirection)}
    (h : ∀ k ∈ l, Reads (f k.expr) (tokensOf (g k.expr))) :
    Follows (SelectText.orderSql (l.map fun k => ⟨f k.expr, k.direction.keyword⟩))
      (tokensOf (orderPieces (l.map fun k => g k.expr ++ [.word k.direction.keyword]))) := by
  have horder : Separates " ORDER BY " (tokensOf [.word "ORDER", .word "BY"]) :=
    ⟨⟨' ', by decide, rfl⟩, rfl⟩
  have hkeys := reads_separated (fun k : OrderKey ε SortDirection =>
      f k.expr ++ " " ++ k.direction.keyword) (fun k => g k.expr ++ [.word k.direction.keyword])
    separates_comma fun k hk => reads_orderKey (h k hk) k.direction
  cases l with
  | nil => exact Follows.empty
  | cons k rest =>
    have hall := horder.follows hkeys
    rw [SelectText.orderSql, List.map_map]
    · exact hall
    · simp

end

/-- Limit and offset follow the order. -/
theorem follows_limitSql (limit offset : Option Nat) :
    Follows (SelectText.limitSql limit offset) (tokensOf (limitPieces limit offset)) := by
  have hlimit : Separates " LIMIT " (tokensOf [.word "LIMIT"]) := ⟨⟨' ', by decide, rfl⟩, rfl⟩
  have hoffset : Separates " OFFSET " (tokensOf [.word "OFFSET"]) := ⟨⟨' ', by decide, rfl⟩, rfl⟩
  cases limit with
  | none => exact Follows.empty
  | some n =>
    have hn := hlimit.follows (reads_ofNat n)
    rcases offset with _ | _ | m
    · show Follows (" LIMIT " ++ Digits.ofNat n ++ "") _
      rw [String.append_empty]
      exact hn
    · show Follows (" LIMIT " ++ Digits.ofNat n ++ "") _
      rw [String.append_empty]
      exact hn
    · have hall := hlimit.follows ((reads_ofNat n).separated hoffset (reads_ofNat (m + 1)))
      rw [String.append_assoc, ← String.append_assoc] at hall
      exact hall

/-- The table follows its keyword. -/
theorem reads_source {source : Option Source}
    (h : ∀ t ∈ source, ∀ name ∈ t.name, isWord name = true) :
    Reads ((source.map Source.sql).getD "") (tokensOf ((source.map Source.pieces).getD [])) := by
  rcases source with _ | ⟨table, _ | name⟩
  · exact Reads.empty
  · exact reads_identifier table
  · exact (reads_identifier table).separated separates_as (reads_word (h _ rfl name rfl))

/-- The text of a statement falls into the tokens of its pieces if those of its expressions do. -/
theorem Select.reads {κ ε : Type} {column : κ → Prop} {expr : ε → Prop} {f : κ → String}
    {p : κ → List Piece} {g : ε → String} {q : ε → List Piece}
    (hf : ∀ k, column k → Reads (f k) (tokensOf (p k)))
    (hg : ∀ e, expr e → Reads (g e) (tokensOf (q e)))
    {s : Select κ ε SortDirection} (h : s.Plain column expr) :
    Reads (SelectText.sql (s.mapParts f g SortDirection.keyword)) (tokensOf (s.pieces p q)) := by
  have hselect : Leads "SELECT " (tokensOf [.word "SELECT"]) := rfl
  have hcolumns : Reads (separated ", " (s.columns.map fun c => f c.expr ++ " AS " ++ c.name))
      (tokensOf (joined [.sign ","]
        (s.columns.map fun c => p c.expr ++ [.word "AS", .word c.name]))) := by
    refine reads_separated _ _ separates_comma fun c hc => ?_
    obtain ⟨hexpr, hname⟩ := h.columns c hc
    rw [tokensOf_append]
    exact (hf c.expr hexpr).separated separates_as (reads_word hname)
  -- Each clause begins with a blank, which ends the last token of the clause before it.
  have htable := (hcolumns.after hselect).separated separates_from (reads_source h.source)
  have hwhere := follows_whereSql fun e he => hg e (h.predicates e he)
  have hgroup := follows_groupSql fun e he => hg e (h.groups e he)
  have horder := follows_orderSql fun k hk => hg k.expr (h.order k hk)
  have hlimit := follows_limitSql s.limit s.offset
  have hall := ((((htable.append hwhere.reads hwhere.closes).append hgroup.reads
    hgroup.closes).append horder.reads horder.closes).append hlimit.reads hlimit.closes)
  simp only [SelectText.sql, Select.mapParts, Select.pieces, List.map_map, tokensOf_append,
    tokensOf_cons, List.append_assoc] at hall ⊢
  exact hall

/-- The text of a statement in the place of one value falls into the tokens of its pieces. -/
theorem Subselect.reads {s : Subselect} (h : Subselect.Plain s) :
    Reads (Subselect.sql s) (tokensOf (Subselect.pieces s)) :=
  Select.reads (fun _ => Expr.reads) (fun _ => Expr.reads) h

/-- The text of a result column falls into the tokens of its pieces. -/
theorem Output.reads {o : Output} (h : o.Plain) : Reads o.sql (tokensOf o.pieces) := by
  cases o with
  | expr e => exact Expr.reads h
  | subselect s =>
    have hopen : Leads "(" (tokensOf [.sign "("]) := rfl
    have hall := Reads.bracketed hopen (Subselect.reads h)
    rwa [← tokensOf_append, ← tokensOf_append] at hall

/-- The text of a statement falls into the tokens of its pieces. -/
theorem Statement.reads {s : Statement} (h : Statement.Plain s) :
    Reads (Statement.sql s) (tokensOf (Statement.pieces s)) :=
  Select.reads (fun _ => Output.reads) (fun _ => Expr.reads) h

end Quarry.Sql
