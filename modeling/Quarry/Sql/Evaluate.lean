/-
# Running statements

What statements mean over tables of documents.

* `TableRow` — a numbered document.
* `Scope` — the rows that fields may refer to, the innermost first.
* `Expr.eval`, `Expr.evalGroup` — the value of an expression on a row, and over a group of rows.
* `Statement.run` — the rows of the result.
* `Failure` — why a statement gives no result. `Statement.check` — what is refused at once.
-/
import Quarry.Sql.Datetime
import Quarry.Sql.Limits
import Quarry.Sql.Mean
import Quarry.Sql.Path

namespace Quarry.Sql

open Quarry.Json Quarry.Request Quarry.Result Quarry.Text

/-! ## Failures -/

/-- Why a statement gives no result. -/
inductive Failure where
  | noSuchTable (name : String)
  | noSuchColumn (name : String)
  | malformedPath (path : String)
  | malformedDocument
  /-- A limit or offset is too large. -/
  | countTooLarge
  /-- A name is kept for internal use. -/
  | reservedName (name : String)
  /-- The text of a statement breaks off at a character of code zero. -/
  | incompleteStatement
  /-- The parts of a statement are nested too deeply. -/
  | tooDeep
  | tooManyColumns
  /-- Rows are grouped or ordered by too many expressions. -/
  | tooManyTerms (clause : String)
  deriving DecidableEq, Repr

/-- The message for a statement that gives no result. -/
def Failure.message : Failure → String
  | .noSuchTable name => "no such table: " ++ name
  | .noSuchColumn name => "no such column: " ++ name
  | .malformedPath path => "malformed path: " ++ path
  | .malformedDocument => "malformed document"
  | .countTooLarge => "limit or offset too large"
  | .reservedName name => "reserved name: " ++ name
  | .incompleteStatement => "incomplete statement"
  | .tooDeep => "Expression tree is too large (maximum depth " ++ Digits.ofNat depthLimit ++ ")"
  | .tooManyColumns => "too many columns in result set"
  | .tooManyTerms clause => "too many terms in " ++ clause ++ " BY clause"

/-! ## Rows in scope -/

/-- A numbered document. -/
structure TableRow where
  id : Nat
  /-- The text of the document. -/
  content : String
  deriving DecidableEq, Repr

/-- A row and the name by which its table is known. -/
structure ScopedRow where
  name : String
  row : TableRow
  deriving DecidableEq, Repr

/-- The rows that fields may refer to, the innermost first. -/
abbrev Scope := List ScopedRow

/-- Whether two names are the same but for the case of letters of ASCII. -/
def sameName (a b : String) : Bool := asciiLower a == asciiLower b

/-- The row that a field refers to: of the innermost table with the name, or simply the
innermost. -/
def Scope.find? (scope : Scope) : Option String → Option TableRow
  | none => scope.head?.map ScopedRow.row
  | some q => (List.find? (fun r => sameName r.name q) scope).map ScopedRow.row

/-- The name by which the table of a statement is known. -/
def Source.knownAs (s : Source) : String := s.name.getD s.table

/-! ## Expressions on a row -/

/-- A constant as a value. -/
def Literal.cell : Literal → Cell
  | .integer n => .int n
  | .text s => .text s

/-- Whether a comparison holds of keys that stand in an order. -/
def Comparison.holds : Comparison → Ordering → Bool
  | .eq, o => o == .eq
  | .gt, o => o == .gt
  | .ge, o => o != .lt
  | .lt, o => o == .lt
  | .le, o => o != .gt

/-- A comparison of values: one or zero, and missing if either value is. -/
def compareCells (op : Comparison) (a b : Cell) : Cell :=
  if isMissing a || isMissing b then .null
  else .int (if op.holds (SortKey.compare (sortKey a) (sortKey b)) then 1 else 0)

/-- The first of two values that is not missing. -/
def coalesceCells (a b : Cell) : Cell := if isMissing a then b else a

/-- The instant of a value as a value. -/
def datetimeCell (a : Cell) : Cell :=
  match datetimeText? a with
  | some s => .text s
  | none => .null

/-- The value of a field of a document. -/
def fieldCell (content name : String) : Except Failure Cell :=
  match Verbatim.ofText? content with
  | none => .error .malformedDocument
  | some v =>
    match extract v (.ofText (fieldPath name)) with
    | some c => .ok c
    | none => .error (.malformedPath (fieldPath name))

/-- The value of an expression on the rows in scope. Groups and result columns have none there. -/
def Expr.eval (scope : Scope) : Expr → Except Failure Cell
  | .rowid =>
    match scope.find? none with
    | some r => .ok (.int r.id)
    | none => .error (.noSuchColumn "rowid")
  | .document =>
    match scope.find? none with
    | some r => .ok (.text r.content)
    | none => .error (.noSuchColumn "content")
  | .field qualifier name =>
    match scope.find? qualifier with
    | some r => fieldCell r.content name
    | none => .error (.noSuchColumn ((qualifier.map (· ++ ".")).getD "" ++ "content"))
  | .constant l => .ok l.cell
  | .coalesce a b => do
    let x ← a.eval scope
    if isMissing x then b.eval scope else return x
  | .datetime a => (a.eval scope).map datetimeCell
  | .compare op a b => do
    let x ← a.eval scope
    let y ← b.eval scope
    return compareCells op x y
  | .count => .error (.noSuchColumn "COUNT")
  | .avg _ => .error (.noSuchColumn "AVG")
  | .max _ => .error (.noSuchColumn "MAX")
  | .column name => .error (.noSuchColumn name)

/-- Whether a value counts as true. -/
def isTrue : Cell → Bool
  | .null => false
  | .int n => n != 0
  | .float x => x != 0.0
  | .text s => leadingNumber s != 0.0

/-- Whether predicates hold of the rows in scope. The first that does not ends the test. -/
def holdsAll (scope : Scope) : List Expr → Except Failure Bool
  | [] => .ok true
  | p :: rest => do
    let c ← p.eval scope
    if isTrue c then holdsAll scope rest else return false

/-! ## Expressions over a group -/

/-- Whether an expression is computed over a group. -/
def Expr.isAggregate : Expr → Bool
  | .count => true
  | .avg _ => true
  | .max _ => true
  | .coalesce a b => a.isAggregate || b.isAggregate
  | .datetime a => a.isAggregate
  | .compare _ a b => a.isAggregate || b.isAggregate
  | _ => false

/-- The values of an expression on several rows. -/
def evalEach (e : Expr) : List Scope → Except Failure (List Cell)
  | [] => .ok []
  | scope :: rest => do
    let c ← e.eval scope
    let cs ← evalEach e rest
    return c :: cs

/-- The value of an expression over a group of rows. What is not computed over the group is taken
from its first row. -/
def Expr.evalGroup (group : List Scope) : Expr → Except Failure Cell
  | .count => .ok (.int group.length)
  | .avg a => (evalEach a group).map mean
  | .max a => (evalEach a group).map greatest
  | .coalesce a b => do
    let x ← a.evalGroup group
    if isMissing x then b.evalGroup group else return x
  | .datetime a => (a.evalGroup group).map datetimeCell
  | .compare op a b => do
    let x ← a.evalGroup group
    let y ← b.evalGroup group
    return compareCells op x y
  | e =>
    match group with
    | scope :: _ => e.eval scope
    | [] => .ok .null

/-! ## Tables -/

/-- The rows of tables by their names. -/
abbrev Tables.Lookup := String → Option (List TableRow)

/-- The rows of the table of a statement. -/
def sourceRows (tables : Tables.Lookup) (source : Option Source) :
    Except Failure (String × List TableRow) :=
  match source with
  | none => .error .incompleteStatement
  | some s =>
    match tables s.table with
    | some rows => .ok (s.knownAs, rows)
    | none => .error (.noSuchTable s.table)

/-- The rows of which predicates hold, each in its scope. -/
def filterRows (name : String) (outer : Scope) (ps : List Expr) :
    List TableRow → Except Failure (List Scope)
  | [] => .ok []
  | r :: rest => do
    let scope : Scope := ⟨name, r⟩ :: outer
    let keep ← holdsAll scope ps
    let scopes ← filterRows name outer ps rest
    return if keep then scope :: scopes else scopes

/-- The first so many of the rows of which predicates hold, each in its scope. Rows after them are
not looked at. -/
def filterFirst (name : String) (outer : Scope) (ps : List Expr) :
    Nat → List TableRow → Except Failure (List Scope)
  | 0, _ => .ok []
  | _ + 1, [] => .ok []
  | n + 1, r :: rest => do
    let scope : Scope := ⟨name, r⟩ :: outer
    let keep ← holdsAll scope ps
    if keep then
      let scopes ← filterFirst name outer ps n rest
      return scope :: scopes
    else filterFirst name outer ps (n + 1) rest

/-! ## Statements in the place of one value -/

/-- The value of the first column over the rows found. -/
def Subselect.value (columns : List (Column Expr)) (scopes : List Scope) : Except Failure Cell :=
  match columns, scopes with
  | [], _ => .ok .null
  | c :: _, scopes =>
    if c.expr.isAggregate then c.expr.evalGroup scopes
    else match scopes with
      | [] => .ok .null
      | scope :: _ => c.expr.eval scope

/-- The value of a statement inside a scope. -/
def Subselect.eval (tables : Tables.Lookup) (outer : Scope) (s : Subselect) :
    Except Failure Cell := do
  let (name, rows) ← sourceRows tables s.source
  let scopes ← filterRows name outer s.predicates rows
  Subselect.value s.columns scopes

/-! ## Columns -/

/-- Whether a result column is computed over a group. -/
def Output.isAggregate : Output → Bool
  | .expr e => e.isAggregate
  | .subselect _ => false

/-- The value of a result column over a group. A statement in its place sees the first row. -/
def Output.evalGroup (tables : Tables.Lookup) (group : List Scope) : Output → Except Failure Cell
  | .expr e => e.evalGroup group
  | .subselect s => Subselect.eval tables (group.head?.getD []) s

/-- The values of the result columns over a group. -/
def evalColumns (tables : Tables.Lookup) (group : List Scope) :
    List (Column Output) → Except Failure Row
  | [] => .ok []
  | c :: rest => do
    let x ← c.expr.evalGroup tables group
    let row ← evalColumns tables group rest
    return (c.name, x) :: row

/-- The rows of the result, one for each group. -/
def evalGroups (tables : Tables.Lookup) (columns : List (Column Output)) :
    List (List Scope) → Except Failure (List Row)
  | [] => .ok []
  | group :: rest => do
    let row ← evalColumns tables group columns
    let rows ← evalGroups tables columns rest
    return row :: rows

/-! ## Order -/

/-- Whether keys come strictly before others, by the first pair that differs. -/
def keysBefore : List SortDirection → List SortKey → List SortKey → Bool
  | d :: ds, a :: as, b :: bs =>
    match SortKey.compare a b, d with
    | .eq, _ => keysBefore ds as bs
    | .lt, .asc => true
    | .gt, .desc => true
    | _, _ => false
  | _, _, _ => false

/-- Members sorted by their keys. -/
def sortByKeys {α : Type} (ds : List SortDirection) (members : List (List SortKey × α)) : List α :=
  (sortStable (fun a b => keysBefore ds a.1 b.1) members).map Prod.snd

/-- The sort keys of the values of expressions. -/
def evalKeys (eval : Expr → Except Failure Cell) : List (OrderKey Expr SortDirection) →
    Except Failure (List SortKey)
  | [] => .ok []
  | k :: rest => do
    let c ← eval k.expr
    let keys ← evalKeys eval rest
    return sortKey c :: keys

/-- Members with the sort keys of the values of expressions. -/
def withKeys {α : Type} (eval : α → Expr → Except Failure Cell)
    (order : List (OrderKey Expr SortDirection)) : List α →
    Except Failure (List (List SortKey × α))
  | [] => .ok []
  | a :: rest => do
    let keys ← evalKeys (eval a) order
    let others ← withKeys eval order rest
    return (keys, a) :: others

/-! ## Limits -/

/-- How many rows of a result are returned, after how many that are left out. -/
structure Window where
  offset : Nat
  /-- Without a limit all are returned. -/
  limit : Option Nat

/-- The window of a statement. An offset beside a limit of zero is not looked at. -/
def window (limit offset : Option Nat) : Except Failure Window :=
  match limit with
  | none => .ok ⟨0, none⟩
  | some n =>
    if Digits.int64Max < n then .error .countTooLarge
    else if n = 0 then .ok ⟨0, some 0⟩
    else if Digits.int64Max < offset.getD 0 then .error .countTooLarge
    else .ok ⟨offset.getD 0, some n⟩

/-- The members that come among the first `capacity` of those up to them, given the keys of the
first `capacity` before them. -/
def admitted {α : Type} (ds : List SortDirection) (capacity : Nat) :
    (best : List (List SortKey)) → List (List SortKey × α) → List (List SortKey × α)
  | _, [] => []
  | best, (keys, a) :: rest =>
    if best.length < capacity || best.getLast?.any (keysBefore ds keys) then
      let better := (insertSorted (keysBefore ds) keys best).take capacity
      (keys, a) :: admitted ds capacity better rest
    else admitted ds capacity best rest

/-- The members that have to be computed in full, given the keys of all: those that no member before
them keeps out of the window. -/
def Window.candidates {α : Type} (w : Window) (ds : List SortDirection)
    (members : List (List SortKey × α)) : List (List SortKey × α) :=
  match w.limit with
  | some n => admitted ds (w.offset + n) [] members
  | none => members

/-- The members in a window. -/
def Window.apply {α : Type} (w : Window) (members : List α) : List α :=
  let rest := members.drop w.offset
  match w.limit with
  | some n => rest.take n
  | none => rest

/-! ## Statements -/

/-- Checks that a statement does not have too many columns, groups or sort keys. -/
def Select.checkLengths {κ ε δ : Type} (s : Select κ ε δ) : Except Failure Unit :=
  if lengthLimit < s.columns.length then .error .tooManyColumns
  else if lengthLimit < s.groups.length then .error (.tooManyTerms "GROUP")
  else if lengthLimit < s.order.length then .error (.tooManyTerms "ORDER")
  else .ok ()

namespace Statement

/-- Checks that a statement can be read and is not too large. -/
def check (s : Statement) : Except Failure Unit :=
  if (Statement.sql s).toList.contains (Char.ofNat 0) then .error .incompleteStatement
  else if depthLimit < s.depth then .error .tooDeep
  else s.checkLengths

/-- The expression behind the name of a result column. -/
def resolve (columns : List (Column Output)) : Expr → Expr
  | .column name =>
    match columns.find? fun c => c.name == name with
    | some ⟨.expr e, _⟩ => e
    | _ => .column name
  | e => e

/-- The rows found for a statement without groups, in its order and window. -/
def plainRows (s : Statement) (w : Window) (name : String) (rows : List TableRow) :
    Except Failure (List Scope) :=
  if s.order.isEmpty then
    match w.limit with
    | some n => (filterFirst name [] s.predicates (w.offset + n) rows).map (·.drop w.offset)
    | none => filterRows name [] s.predicates rows
  else do
    let scopes ← filterRows name [] s.predicates rows
    let keyed ← withKeys Expr.eval s.order scopes
    return w.apply (sortByKeys (s.order.map OrderKey.direction) keyed)

/-- The groups of rows by the values of expressions, in the order of those values. -/
def groupRows (s : Statement) (scopes : List Scope) : Except Failure (List (List Scope)) := do
  let order : List (OrderKey Expr SortDirection) :=
    s.groups.map fun e => ⟨resolve s.columns e, .asc⟩
  let keyed ← withKeys Expr.eval order scopes
  return sortByKeys (order.map OrderKey.direction) (gather keyed)

/-- The rows of the result of a statement over a table. -/
def runOn (tables : Tables.Lookup) (s : Statement) (w : Window) (name : String)
    (rows : List TableRow) : Except Failure (List Row) :=
  if w.limit = some 0 then .ok []
  else if !s.groups.isEmpty then do
    let scopes ← filterRows name [] s.predicates rows
    let groups ← groupRows s scopes
    let keyed ← withKeys (fun group e => (resolve s.columns e).evalGroup group) s.order groups
    let ds := s.order.map OrderKey.direction
    let chosen := w.candidates ds keyed
    let results ← evalGroups tables s.columns (chosen.map Prod.snd)
    return w.apply (sortByKeys ds ((chosen.map Prod.fst).zip results))
  else if s.columns.any fun c => c.expr.isAggregate then do
    let scopes ← filterRows name [] s.predicates rows
    let row ← evalColumns tables scopes s.columns
    return w.apply [row]
  else do
    let scopes ← plainRows s w name rows
    evalGroups tables s.columns (scopes.map fun scope => [scope])

/-- The tables of the statements in the places of values must be there too, and these statements
must not be too long. -/
def checkInner (tables : Tables.Lookup) : List (Column Output) → Except Failure Unit
  | [] => .ok ()
  | ⟨.subselect s, _⟩ :: rest => do
    let _ ← sourceRows tables s.source
    s.checkLengths
    checkInner tables rest
  | _ :: rest => checkInner tables rest

/-- The rows of the result of a statement. -/
def run (tables : Tables.Lookup) (s : Statement) : Except Failure (List Row) := do
  s.check
  let (name, rows) ← sourceRows tables s.source
  checkInner tables s.columns
  let w ← window s.limit s.offset
  runOn tables s w name rows

end Statement

end Quarry.Sql
