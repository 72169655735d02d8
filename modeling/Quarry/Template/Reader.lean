/-
# Reading regular expressions

* `Regex.ofText?` — the regular expression that a text writes.

Expressions are read by descent: alternatives of sequences of repeated items. `Flags` are settings
that a text can change on its way; a change lasts to the end of the group it stands in.
-/
import Quarry.Template.Regex
import Quarry.Text.Digits

namespace Quarry.Template

open Quarry.Text

/-! ## Settings -/

/-- The settings under which a part of an expression is read. -/
structure Flags where
  /-- Letters match in either case. -/
  insensitive : Bool := false
  /-- Line starts and ends count as text starts and ends. -/
  multiLine : Bool := false
  /-- The dot matches line ends too. -/
  dotAll : Bool := false
  /-- Short and long repetitions change places. -/
  swapGreed : Bool := false
  /-- Classes hold characters of all scripts. -/
  wide : Bool := true
  /-- A carriage return ends lines too. -/
  returnEnds : Bool := false
  /-- Blanks and comments are left out. -/
  verbose : Bool := false
  deriving DecidableEq, Repr

/-- Changes one setting by its letter. -/
def Flags.set (f : Flags) (letter : Char) (on : Bool) : Flags :=
  match letter with
  | 'i' => { f with insensitive := on }
  | 'm' => { f with multiLine := on }
  | 's' => { f with dotAll := on }
  | 'U' => { f with swapGreed := on }
  | 'u' => { f with wide := on }
  | 'R' => { f with returnEnds := on }
  | _ => { f with verbose := on }

/-- The letters of settings. -/
def flagLetters : List Char := ['i', 'm', 's', 'U', 'u', 'R', 'x']

/-- What follows the comment that a text starts in. -/
def skipComment : List Char → List Char
  | [] => []
  | '\n' :: cs => cs
  | _ :: cs => skipComment cs

/-- What follows blanks and comments, by the length of the text. -/
def skipVerboseFrom : Nat → List Char → List Char
  | 0, cs => cs
  | _, [] => []
  | n + 1, c :: cs =>
    if isSpaceChar c then skipVerboseFrom n cs
    else if c = '#' then skipVerboseFrom n (skipComment cs)
    else c :: cs

/-- What follows blanks and comments, where they are left out. -/
def Flags.skip (f : Flags) (cs : List Char) : List Char :=
  if f.verbose then skipVerboseFrom cs.length cs else cs

/-! ## Pieces -/

/-- What has been read of an expression. -/
structure Piece where
  regex : Regex
  /-- How deeply its parts are nested. -/
  depth : Nat
  deriving DecidableEq, Repr

/-- The deepest nesting that is read. -/
def depthLimit : Nat := 250

/-- The pieces one after another. -/
def Piece.seq : List Piece → Piece
  | [] => ⟨.empty, 0⟩
  | [p] => p
  | p :: ps =>
    ⟨ps.foldl (fun r q => .seq r q.regex) p.regex, ps.foldl (fun d q => max d q.depth) p.depth + 1⟩

/-- The pieces in place of one another. -/
def Piece.alt : List Piece → Piece
  | [] => ⟨.empty, 0⟩
  | [p] => p
  | p :: ps =>
    ⟨ps.foldl (fun r q => .alt r q.regex) p.regex, ps.foldl (fun d q => max d q.depth) p.depth + 1⟩

/-- A set under the settings. -/
def Flags.fold (f : Flags) (s : CharSet) : CharSet := if f.insensitive then .folded s else s

/-- A character under the settings. -/
def Flags.literal (f : Flags) (c : Char) : Regex := .set (f.fold (.single c))

/-! ## Classes -/

/-- The classes that a letter names, and their complements by its capital. -/
def Flags.letterClass? (f : Flags) (c : Char) : Option CharSet :=
  let narrow (p : Property) (rs : List (Nat × Nat)) : CharSet :=
    .property (if f.wide then p else .ranges rs)
  let digit := narrow .digit [(0x30, 0x39)]
  let space := narrow .space [(9, 13), (0x20, 0x20)]
  let word := narrow .word [(0x30, 0x39), (0x41, 0x5A), (0x5F, 0x5F), (0x61, 0x7A)]
  let complement (s : CharSet) : Option CharSet := if f.wide then some (.complement s) else none
  match c with
  | 'd' => some digit
  | 's' => some space
  | 'w' => some word
  | 'D' => complement digit
  | 'S' => complement space
  | 'W' => complement word
  | _ => none

/-- The ranges of the classes that are named in brackets and colons. -/
def namedClass? (name : String) : Option (List (Nat × Nat)) :=
  match name with
  | "alnum" => some [(0x30, 0x39), (0x41, 0x5A), (0x61, 0x7A)]
  | "alpha" => some [(0x41, 0x5A), (0x61, 0x7A)]
  | "ascii" => some [(0, 0x7F)]
  | "blank" => some [(9, 9), (0x20, 0x20)]
  | "cntrl" => some [(0, 0x1F), (0x7F, 0x7F)]
  | "digit" => some [(0x30, 0x39)]
  | "graph" => some [(0x21, 0x7E)]
  | "lower" => some [(0x61, 0x7A)]
  | "print" => some [(0x20, 0x7E)]
  | "punct" => some [(0x21, 0x2F), (0x3A, 0x40), (0x5B, 0x60), (0x7B, 0x7E)]
  | "space" => some [(9, 13), (0x20, 0x20)]
  | "upper" => some [(0x41, 0x5A)]
  | "word" => some [(0x30, 0x39), (0x41, 0x5A), (0x5F, 0x5F), (0x61, 0x7A)]
  | "xdigit" => some [(0x30, 0x39), (0x41, 0x46), (0x61, 0x66)]
  | _ => none

/-! ## Escapes -/

/-- What an escape stands for. -/
inductive Escape where
  | literal (c : Char)
  | set (s : CharSet)
  | assertion (a : Assertion)

/-- The characters that mean something in expressions. -/
def metaChars : List Char :=
  ['\\', '.', '+', '*', '?', '(', ')', '|', '[', ']', '\x7b', '\x7d', '^', '$', '#', '&', '-', '~']

/-- Whether a character may be escaped to stand for itself. -/
def isEscapable (c : Char) : Bool :=
  metaChars.contains c || (c.toNat < 128 && !c.isAlphanum && c != '<' && c != '>')

/-- The character of a code, if there is one. -/
def charOf? (code : Nat) : Option Char :=
  if h : code.isValidChar then some (Char.ofNatAux code h) else none

/-- The number of some hexadecimal digits. -/
def hexOf? : Nat → List Char → Option Nat
  | n, [] => some n
  | n, c :: cs => (Digits.hexDigit? c).bind fun d => hexOf? (n * 16 + d) cs

/-- A character by its code under the settings. -/
def Flags.codeLiteral? (f : Flags) (code : Nat) : Option Escape :=
  if !f.wide && 0x80 ≤ code && code ≤ 0xFF then none else (charOf? code).map .literal

/-- Splits a text at a closing brace. -/
def splitBrace? : List Char → Option (List Char × List Char)
  | [] => none
  | c :: cs =>
    if c = '\x7d' then some ([], cs) else (splitBrace? cs).map fun (inside, rest) => (c :: inside, rest)

/-- Reads a character code, given how many digits it has outside braces. -/
def readCode (f : Flags) (count : Nat) (cs : List Char) : Option (Escape × List Char) :=
  match cs with
  | '\x7b' :: cs => do
    let (inside, rest) ← splitBrace? cs
    let digits := if f.verbose then inside.filter fun c => !isSpaceChar c else inside
    if digits.isEmpty then none
    let code ← hexOf? 0 digits
    if code ≤ 0xFFFFFFFF then (f.codeLiteral? code).map fun e => (e, rest) else none
  | cs => do
    let digits := cs.take count
    if digits.length < count then none
    let code ← hexOf? 0 digits
    (f.codeLiteral? code).map fun e => (e, cs.drop count)

/-- Splits characters at the first one of some. -/
def splitAtFirst? (p : Char → Bool) : List Char → Option (List Char × List Char)
  | [] => none
  | c :: cs =>
    if p c then some ([], cs) else (splitAtFirst? p cs).map fun (a, b) => (c :: a, b)

/-- Splits a property into group and name, and says whether its complement is meant. -/
def splitProperty (cs : List Char) : Option (List Char × List Char) × Bool :=
  match splitAtFirst? (· == '=') cs with
  | some (group, name) =>
    match group.getLast? with
    | some '!' => (some (group.dropLast, name), true)
    | _ =>
      match splitAtFirst? (· == ':') cs with
      | some split => (some split, false)
      | none => (some (group, name), false)
  | none => (splitAtFirst? (· == ':') cs, false)

/-- The set of a property in braces. -/
def propertySet? (cs : List Char) : Option CharSet :=
  match splitProperty cs with
  | (some (group, name), negated) =>
    (Property.ofNames? (String.ofList group) (String.ofList name)).map fun p =>
      if negated then .complement (.property p) else .property p
  | (none, _) => (Property.ofName? (String.ofList cs)).map .property

/-- Reads a property after its letter. -/
def readProperty (f : Flags) (negated : Bool) (cs : List Char) : Option (Escape × List Char) := do
  if !f.wide then none
  let (s, rest) ← match cs with
    | [] => none
    | '\x7b' :: cs => do
      let (inside, rest) ← splitBrace? cs
      let s ← propertySet? inside
      some (s, rest)
    | c :: cs => (Property.ofName? (String.singleton c)).map fun p => (.property p, cs)
  let s := f.fold s
  some (.set (if negated then .complement s else s), rest)

/-- The word edge with a name. -/
def wordEdge? (name : String) : Option WordEdge :=
  match name with
  | "start" => some .start
  | "end" => some .finish
  | "start-half" => some .startHalf
  | "end-half" => some .finishHalf
  | _ => none

/-- An edge of a word under the settings. -/
def Flags.word (f : Flags) (edge : WordEdge) : Escape :=
  .assertion (.word edge
    (if f.wide then .word else .ranges [(0x30, 0x39), (0x41, 0x5A), (0x5F, 0x5F), (0x61, 0x7A)]))

/-- Whether a character may stand in the name of a word edge. -/
def isEdgeChar (c : Char) : Bool := c.isAlpha || c == '-'

/-- Reads what follows the letter of a word edge: a name in braces, or nothing. -/
def readWordEdge (f : Flags) (cs : List Char) : Option (Escape × List Char) :=
  match cs with
  | '\x7b' :: inside =>
    match inside with
    | [] => none
    | c :: _ =>
      if isEdgeChar c then
        match inside.dropWhile isEdgeChar with
        | '\x7d' :: rest =>
          (wordEdge? (String.ofList (inside.takeWhile isEdgeChar))).map fun e => (f.word e, rest)
        | _ => none
      else some (f.word .boundary, cs)
  | cs => some (f.word .boundary, cs)

/-- The control character that a letter stands for. -/
def controlChar? (c : Char) : Option Char :=
  match c with
  | 'a' => some '\x07'
  | 'f' => some '\x0c'
  | 't' => some '\t'
  | 'n' => some '\n'
  | 'r' => some '\r'
  | 'v' => some '\x0b'
  | _ => none

/-- Reads an escape after its backslash. -/
def readEscape (f : Flags) : List Char → Option (Escape × List Char)
  | [] => none
  | c :: cs =>
    match c with
    | 'x' => readCode f 2 cs
    | 'u' => readCode f 4 cs
    | 'U' => readCode f 8 cs
    | 'p' => readProperty f false cs
    | 'P' => readProperty f true cs
    | 'A' => some (.assertion .textStart, cs)
    | 'z' => some (.assertion .textEnd, cs)
    | 'b' => readWordEdge f cs
    | 'B' => some (f.word .notBoundary, cs)
    | '<' => some (f.word .start, cs)
    | '>' => some (f.word .finish, cs)
    | _ =>
      if isEscapable c then some (.literal c, cs)
      else match controlChar? c with
        | some d => some (.literal d, cs)
        | none => (f.letterClass? c).map fun s => (.set s, cs)

/-! ## Bracketed classes -/

/-- Reads a named class after its opening bracket. -/
def readNamedClass (f : Flags) (cs : List Char) : Option (CharSet × List Char) :=
  match cs with
  | ':' :: cs =>
    let (negated, cs) := match cs with
      | '^' :: cs => (true, cs)
      | cs => (false, cs)
    match cs.dropWhile (· != ':') with
    | ':' :: ']' :: rest =>
      (namedClass? (String.ofList (cs.takeWhile (· != ':')))).map fun rs =>
        let s := f.fold (.property (.ranges rs))
        (if negated then .complement s else s, rest)
    | _ => none
  | _ => none

/-- Reads one item of a class: a character or an escape. -/
def readClassItem (f : Flags) : List Char → Option (Escape × List Char)
  | [] => none
  | '\\' :: cs => readEscape f cs
  | c :: cs => some (.literal c, cs)

/-- The set of an item of a class; conditions on places are none. -/
def Flags.itemSet? (f : Flags) : Escape → Option CharSet
  | .literal c => if f.wide || c.toNat < 128 then some (f.fold (.single c)) else none
  | .set s => some s
  | .assertion _ => none

/-- Reads an item of a class, or a range between two characters. -/
def readClassRange (f : Flags) (cs : List Char) : Option (CharSet × List Char) := do
  let (first, rest) ← readClassItem f cs
  let rest := f.skip rest
  match rest with
  | '-' :: after =>
    match f.skip after with
    | ']' :: _ | '-' :: _ => (f.itemSet? first).map fun s => (s, rest)
    | after =>
      let (last, rest) ← readClassItem f after
      match first, last with
      | .literal a, .literal b =>
        if a ≤ b && (f.wide || b.toNat < 128) then some (f.fold (.range a b), rest) else none
      | _, _ => none
  | _ => (f.itemSet? first).map fun s => (s, rest)

/-- An operation between the parts of a class. -/
inductive ClassOp where
  | inter
  | diff
  | symmDiff

/-- The set of two parts with an operation between them. -/
def ClassOp.apply : ClassOp → CharSet → CharSet → CharSet
  | .inter, s, t => .inter s t
  | .diff, s, t => .diff s t
  | .symmDiff, s, t => .symmDiff s t

/-- Finishes a part of a class with what stands before it. -/
def closePart : Option (ClassOp × CharSet) → CharSet → CharSet
  | none, s => s
  | some (op, left), s => op.apply left s

/-- Takes the hyphens at the start of a class. -/
def takeHyphens (f : Flags) : Nat → CharSet → Bool → List Char → CharSet × Bool × List Char
  | n + 1, s, _, '-' :: cs => takeHyphens f n (.union s (f.fold (.single '-'))) true (f.skip cs)
  | _, s, any, cs => (s, any, cs)

/-- Takes what may stand only at the start of a class: hyphens, or a closing bracket. -/
def takeClassStart (f : Flags) (cs : List Char) : CharSet × List Char :=
  match takeHyphens f cs.length .none false cs with
  | (s, false, ']' :: cs) => (.union s (f.fold (.single ']')), cs)
  | (s, _, cs) => (s, cs)

mutual

/-- Reads a class after its opening bracket, and says how deeply it is nested. -/
def readClass (f : Flags) : Nat → List Char → Option (CharSet × Nat × List Char)
  | 0, _ => none
  | fuel + 1, cs =>
    let cs := f.skip cs
    let (negated, cs) := match cs with
      | '^' :: cs => (true, f.skip cs)
      | cs => (false, cs)
    let (s, cs) := takeClassStart f cs
    match readClassParts f fuel none s 1 cs with
    | some (s, depth, rest) =>
      if negated then (if f.wide then some (.complement s, depth, rest) else none)
      else some (s, depth, rest)
    | none => none

/-- Reads the parts of a class up to its closing bracket. -/
def readClassParts (f : Flags) : Nat → Option (ClassOp × CharSet) → CharSet → Nat → List Char →
    Option (CharSet × Nat × List Char)
  | 0, _, _, _, _ => none
  | fuel + 1, left, s, depth, cs =>
    match f.skip cs with
    | [] => none
    | ']' :: rest => some (closePart left s, depth, rest)
    | '&' :: '&' :: rest =>
      readClassParts f fuel (some (.inter, closePart left s)) .none (depth + 1) rest
    | '-' :: '-' :: rest =>
      readClassParts f fuel (some (.diff, closePart left s)) .none (depth + 1) rest
    | '~' :: '~' :: rest =>
      readClassParts f fuel (some (.symmDiff, closePart left s)) .none (depth + 1) rest
    | '[' :: rest =>
      match readNamedClass f rest with
      | some (t, rest) => readClassParts f fuel left (.union s t) depth rest
      | none =>
        match readClass f fuel rest with
        | some (t, inner, rest) =>
          readClassParts f fuel left (.union s t) (max depth (inner + 1)) rest
        | none => none
    | cs =>
      match readClassRange f cs with
      | some (t, rest) => readClassParts f fuel left (.union s t) depth rest
      | none => none

end

/-! ## Groups -/

/-- Reads settings up to a colon or a closing parenthesis, which is returned with them. -/
def readFlags : Flags → (on : Bool) → (seen : List Char) → List Char →
    Option (Flags × List Char × Char × List Char)
  | _, _, _, [] => none
  | f, on, seen, c :: cs =>
    if c = ':' ∨ c = ')' then
      if seen.head? = some '-' then none else some (f, seen, c, cs)
    else if seen.contains c then none
    else if c = '-' then readFlags f false (c :: seen) cs
    else if flagLetters.contains c then readFlags (f.set c on) on (c :: seen) cs
    else none

/-- Whether a character may stand in the name of a group. -/
def isNameChar (first : Bool) (c : Char) : Bool :=
  let letter := c == '_' || (isWordChar c && !isDecimalDigit c && c.toNat ≠ 0x200C &&
    c.toNat ≠ 0x200D)
  if first then letter else letter || c == '.' || c == '[' || c == ']' || isDecimalDigit c

/-- Reads the name of a group up to its closing angle. -/
def readGroupName (cs : List Char) : Option (String × List Char) :=
  match cs with
  | [] => none
  | c :: _ =>
    let name := cs.takeWhile (· != '>')
    match cs.dropWhile (· != '>') with
    | '>' :: rest =>
      if isNameChar true c && (name.drop 1).all (isNameChar false) then
        some (String.ofList name, rest)
      else none
    | _ => none

/-- What opens a group. -/
inductive GroupStart where
  /-- A group with its settings, and its name if it has one. -/
  | group (f : Flags) (name : Option String)
  /-- A change of settings. -/
  | change (f : Flags)

/-- Reads the start of a group after its parenthesis. -/
def readGroupStart (f : Flags) (cs : List Char) : Option (GroupStart × List Char) :=
  match f.skip cs with
  | '?' :: '=' :: _ => none
  | '?' :: '!' :: _ => none
  | '?' :: '<' :: '=' :: _ => none
  | '?' :: '<' :: '!' :: _ => none
  | '?' :: 'P' :: '<' :: cs => (readGroupName cs).map fun (name, cs) => (.group f (some name), cs)
  | '?' :: '<' :: cs => (readGroupName cs).map fun (name, cs) => (.group f (some name), cs)
  | '?' :: cs =>
    match readFlags f true [] cs with
    | some (g, seen, ')', cs) => if seen.isEmpty then none else some (.change g, cs)
    | some (g, _, _, cs) => some (.group g none, cs)
    | none => none
  | cs => some (.group f none, cs)

/-! ## Repetition -/

/-- The greatest count of a repetition. -/
def countLimit : Nat := 4294967295

/-- Takes a count with blanks around it. -/
def takeCount (cs : List Char) : Option Nat × List Char :=
  let cs := cs.dropWhile isSpaceChar
  let digits := cs.takeWhile Char.isDigit
  let rest := (cs.dropWhile Char.isDigit).dropWhile isSpaceChar
  (if digits.isEmpty then none else Digits.natOf? digits, rest)

/-- Takes the question mark that makes a repetition short. -/
def takeLazy (f : Flags) (cs : List Char) : List Char :=
  match f.skip cs with
  | '?' :: rest => rest
  | rest => rest

/-- Reads the counts of a repetition after their opening brace. -/
def readCounts (f : Flags) (cs : List Char) : Option (Nat × Option Nat × List Char) := do
  let (first, rest) := takeCount (f.skip cs)
  let (least, most, rest) ← match rest with
    | ',' :: rest =>
      match f.skip rest with
      | '\x7d' :: rest => first.map fun n => (n, none, '\x7d' :: rest)
      | rest => do
        let (last, rest) := takeCount rest
        let n ← first
        let m ← last
        some (n, some m, rest)
    | rest => first.map fun n => (n, some n, rest)
  match rest with
  | '\x7d' :: rest =>
    if least ≤ countLimit ∧ most.all (fun m => least ≤ m && m ≤ countLimit) then
      some (least, most, takeLazy f rest)
    else none
  | _ => none

/-- Repeats the last of the pieces read; a change of settings cannot be repeated. -/
def repeatLast (least : Nat) (most : Option Nat) :
    List (Option Piece) → Option (List (Option Piece))
  | some p :: ps => some (some ⟨.repeated p.regex least most, p.depth + 1⟩ :: ps)
  | _ => none

/-! ## Expressions -/

/-- The dot under the settings. -/
def Flags.dot? (f : Flags) : Option Regex :=
  if !f.wide then none
  else if f.dotAll then some (.set (.property .any))
  else if f.returnEnds then
    some (.set (.complement (.union (.single '\n') (.single '\r'))))
  else some (.set (.complement (.single '\n')))

/-- The start of a line or text under the settings. -/
def Flags.start (f : Flags) : Assertion :=
  if f.multiLine then (if f.returnEnds then .lineStartReturn else .lineStart) else .textStart

/-- The end of a line or text under the settings. -/
def Flags.finish (f : Flags) : Assertion :=
  if f.multiLine then (if f.returnEnds then .lineEndReturn else .lineEnd) else .textEnd

/-- Reads an item that is neither a class nor a group. -/
def readItem (f : Flags) : List Char → Option (Regex × List Char)
  | [] => none
  | '\\' :: cs =>
    (readEscape f cs).map fun (e, rest) =>
      (match e with
        | .literal c => f.literal c
        | .set s => .set s
        | .assertion a => .assertion a, rest)
  | '.' :: cs => f.dot?.map fun r => (r, cs)
  | '^' :: cs => some (.assertion f.start, cs)
  | '$' :: cs => some (.assertion f.finish, cs)
  | c :: cs => some (f.literal c, cs)

/-- What is known while an expression is read. -/
structure Reading where
  flags : Flags
  /-- The names of groups that are taken. -/
  names : List String

mutual

/-- Reads alternatives up to the end of the group or text. -/
def readAlternatives : Nat → Reading → (done : List Piece) → List Char →
    Option (Piece × Reading × List Char)
  | 0, _, _, _ => none
  | fuel + 1, r, done, cs =>
    match readSequence fuel r [] cs with
    | some (p, r, '|' :: rest) => readAlternatives fuel r (p :: done) rest
    | some (p, r, rest) => some (.alt (p :: done).reverse, r, rest)
    | none => none

/-- Reads items one after another, with those already read in reverse order. -/
def readSequence : Nat → Reading → (done : List (Option Piece)) → List Char →
    Option (Piece × Reading × List Char)
  | 0, _, _, _ => none
  | fuel + 1, r, done, cs =>
    let f := r.flags
    let finish (rest : List Char) := some (Piece.seq (done.reverse.filterMap id), r, rest)
    let repeating (least : Nat) (most : Option Nat) (rest : List Char) :=
      match repeatLast least most done with
      | some done => readSequence fuel r done rest
      | none => none
    match f.skip cs with
    | [] => finish []
    | ')' :: rest => finish (')' :: rest)
    | '|' :: rest => finish ('|' :: rest)
    | '?' :: rest => repeating 0 (some 1) (takeLazy f rest)
    | '*' :: rest => repeating 0 none (takeLazy f rest)
    | '+' :: rest => repeating 1 none (takeLazy f rest)
    | '\x7b' :: rest =>
      match readCounts f rest with
      | some (least, most, rest) => repeating least most rest
      | none => none
    | '[' :: rest =>
      match readClass f (2 * rest.length + 2) rest with
      | some (s, depth, rest) => readSequence fuel r (some ⟨.set s, depth⟩ :: done) rest
      | none => none
    | '(' :: rest =>
      match readGroupStart f rest with
      | some (.change g, rest) => readSequence fuel { r with flags := g } (none :: done) rest
      | some (.group g name, rest) =>
        if name.any r.names.contains then none
        else
          match readAlternatives fuel ⟨g, name.toList ++ r.names⟩ [] rest with
          | some (p, inner, ')' :: rest) =>
            readSequence fuel ⟨f, inner.names⟩ (some ⟨p.regex, p.depth + 1⟩ :: done) rest
          | _ => none
      | none => none
    | cs =>
      match readItem f cs with
      | some (regex, rest) => readSequence fuel r (some ⟨regex, 0⟩ :: done) rest
      | none => none

end

/-! ## Size -/

/-- About how many states a set takes. -/
def CharSet.size : CharSet → Nat
  | .none => 1
  | .range first last => if last.toNat < 128 then 1 else if first = last then 4 else 8
  | .property (.ranges rs) => rs.length
  | .property .any => 10
  | .property .ascii => 1
  | .property .space => 8
  | .property .digit => 80
  | .property _ => 400
  | .folded s => s.size
  | .complement s => s.size + 9
  | .union s t => if s = .none then t.size else max s.size t.size
  | .inter s _ => s.size
  | .diff s _ => s.size
  | .symmDiff s t => s.size + t.size

/-- About how many states an expression takes. -/
def Regex.size : Regex → Nat
  | .empty => 0
  | .set s => s.size
  | .assertion _ => 1
  | .seq r s => r.size + s.size
  | .alt r s => r.size + s.size + 1
  | .repeated r least most =>
    match most with
    | some m => r.size * m + (m - least)
    | none => r.size * max least 1 + 1

/-- The most states that an expression may take. -/
def sizeLimit : Nat := 327680

/-- The regular expression that a text writes. -/
def Regex.ofText? (text : String) : Option Regex :=
  let cs := text.toList
  match readAlternatives (2 * cs.length + 2) ⟨{}, []⟩ [] cs with
  | some (p, _, []) =>
    if p.depth ≤ depthLimit ∧ p.regex.size ≤ sizeLimit then some p.regex else none
  | _ => none

end Quarry.Template
