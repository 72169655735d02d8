/-
# Tokens of statements

The lexical rules by which the text of a statement falls into tokens.

* `Token` — a token. Names and literals are kept without their marks, a doubled mark as one.
* `Lexer.step`, `Lexer.run` — reading one character after another.
* `lex` — the tokens of a text. Comments, fractions, blobs and variables are refused.
* `Reads` — a text falls into some tokens also where more text follows it.
* `reads_identifier`, `reads_stringLiteral` — a quoted text is one token, whatever it holds.
-/
import Mathlib
import Quarry.Sql.Quote

namespace Quarry.Sql

open Quarry.Text

/-! ## Tokens -/

/-- A token of a statement. -/
inductive Token where
  /-- A keyword, or a name without marks. -/
  | word (s : String)
  /-- A name between double quotation marks. -/
  | name (s : String)
  /-- A text between single quotation marks. -/
  | literal (s : String)
  | number (n : Nat)
  | sign (s : String)
  deriving DecidableEq, Repr

/-- The token of a text between marks. -/
def quotedToken (mark : Char) (read : List Char) : Token :=
  if mark = '"' then .name (String.ofList read) else .literal (String.ofList read)

namespace Lexer

/-! ## Characters -/

/-- Whether a character only separates tokens. -/
def isSpace (c : Char) : Bool :=
  c == ' ' || c == '\t' || c == '\n' || c == '\r' || c == Char.ofNat 12

/-- Whether a character begins a word. -/
def beginsWord (c : Char) : Bool := c.isAlpha || c == '_'

/-- Whether a character goes on with a word. -/
def continuesWord (c : Char) : Bool := c.isAlphanum || c == '_' || c == '$' || 128 ≤ c.toNat

/-- The signs that stand for themselves, whatever follows. -/
def loneSigns : List Char := ['(', ')', ',', ';', '*', '+', '%', '&', '~']

/-- The signs that may be the first of two. -/
def firstSigns : List Char := ['<', '>', '=', '!', '|', '-', '/', '.']

/-- Two signs that are one token. -/
def signPairs : List (Char × Char) :=
  [('<', '='), ('<', '>'), ('<', '<'), ('>', '='), ('>', '>'), ('=', '='), ('!', '='), ('|', '|')]

/-- Two characters that begin a comment, an arrow or a fraction. -/
def refusedPair (a c : Char) : Bool :=
  (a, c) ∈ [('-', '-'), ('-', '>'), ('/', '*')] || (a == '.' && c.isDigit)

/-! ## States -/

/-- What has been read of the token that is not yet complete. -/
inductive State where
  | between
  | word (read : List Char)
  | digits (value : Nat)
  /-- Inside a quoted text. -/
  | quoted (mark : Char) (read : List Char)
  /-- After a mark that ends a quoted text unless another one follows. -/
  | closing (mark : Char) (read : List Char)
  | sign (first : Char)
  deriving DecidableEq, Repr

/-- The token that is complete when nothing more belongs to it. -/
def flush : State → Option (List Token)
  | .between => some []
  | .word read => some [.word (String.ofList read)]
  | .digits n => some [.number n]
  | .quoted .. => none
  | .closing mark read => some [quotedToken mark read]
  | .sign c => if c = '!' then none else some [.sign (String.ofList [c])]

/-- The state after the first character of a token, with the token if that is all of it. -/
def start (c : Char) : Option (List Token × State) :=
  if isSpace c then some ([], .between)
  else if beginsWord c then some ([], .word [c])
  else if c.isDigit then some ([], .digits (c.toNat - '0'.toNat))
  else if c = '"' ∨ c = '\'' then some ([], .quoted c [])
  else if c ∈ loneSigns then some ([.sign (String.ofList [c])], .between)
  else if c ∈ firstSigns then some ([], .sign c)
  else none

/-- Completes a token before the first character of the next one. -/
def next (s : State) (c : Char) : Option (List Token × State) := do
  let ts ← flush s
  let (us, s') ← start c
  return (ts ++ us, s')

/-- Reads one character. -/
def step : State → Char → Option (List Token × State)
  | .between, c => start c
  | .word read, c =>
    if continuesWord c then some ([], .word (read ++ [c]))
    -- An `x` before a mark makes a blob.
    else if c = '\'' ∧ (read = ['x'] ∨ read = ['X']) then none
    else next (.word read) c
  | .digits n, c =>
    if c.isDigit then some ([], .digits (10 * n + (c.toNat - '0'.toNat)))
    else if c = '.' ∨ continuesWord c then none
    else next (.digits n) c
  | .quoted mark read, c =>
    if c = mark then some ([], .closing mark read) else some ([], .quoted mark (read ++ [c]))
  | .closing mark read, c =>
    if c = mark then some ([], .quoted mark (read ++ [mark])) else next (.closing mark read) c
  | .sign a, c =>
    if (a, c) ∈ signPairs then some ([.sign (String.ofList [a, c])], .between)
    else if refusedPair a c then none
    else next (.sign a) c

/-- Reads some characters. -/
def run : State → List Char → Option (List Token × State)
  | s, [] => some ([], s)
  | s, c :: cs => do
    let (ts, s') ← step s c
    let (us, s'') ← run s' cs
    return (ts ++ us, s'')

end Lexer

/-- The tokens of a text. -/
def lex (text : String) : Option (List Token) := do
  let (ts, s) ← Lexer.run .between text.toList
  let us ← Lexer.flush s
  return ts ++ us

namespace Lexer

/-! ## Reading on -/

@[simp] theorem run_nil (s : State) : run s [] = some ([], s) := rfl

/-- One character and then the others. -/
theorem run_cons {s s' s'' : State} {c : Char} {cs : List Char} {ts us : List Token}
    (h : step s c = some (ts, s')) (hs : run s' cs = some (us, s'')) :
    run s (c :: cs) = some (ts ++ us, s'') := by
  simp [run, h, hs]

/-- Text that follows is read from the state in which the text before it ends. -/
theorem run_append {s s' s'' : State} {a b : List Char} {ts us : List Token}
    (ha : run s a = some (ts, s')) (hb : run s' b = some (us, s'')) :
    run s (a ++ b) = some (ts ++ us, s'') := by
  -- The state changes with every character, so it is general in the induction.
  induction a generalizing s ts with
  | nil =>
    simp only [run_nil, Option.some.injEq, Prod.mk.injEq] at ha
    obtain ⟨rfl, rfl⟩ := ha
    exact hb
  | cons c cs ih =>
    simp only [run, Option.bind_eq_bind, Option.bind_eq_some_iff, Prod.exists] at ha
    obtain ⟨ps, t, hstep, qs, t', hrest, heq⟩ := ha
    simp only [Option.pure_def, Option.some.injEq, Prod.mk.injEq] at heq
    obtain ⟨rfl, rfl⟩ := heq
    rw [List.cons_append, run_cons hstep (ih hrest), List.append_assoc]

/-- A character that completes no token only changes the state. -/
theorem run_cons_silent {s s' : State} {c : Char} (h : step s c = some ([], s'))
    (cs : List Char) : run s (c :: cs) = run s' cs := by
  cases hs : run s' cs <;> simp [run, h, hs]

/-- Text that completes no token only changes the state. -/
theorem run_append_silent {s s' : State} {a : List Char} (h : run s a = some ([], s'))
    (b : List Char) : run s (a ++ b) = run s' b := by
  induction a generalizing s with
  | nil =>
    simp only [run_nil, Option.some.injEq, Prod.mk.injEq, true_and] at h
    rw [h, List.nil_append]
  | cons c cs ih =>
    simp only [run, Option.bind_eq_bind, Option.bind_eq_some_iff, Prod.exists] at h
    obtain ⟨ts, t, hstep, us, t', hrest, heq⟩ := h
    simp only [Option.pure_def, Option.some.injEq, Prod.mk.injEq, List.append_eq_nil_iff] at heq
    obtain ⟨⟨rfl, rfl⟩, rfl⟩ := heq
    rw [List.cons_append, run_cons_silent hstep, ih hrest]

/-! ## Ends of tokens -/

/-- The characters that end every token that is not quoted or a sign. -/
def closers : List Char := [' ', ',', ')']

/-- The states that a closer ends. -/
def Settled : State → Prop
  | .between => True
  | .word _ => True
  | .digits _ => True
  | .quoted .. => False
  | .closing mark _ => mark = '"' ∨ mark = '\''
  | .sign _ => False

/-- After a settled state a closer is read as at the beginning. -/
theorem step_of_settled {s s' : State} {c : Char} {ts us : List Token} (hs : Settled s)
    (ht : flush s = some ts) (hc : c ∈ closers) (h : step .between c = some (us, s')) :
    step s c = some (ts ++ us, s') := by
  have hc' : c = ' ' ∨ c = ',' ∨ c = ')' := by simpa [closers] using hc
  have hword : continuesWord c = false := by rcases hc' with rfl | rfl | rfl <;> decide
  have hdigit : c.isDigit = false := by rcases hc' with rfl | rfl | rfl <;> decide
  -- A closer ends the token of the state and is then read as at the beginning.
  have hnext : next s c = some (ts ++ us, s') := by
    have hstart : start c = some (us, s') := h
    simp [next, ht, hstart]
  cases s with
  | between =>
    simp only [flush, Option.some.injEq] at ht
    subst ht
    exact h
  | word read =>
    have hq : c ≠ '\'' := by rcases hc' with rfl | rfl | rfl <;> decide
    simpa [step, hword, hq] using hnext
  | digits n =>
    have hp : c ≠ '.' := by rcases hc' with rfl | rfl | rfl <;> decide
    simpa [step, hword, hdigit, hp] using hnext
  | quoted mark read => exact hs.elim
  | closing mark read =>
    have hm : c ≠ mark := by
      rcases hs with rfl | rfl <;> rcases hc' with rfl | rfl | rfl <;> decide
    simpa [step, hm] using hnext
  | sign a => exact hs.elim

end Lexer

/-- A text falls into some tokens, on its own and before a closer. -/
def Reads (text : String) (ts : List Token) : Prop :=
  ∃ us vs s, Lexer.run .between text.toList = some (us, s) ∧ Lexer.Settled s ∧
    Lexer.flush s = some vs ∧ ts = us ++ vs

/-- A text that leads from between two tokens to between two tokens. -/
def Leads (text : String) (ts : List Token) : Prop :=
  Lexer.run .between text.toList = some (ts, .between)

/-- Whether a text is empty or begins with a closer. -/
def Closes (text : String) : Prop := ∀ c ∈ text.toList.head?, c ∈ Lexer.closers

namespace Reads

/-- A text that can be read has its tokens. -/
theorem lex {text : String} {ts : List Token} (h : Reads text ts) : lex text = some ts := by
  obtain ⟨us, vs, s, hrun, -, hflush, rfl⟩ := h
  simp [Sql.lex, hrun, hflush]

/-- The empty text has no tokens. -/
theorem empty : Reads "" [] := ⟨[], [], .between, rfl, trivial, rfl, rfl⟩

/-- Fixed text in front of a text that can be read. -/
theorem after {p a : String} {ps ts : List Token} (hp : Leads p ps) (ha : Reads a ts) :
    Reads (p ++ a) (ps ++ ts) := by
  obtain ⟨us, vs, s, hrun, hs, hflush, rfl⟩ := ha
  refine ⟨ps ++ us, vs, s, ?_, hs, hflush, (List.append_assoc ..).symm⟩
  rw [String.toList_append]
  exact Lexer.run_append hp hrun

/-- Text that begins with a closer goes on from a text that can be read as from the beginning. -/
theorem run_append {a : String} {ts us : List Token} {b : List Char} {s : Lexer.State}
    (ha : Reads a ts) (hc : ∀ c ∈ b.head?, c ∈ Lexer.closers) (hne : b ≠ [])
    (hb : Lexer.run .between b = some (us, s)) :
    Lexer.run .between (a.toList ++ b) = some (ts ++ us, s) := by
  obtain ⟨ps, qs, t, hrun, ht, hflush, rfl⟩ := ha
  cases b with
  | nil => exact absurd rfl hne
  | cons c cs =>
    simp only [Lexer.run, Option.bind_eq_bind, Option.bind_eq_some_iff, Prod.exists] at hb
    obtain ⟨vs, t', hstep, ws, t'', hrest, heq⟩ := hb
    simp only [Option.pure_def, Option.some.injEq, Prod.mk.injEq] at heq
    obtain ⟨rfl, rfl⟩ := heq
    have hfirst := Lexer.step_of_settled ht hflush (hc c rfl) hstep
    rw [Lexer.run_append hrun (Lexer.run_cons hfirst hrest)]
    simp only [List.append_assoc]

/-- Two texts that can be read, one after the other. -/
theorem append {a b : String} {ts us : List Token} (ha : Reads a ts) (hb : Reads b us)
    (hc : Closes b) : Reads (a ++ b) (ts ++ us) := by
  by_cases hne : b.toList = []
  · have hempty : b = "" := String.toList_eq_nil_iff.mp hne
    subst hempty
    have hus : us = [] := by
      have hlex := hb.lex
      rw [empty.lex] at hlex
      exact (Option.some.inj hlex).symm
    rw [hus, List.append_nil, String.append_empty]
    exact ha
  · obtain ⟨vs, ws, s, hrun, hs, hflush, rfl⟩ := hb
    refine ⟨ts ++ vs, ws, s, ?_, hs, hflush, (List.append_assoc ..).symm⟩
    rw [String.toList_append]
    exact ha.run_append hc hne hrun

end Reads

/-! ## Quoted texts -/

namespace Lexer

/-- Inside marks every character is kept, and a doubled mark is one. -/
theorem run_quoted (mark : Char) (cs read : List Char) :
    run (.quoted mark read) (cs.flatMap fun c => if c = mark then [mark, mark] else [c]) =
      some ([], .quoted mark (read ++ cs)) := by
  induction cs generalizing read with
  | nil => simp
  | cons c cs ih =>
    rw [List.flatMap_cons]
    -- What has been read stands in the state, so the hypothesis is about one character more.
    have hrest := ih (read ++ [c])
    rw [List.append_assoc, List.singleton_append] at hrest
    have hfirst : run (.quoted mark read) (if c = mark then [mark, mark] else [c]) =
        some ([], .quoted mark (read ++ [c])) := by
      by_cases hc : c = mark
      · subst hc
        simp [run, step]
      · simp [run, step, hc]
    rw [run_append_silent hfirst]
    exact hrest

/-- A text between marks ends in the state after the closing one. -/
theorem run_enclose {mark : Char} (hm : mark = '"' ∨ mark = '\'') (cs : List Char) :
    run .between (enclose mark cs) = some ([], .closing mark cs) := by
  have hstart : step .between mark = some ([], .quoted mark []) := by
    rcases hm with rfl | rfl <;> rfl
  have hclose : run (.quoted mark cs) [mark] = some ([], .closing mark cs) := by
    simp [run, step]
  rw [enclose, List.cons_append, run_cons_silent hstart, run_append_silent (run_quoted mark cs [])]
  exact hclose

end Lexer

/-- A text between marks is one token, whatever it holds. -/
theorem reads_enclose {mark : Char} (hm : mark = '"' ∨ mark = '\'') (cs : List Char) :
    Reads (String.ofList (enclose mark cs)) [quotedToken mark cs] := by
  refine ⟨[], [quotedToken mark cs], .closing mark cs, ?_, hm, rfl, rfl⟩
  rw [String.toList_ofList]
  exact Lexer.run_enclose hm cs

/-- An identifier is one token, the name itself. -/
theorem reads_identifier (name : String) : Reads (identifier name) [.name name] := by
  have h := reads_enclose (.inl rfl) name.toList
  rwa [quotedToken, if_pos rfl, String.ofList_toList] at h

/-- A string literal is one token, the text itself. -/
theorem reads_stringLiteral (value : String) :
    Reads (stringLiteral value) [.literal value] := by
  have h := reads_enclose (.inr rfl) value.toList
  rwa [quotedToken, if_neg (by decide), String.ofList_toList] at h

/-! ## Words and numbers -/

/-- Whether a text is a word. -/
def isWord (s : String) : Bool :=
  match s.toList with
  | [] => false
  | c :: cs => Lexer.beginsWord c && cs.all Lexer.continuesWord

namespace Lexer

/-- A word takes up all characters that go on with it. -/
theorem run_word {cs : List Char} (h : ∀ c ∈ cs, continuesWord c = true) (read : List Char) :
    run (.word read) cs = some ([], .word (read ++ cs)) := by
  induction cs generalizing read with
  | nil => simp
  | cons c cs ih =>
    have hstep : step (.word read) c = some ([], .word (read ++ [c])) := by
      simp [step, h c List.mem_cons_self]
    have hrest := ih (fun d hd => h d (List.mem_cons_of_mem c hd)) (read ++ [c])
    rw [List.append_assoc, List.singleton_append] at hrest
    rw [run_cons_silent hstep]
    exact hrest

/-- A number takes up all digits that follow. -/
theorem run_digits {cs : List Char} (h : ∀ c ∈ cs, c.isDigit = true) (n : Nat) :
    run (.digits n) cs = some ([], .digits (Nat.ofDigitChars 10 cs n)) := by
  induction cs generalizing n with
  | nil => rfl
  | cons c cs ih =>
    have hstep : step (.digits n) c = some ([], .digits (10 * n + (c.toNat - '0'.toNat))) := by
      simp [step, h c List.mem_cons_self]
    have hrest := ih (fun d hd => h d (List.mem_cons_of_mem c hd)) (10 * n + (c.toNat - '0'.toNat))
    rw [Nat.ofDigitChars_cons, run_cons_silent hstep]
    exact hrest

/-- A character that separates tokens begins none. -/
theorem begins_of_isSpace {c : Char} (h : isSpace c = true) :
    beginsWord c = false ∧ c.isDigit = false := by
  simp only [isSpace, Bool.or_eq_true, beq_iff_eq] at h
  rcases h with (((rfl | rfl) | rfl) | rfl) | rfl <;> decide

/-- A digit begins no word. -/
theorem beginsWord_of_isDigit {c : Char} (h : c.isDigit = true) : beginsWord c = false := by
  have hval : c.val.toNat = c.toNat := rfl
  have hdigit : 48 ≤ c.toNat ∧ c.toNat ≤ 57 := by
    simpa [Char.isDigit, UInt32.le_iff_toNat_le] using h
  have hupper : 'A'.val.toNat = 65 := rfl
  have hlower : 'a'.val.toNat = 97 := rfl
  simp only [beginsWord, Bool.or_eq_false_iff, beq_eq_false_iff_ne]
  constructor
  · simp only [Char.isAlpha, Char.isUpper, Char.isLower, Bool.or_eq_false_iff,
      Bool.and_eq_false_iff, decide_eq_false_iff_not, ge_iff_le, UInt32.le_iff_toNat_le, hval,
      hupper, hlower]
    omega
  · rintro rfl
    revert h
    decide

/-- A letter begins a word. -/
theorem step_of_beginsWord {c : Char} (h : beginsWord c = true) :
    step .between c = some ([], .word [c]) := by
  have hspace : isSpace c = false := by
    refine Bool.eq_false_iff.mpr fun hc => ?_
    have hw := (begins_of_isSpace hc).1
    rw [h] at hw
    exact Bool.noConfusion hw
  simp [step, start, hspace, h]

/-- A digit begins a number. -/
theorem step_of_isDigit {c : Char} (h : c.isDigit = true) :
    step .between c = some ([], .digits (c.toNat - '0'.toNat)) := by
  have hspace : isSpace c = false := by
    refine Bool.eq_false_iff.mpr fun hc => ?_
    have hd := (begins_of_isSpace hc).2
    rw [h] at hd
    exact Bool.noConfusion hd
  simp [step, start, hspace, beginsWord_of_isDigit h, h]

end Lexer

/-- A word is read as a whole. -/
theorem run_of_isWord {s : String} (h : isWord s = true) :
    Lexer.run .between s.toList = some ([], .word s.toList) := by
  unfold isWord at h
  cases hs : s.toList with
  | nil => simp [hs] at h
  | cons c cs =>
    rw [hs] at h
    simp only [Bool.and_eq_true, List.all_eq_true] at h
    rw [Lexer.run_cons_silent (Lexer.step_of_beginsWord h.1)]
    exact Lexer.run_word h.2 [c]

/-- A word is one token. -/
theorem reads_word {s : String} (h : isWord s = true) : Reads s [.word s] := by
  refine ⟨[], [.word s], .word s.toList, run_of_isWord h, trivial, ?_, rfl⟩
  rw [Lexer.flush, String.ofList_toList]

/-- A word with the digits of a number after it is a word. -/
theorem isWord_append_ofNat {s : String} (h : isWord s = true) (n : Nat) :
    isWord (s ++ Digits.ofNat n) = true := by
  have hdigits : ∀ c ∈ (Digits.ofNat n).toList, Lexer.continuesWord c = true := by
    intro c hc
    rw [Digits.ofNat, String.toList_ofList, Digits.chars] at hc
    have hd : c.isDigit = true := Nat.isDigit_of_mem_toDigits (by decide) (by decide) hc
    simp [Lexer.continuesWord, Char.isAlphanum, hd]
  unfold isWord at h ⊢
  rw [String.toList_append]
  cases hs : s.toList with
  | nil => simp [hs] at h
  | cons c cs =>
    rw [hs] at h
    simp only [Bool.and_eq_true, List.all_eq_true] at h
    simp only [List.cons_append, Bool.and_eq_true, List.all_eq_true, List.mem_append]
    exact ⟨h.1, fun d hd => hd.elim (h.2 d) (hdigits d)⟩

/-- A state that begins a number with a digit reads the digits of a number. -/
theorem Lexer.run_ofNat {s : State} {ts : List Token}
    (h : ∀ c : Char, c.isDigit = true → step s c = some (ts, .digits (c.toNat - '0'.toNat)))
    (n : Nat) : run s (Digits.ofNat n).toList = some (ts, .digits n) := by
  rw [Digits.ofNat, String.toList_ofList, Digits.chars]
  have hdigits : ∀ c ∈ Nat.toDigits 10 n, c.isDigit = true :=
    fun c hc => Nat.isDigit_of_mem_toDigits (by decide) (by decide) hc
  have hvalue : Nat.ofDigitChars 10 (Nat.toDigits 10 n) 0 = n := Nat.ofDigitChars_ten_toDigits
  cases hcs : Nat.toDigits 10 n with
  | nil => exact absurd hcs Nat.toDigits_ne_nil
  | cons c cs =>
    rw [hcs] at hdigits hvalue
    rw [Nat.ofDigitChars_cons, Nat.mul_zero, Nat.zero_add] at hvalue
    have hrest := run_digits (fun d hd => hdigits d (List.mem_cons_of_mem c hd))
      (c.toNat - '0'.toNat)
    rw [hvalue] at hrest
    rw [run_cons (h c (hdigits c List.mem_cons_self)) hrest, List.append_nil]

/-- The digits of a number are one token, the number itself. -/
theorem reads_ofNat (n : Nat) : Reads (Digits.ofNat n) [.number n] :=
  ⟨[], [.number n], .digits n, Lexer.run_ofNat (fun _ h => Lexer.step_of_isDigit h) n, trivial,
    rfl, rfl⟩

/-- The tokens of an integer: its size, after a sign if it is negative. -/
def integerTokens : Int → List Token
  | .ofNat n => [.number n]
  | .negSucc n => [.sign "-", .number (n + 1)]

/-- The text of an integer is its tokens. -/
theorem reads_ofInt (n : Int) : Reads (Digits.ofInt n) (integerTokens n) := by
  cases n with
  | ofNat n => exact reads_ofNat n
  | negSucc n =>
    have hdigit : ∀ c : Char, c.isDigit = true →
        Lexer.step (.sign '-') c = some ([.sign "-"], .digits (c.toNat - '0'.toNat)) := by
      intro c hc
      have hd : c ≠ '-' ∧ c ≠ '>' := by
        constructor <;> rintro rfl <;> revert hc <;> decide
      have hstart : Lexer.start c = some ([], .digits (c.toNat - '0'.toNat)) :=
        Lexer.step_of_isDigit hc
      simp [Lexer.step, Lexer.signPairs, Lexer.refusedPair, hd, Lexer.next, Lexer.flush, hstart]
    have hsign : Lexer.step .between '-' = some ([], .sign '-') := rfl
    refine ⟨[.sign "-"], [.number (n + 1)], .digits (n + 1), ?_, trivial, rfl, rfl⟩
    rw [Digits.ofInt, String.toList_append]
    exact (Lexer.run_cons_silent hsign _).trans (Lexer.run_ofNat hdigit (n + 1))

end Quarry.Sql
