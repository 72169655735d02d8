/-
# Regular expressions

* `Regex` — a regular expression.
* `Places` — a set of places in a text.
* `Regex.ends` — the places where a match that starts at one of some places can end.
* `Regex.isMatch` — whether a text has a match anywhere.

A whole set of places is followed at once, so that no text takes more than a polynomial time.
-/
import Quarry.Template.CharSet

namespace Quarry.Template

/-! ## Expressions -/

/-- Where a word starts or ends. -/
inductive WordEdge where
  /-- Between a word and something else. -/
  | boundary
  /-- Not between a word and something else. -/
  | notBoundary
  /-- Before a word and not after one. -/
  | start
  /-- After a word and not before one. -/
  | finish
  /-- Not after a word. -/
  | startHalf
  /-- Not before a word. -/
  | finishHalf
  deriving DecidableEq, Repr

/-- A condition on a place. -/
inductive Assertion where
  | textStart
  | textEnd
  | lineStart
  | lineEnd
  /-- The start of a line, where a carriage return ends lines too. -/
  | lineStartReturn
  /-- The end of a line, where a carriage return ends lines too. -/
  | lineEndReturn
  /-- An edge of a word, whose characters have a property. -/
  | word (edge : WordEdge) (p : Property)
  deriving DecidableEq, Repr

/-- A regular expression. -/
inductive Regex where
  | empty
  | set (s : CharSet)
  | assertion (a : Assertion)
  | seq (r s : Regex)
  | alt (r s : Regex)
  /-- At least and at most so many times, or without a greatest number. -/
  | repeated (r : Regex) (least : Nat) (most : Option Nat)
  deriving DecidableEq, Repr

/-! ## Conditions -/

/-- Whether a word edge lies between two neighbours that belong to words or not. -/
def WordEdge.holds (before after : Bool) : WordEdge → Bool
  | .boundary => before != after
  | .notBoundary => before == after
  | .start => !before && after
  | .finish => before && !after
  | .startHalf => !before
  | .finishHalf => !after

/-- Whether a condition holds between two characters, either of which the text may lack. -/
def Assertion.holds (a : Assertion) (before after : Option Char) : Bool :=
  match a with
  | .textStart => before.isNone
  | .textEnd => after.isNone
  | .lineStart => before.isNone || before == some '\n'
  | .lineEnd => after.isNone || after == some '\n'
  | .lineStartReturn => before.isNone || before == some '\n' ||
      (before == some '\r' && after != some '\n')
  | .lineEndReturn => after.isNone || after == some '\r' ||
      (after == some '\n' && before != some '\r')
  | .word edge q => edge.holds (before.any q.holds) (after.any q.holds)

/-! ## Places -/

/-- A set of places in a text: bit `i` tells whether the place after `i` characters is in it. -/
abbrev Places := Nat

namespace Places

/-- The places of a text whose neighbours pass a test. -/
def among (test : (before after : Option Char) → Bool) (before : Option Char) :
    List Char → Places
  | [] => (test before none).toNat
  | c :: cs => 2 * among test (some c) cs + (test before (some c)).toNat

/-- The places just after the given ones. -/
def next (ps : Places) : Places := ps <<< 1

/-- The places among some that are not among others. -/
def without (ps others : Places) : Places := ps ^^^ (ps &&& others)

/-- A place is just after a given one if it is not the first and the one before it is given. -/
theorem testBit_next (ps : Places) (i : Nat) :
    (next ps).testBit i = (decide (1 ≤ i) && ps.testBit (i - 1)) := by
  simp [next, Nat.testBit_shiftLeft]

/-- What is left are the places that are in the one set and not in the other. -/
theorem testBit_without (ps others : Places) (i : Nat) :
    (without ps others).testBit i = (ps.testBit i && !others.testBit i) := by
  simp only [without, Nat.testBit_xor, Nat.testBit_and]
  cases ps.testBit i <;> cases others.testBit i <;> rfl

end Places

/-! ## Matching -/

/-- The places reached by exactly so many steps. -/
def stepTimes (step : Places → Places) : Nat → Places → Places
  | 0, ps => ps
  | n + 1, ps => stepTimes step n (step ps)

/-- The places reached by at most so many steps from the new ones, beside those already reached. -/
def stepUpTo (step : Places → Places) : Nat → (done fresh : Places) → Places
  | 0, done, _ => done
  | n + 1, done, fresh =>
    let reached := Places.without (step fresh) done
    if reached = 0 then done else stepUpTo step n (done ||| reached) reached

/-- The places reached by a number of steps between two bounds, in a text of so many characters.
More steps than there are places reach nothing new. -/
def stepBetween (step : Places → Places) (length least : Nat) (most : Option Nat) (ps : Places) :
    Places :=
  let places := length + 1
  let start := stepTimes step (min least (places + 1)) ps
  let further := match most with
    | some m => min (m - least) places
    | none => places
  stepUpTo step further start start

/-- The places of a text where a match that starts at one of some places can end. -/
def Regex.ends (text : List Char) : Regex → Places → Places
  | .empty, ps => ps
  | .set s, ps => Places.next (ps &&& Places.among (fun _ after => after.any s.mem) none text)
  | .assertion a, ps => ps &&& Places.among a.holds none text
  | .seq r s, ps => s.ends text (r.ends text ps)
  | .alt r s, ps => r.ends text ps ||| s.ends text ps
  | .repeated r least most, ps => stepBetween (r.ends text) text.length least most ps

/-- Whether a text has a match anywhere. -/
def Regex.isMatch (r : Regex) (text : String) : Bool :=
  r.ends text.toList (Places.among (fun _ _ => true) none text.toList) != 0

end Quarry.Template
