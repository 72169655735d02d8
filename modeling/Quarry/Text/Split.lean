/-
# Splitting

* `pieces` — the pieces of a text between marks; a text without marks is one piece.
* `contentLines` — the lines of a text that are not blank, without the blanks at their two ends.
* `firstEntry` — the first entry of a list that is separated by commas.
* `untilZero` — the part of a text before the first character of code zero.
-/
import Quarry.Text.Blank

namespace Quarry.Text

/-- The pieces of a text between marks. -/
def pieces (mark : Char) : List Char → List (List Char)
  | [] => [[]]
  | c :: cs =>
    if c = mark then [] :: pieces mark cs
    else match pieces mark cs with
      | [] => [[c]]
      | piece :: rest => (c :: piece) :: rest

/-- A text has at least one piece. -/
theorem pieces_ne_nil (mark : Char) (cs : List Char) : pieces mark cs ≠ [] := by
  cases cs with
  | nil => simp [pieces]
  | cons c cs =>
    unfold pieces
    split
    · simp
    · split <;> simp

/-- The lines of a text that are not blank, without the blanks at their two ends. -/
def contentLines (s : String) : List String :=
  (((pieces '\n' s.toList).map trimChars).filter fun line => !line.isEmpty).map String.ofList

/-- The first entry of a list that is separated by commas, without the blanks at its two ends. -/
def firstEntry (s : String) : String := trim (String.ofList (s.toList.takeWhile (· != ',')))

/-- The characters before the first one of code zero, where some readers take a text to end. -/
def untilZero (cs : List Char) : List Char := cs.takeWhile (· != Char.ofNat 0)

/-- A text without such a character is all before it. -/
theorem untilZero_eq_self {cs : List Char} (h : Char.ofNat 0 ∉ cs) : untilZero cs = cs := by
  have hne : ∀ c ∈ cs, (c != Char.ofNat 0) = true := fun c hc =>
    bne_iff_ne.mpr fun hzero => h (hzero ▸ hc)
  have hall : untilZero (cs ++ []) = cs ++ untilZero [] := List.takeWhile_append_of_pos hne
  rwa [List.append_nil, show untilZero [] = [] from rfl, List.append_nil] at hall

end Quarry.Text
