/-
# Patterns with stars

A pattern of plain characters and stars is read as the sequence of its characters, with any text in
the place of a star. It applies to the names in which its pieces between the stars stand one after
another.

* `IsStarPattern` — letters and digits of ASCII, `_`, `-` and stars.
* `readSequence_expand` — what is read of such a pattern. `ofText?_expandStars` — the regular
  expression that it is.
* `InOrder` — pieces stand in a text one after another, with any texts around them.
* `isMatch_expandStars` — such a pattern has a match in a name if its pieces stand in it in order.
-/
import Mathlib.Data.List.Basic
import Quarry.Engine.Basic
import Quarry.Proofs.Template.Matching
import Quarry.Text.Split

namespace Quarry.Template

open Quarry.Text Quarry.Engine

/-! ## Patterns -/

/-- A character that stands for itself. -/
def IsPlainChar (c : Char) : Prop := c.isAlphanum = true ∨ c = '_' ∨ c = '-'

instance (c : Char) : Decidable (IsPlainChar c) := inferInstanceAs (Decidable (_ ∨ _ ∨ _))

/-- A pattern of plain characters and stars. -/
def IsStarPattern (pattern : String) : Prop := ∀ c ∈ pattern.toList, c = '*' ∨ IsPlainChar c

instance (pattern : String) : Decidable (IsStarPattern pattern) :=
  List.decidableBAll (fun c => c = '*' ∨ IsPlainChar c) pattern.toList

/-- Any character within a line. -/
def inLine : Regex := .set (.complement (.single '\n'))

/-- What a character of a pattern is read as: a star as any text within a line, and every other
character as itself. -/
def pieceOf (c : Char) : Piece :=
  if c = '*' then ⟨.repeated inLine 0 none, 1⟩ else ⟨.set (.single c), 0⟩

/-- The characters of a pattern with its stars expanded. -/
def expand (cs : List Char) : List Char := cs.flatMap fun c => if c = '*' then ['.', '*'] else [c]

theorem toList_expandStars (pattern : String) :
    (expandStars pattern).toList = expand pattern.toList := String.toList_ofList

theorem expand_cons (c : Char) (cs : List Char) :
    expand (c :: cs) = (if c = '*' then ['.', '*'] else [c]) ++ expand cs := List.flatMap_cons

/-! ## Reading -/

/-- The characters at which something else than a plain character is read. -/
def operators : List Char := [')', '|', '?', '*', '+', '\x7b', '[', '(', '\\', '.', '^', '$']

theorem ne_of_isPlainChar {c : Char} (h : IsPlainChar c) : ∀ d ∈ operators, c ≠ d := by
  have hplain : operators.all (¬ IsPlainChar ·) = true := by decide
  rintro d hd rfl
  exact of_decide_eq_true (List.all_eq_true.mp hplain c hd) h

/-- A plain character is read as itself. -/
theorem readSequence_plain {c : Char} (h : IsPlainChar c) (fuel : Nat) (names : List String)
    (done : List (Option Piece)) (cs : List Char) :
    readSequence (fuel + 1) ⟨{}, names⟩ done (c :: cs) =
      readSequence fuel ⟨{}, names⟩ (some ⟨.set (.single c), 0⟩ :: done) cs := by
  have hne := ne_of_isPlainChar h
  simp only [operators, List.forall_mem_cons] at hne
  have hskip : Flags.skip {} (c :: cs) = c :: cs := rfl
  have hitem : readItem {} (c :: cs) = some (.set (.single c), cs) := by
    simp [readItem, hne, Flags.literal, Flags.fold]
  rw [readSequence]
  simp [hskip, hne, hitem]

/-- A star is read as any text within a line, unless a question mark follows it. -/
theorem readSequence_star (fuel : Nat) (names : List String) (done : List (Option Piece))
    {cs : List Char} (h : cs.head? ≠ some '?') :
    readSequence (fuel + 2) ⟨{}, names⟩ done ('.' :: '*' :: cs) =
      readSequence fuel ⟨{}, names⟩ (some ⟨.repeated inLine 0 none, 1⟩ :: done) cs := by
  have htake : takeLazy {} cs = cs := by
    have hskip : Flags.skip {} cs = cs := rfl
    rw [takeLazy, hskip]
    split
    · exact absurd rfl h
    · rfl
  calc readSequence (fuel + 2) ⟨{}, names⟩ done ('.' :: '*' :: cs)
      = readSequence (fuel + 1) ⟨{}, names⟩ (some ⟨inLine, 0⟩ :: done) ('*' :: cs) := rfl
    _ = readSequence fuel ⟨{}, names⟩ (some ⟨.repeated inLine 0 none, 1⟩ :: done)
          (takeLazy {} cs) := rfl
    _ = readSequence fuel ⟨{}, names⟩ (some ⟨.repeated inLine 0 none, 1⟩ :: done) cs := by
        rw [htake]

theorem head?_expand {cs : List Char} (h : ∀ c ∈ cs, c = '*' ∨ IsPlainChar c) :
    (expand cs).head? ≠ some '?' := by
  cases cs with
  | nil => simp [expand]
  | cons c cs =>
    rw [expand_cons]
    split_ifs with hstar
    · simp
    · have hplain := (h c List.mem_cons_self).resolve_left hstar
      have hne := ne_of_isPlainChar hplain '?' (by decide)
      simpa using hne

/-- The characters of a pattern are read one after another, behind those already read. -/
theorem readSequence_expand {cs : List Char} (h : ∀ c ∈ cs, c = '*' ∨ IsPlainChar c) {fuel : Nat}
    (hfuel : (expand cs).length < fuel) (names : List String) (done : List Piece) :
    readSequence fuel ⟨{}, names⟩ (done.reverse.map some) (expand cs) =
      some (Piece.seq (done ++ cs.map pieceOf), ⟨{}, names⟩, []) := by
  induction cs generalizing fuel done with
  | nil =>
    obtain ⟨fuel, rfl⟩ := Nat.exists_eq_add_one_of_ne_zero (Nat.ne_of_gt hfuel)
    have hdone : (done.reverse.map some).reverse.filterMap id = done := by
      rw [← List.map_reverse, List.reverse_reverse, List.filterMap_map]
      exact List.filterMap_some
    have hend : readSequence (fuel + 1) ⟨{}, names⟩ (done.reverse.map some) (expand []) =
        some (Piece.seq ((done.reverse.map some).reverse.filterMap id), ⟨{}, names⟩, []) := rfl
    rw [hend, hdone, List.map_nil, List.append_nil]
  | cons c cs ih =>
    obtain ⟨hc, hrest⟩ := List.forall_mem_cons.mp h
    have hnext : some (pieceOf c) :: done.reverse.map some =
        (done ++ [pieceOf c]).reverse.map some := by
      rw [List.reverse_append, List.reverse_singleton, List.singleton_append, List.map_cons]
    have hall : done ++ (c :: cs).map pieceOf = (done ++ [pieceOf c]) ++ cs.map pieceOf := by
      rw [List.map_cons, List.append_assoc, List.singleton_append]
    rw [expand_cons] at hfuel ⊢
    rw [hall]
    by_cases hstar : c = '*'
    · subst hstar
      rw [if_pos rfl] at hfuel ⊢
      obtain ⟨fuel, rfl⟩ := Nat.exists_eq_add_of_le' (show 2 ≤ fuel by simp at hfuel; omega)
      have hlength : (expand cs).length < fuel := by simpa using hfuel
      have hpiece : pieceOf '*' = ⟨.repeated inLine 0 none, 1⟩ := rfl
      refine (readSequence_star fuel names _ (head?_expand hrest)).trans ?_
      rw [← hpiece, hnext]
      exact ih hrest hlength _
    · rw [if_neg hstar, List.singleton_append] at hfuel ⊢
      have hplain := hc.resolve_left hstar
      have hpiece : pieceOf c = ⟨.set (.single c), 0⟩ := if_neg hstar
      obtain ⟨fuel, rfl⟩ := Nat.exists_eq_add_of_le' (show 1 ≤ fuel by simp at hfuel; omega)
      have hlength : (expand cs).length < fuel := by simpa using hfuel
      rw [readSequence_plain hplain, ← hpiece, hnext]
      exact ih hrest hlength _

/-- The regular expression of a pattern is the sequence of what its characters are read as. -/
theorem ofText?_expandStars {pattern : String} (h : IsStarPattern pattern) {regex : Regex}
    (hregex : Regex.ofText? (expandStars pattern) = some regex) :
    regex = (Piece.seq (pattern.toList.map pieceOf)).regex := by
  have hfuel : (expand pattern.toList).length < 2 * (expand pattern.toList).length + 1 := by
    omega
  have hread := readSequence_expand h hfuel [] []
  have halternatives : readAlternatives (2 * (expand pattern.toList).length + 2) ⟨{}, []⟩ []
      (expand pattern.toList) =
      some (Piece.seq (pattern.toList.map pieceOf), ⟨{}, []⟩, []) := by
    rw [readAlternatives]
    rw [List.reverse_nil, List.map_nil, List.nil_append] at hread
    rw [hread]
    rfl
  rw [Regex.ofText?, toList_expandStars] at hregex
  simp only [halternatives] at hregex
  split_ifs at hregex
  exact (Option.some.inj hregex).symm

/-! ## Pieces in a text -/

/-- Pieces stand in a text one after another, with any texts around them. -/
inductive InOrder : List (List Char) → List Char → Prop
  | nil (text : List Char) : InOrder [] text
  | cons {p rest : List Char} {ps : List (List Char)} (gap : List Char) (h : InOrder ps rest) :
    InOrder (p :: ps) (gap ++ (p ++ rest))

/-- The first of some pieces stands at the start of a text, and the others stand behind it. -/
def StartInOrder (ps : List (List Char)) (text : List Char) : Prop :=
  ∃ p rest, ps.head? = some p ∧ text = p ++ rest ∧ InOrder ps.tail rest

/-- Pieces stand in a text if they start at one of its places. -/
theorem inOrder_iff {ps : List (List Char)} (hne : ps ≠ []) {text : List Char} :
    InOrder ps text ↔ ∃ k ≤ text.length, StartInOrder ps (text.drop k) := by
  constructor
  · intro h
    cases h with
    | nil => exact absurd rfl hne
    | @cons p rest ps gap h =>
      refine ⟨gap.length, by simp, p, rest, rfl, ?_, h⟩
      rw [List.drop_left]
  · rintro ⟨k, -, p, rest, hhead, hdrop, h⟩
    obtain ⟨ps, rfl⟩ := List.head?_eq_some_iff.mp hhead
    rw [← List.take_append_drop k text, hdrop]
    exact .cons _ h

/-- Behind a star, pieces stand in a text wherever they start. -/
theorem startInOrder_star {cs text : List Char} :
    StartInOrder (pieces '*' ('*' :: cs)) text ↔ InOrder (pieces '*' cs) text := by
  rw [pieces, if_pos rfl]
  constructor
  · rintro ⟨p, rest, hp, rfl, h⟩
    cases hp
    exact h
  · exact fun h => ⟨[], text, rfl, rfl, h⟩

/-- Behind any other character they start where that one stands. -/
theorem startInOrder_cons {c : Char} (hc : c ≠ '*') {cs text : List Char} :
    StartInOrder (pieces '*' (c :: cs)) text ↔
      ∃ rest, text = c :: rest ∧ StartInOrder (pieces '*' cs) rest := by
  obtain ⟨p, ps, hp⟩ := List.exists_cons_of_ne_nil (pieces_ne_nil '*' cs)
  rw [pieces, if_neg hc, hp]
  constructor
  · rintro ⟨q, rest, hq, rfl, h⟩
    cases hq
    exact ⟨p ++ rest, rfl, p, rest, rfl, rfl, h⟩
  · rintro ⟨rest, rfl, q, rest', hq, rfl, h⟩
    cases hq
    exact ⟨c :: p, rest', rfl, rfl, h⟩

/-! ## Matches of pieces -/

section

variable {text : List Char} {i j k : Nat}

/-- Pieces that were read have matches one after another. -/
def SpansAll (text : List Char) : List Piece → Nat → Nat → Prop
  | [], i, j => i = j
  | p :: ps, i, j => ∃ k, p.regex.Spans text i k ∧ SpansAll text ps k j

theorem spans_foldl (r : Regex) (ps : List Piece) :
    (ps.foldl (fun r q => .seq r q.regex) r).Spans text i j ↔
      ∃ k, r.Spans text i k ∧ SpansAll text ps k j := by
  induction ps generalizing r with
  | nil => simp [SpansAll]
  | cons p ps ih =>
    rw [List.foldl_cons, ih]
    simp only [Regex.Spans, SpansAll]
    constructor
    · rintro ⟨l, ⟨k, hk, hl⟩, hj⟩
      exact ⟨k, hk, l, hl, hj⟩
    · rintro ⟨k, hk, l, hl, hj⟩
      exact ⟨l, ⟨k, hk, hl⟩, hj⟩

theorem spans_seq (ps : List Piece) :
    (Piece.seq ps).regex.Spans text i j ↔ SpansAll text ps i j := by
  match ps with
  | [] => rfl
  | [p] => simp [Piece.seq, SpansAll]
  | p :: q :: ps => exact spans_foldl p.regex (q :: ps)

theorem mem_single {c d : Char} : (CharSet.single c).mem d = true ↔ d = c := by
  rw [CharSet.single, CharSet.mem, Bool.and_eq_true, decide_eq_true_iff, decide_eq_true_iff]
  constructor
  · exact fun hd => Char.le_antisymm hd.2 hd.1
  · rintro rfl
    exact ⟨Char.le_refl d, Char.le_refl d⟩

/-- A plain character matches itself. -/
theorem spans_plain {c : Char} (h : c ≠ '*') :
    (pieceOf c).regex.Spans text i j ↔ j = i + 1 ∧ text[i]? = some c := by
  rw [pieceOf, if_neg h, Regex.Spans]
  simp only [mem_single, exists_eq_right]

/-- Any number of characters of a line is matched one by one. -/
theorem steps_inLine (hline : '\n' ∉ text) (n : Nat) (h : i + n ≤ text.length) :
    Steps (inLine.Spans text) n i (i + n) := by
  induction n generalizing i with
  | zero => rfl
  | succ n ih =>
    have hlt : i < text.length := by omega
    have hnext : i + (n + 1) = i + 1 + n := by omega
    rw [hnext] at h ⊢
    refine ⟨i + 1, ⟨rfl, text[i], List.getElem?_eq_getElem hlt, ?_⟩, ih h⟩
    rw [CharSet.mem, Bool.not_eq_true', Bool.eq_false_iff, Ne, mem_single]
    exact fun heq => hline (heq ▸ List.getElem_mem hlt)

/-- A star matches from a place to any later one of its line. -/
theorem spans_star (hline : '\n' ∉ text) (hi : i ≤ text.length) :
    (pieceOf '*').regex.Spans text i j ↔ i ≤ j ∧ j ≤ text.length := by
  constructor
  · rintro ⟨n, -, hj⟩
    have hgoes := (Regex.goesOn_spans text inLine).steps n i j hj
    omega
  · rintro ⟨hij, hj⟩
    obtain ⟨n, rfl⟩ := Nat.exists_eq_add_of_le hij
    exact ⟨n, ⟨Nat.zero_le n, fun m hm => by cases hm⟩, steps_inLine hline n hj⟩

/-- What a pattern is read as has a match from a place if its pieces start there in order. -/
theorem exists_spansAll (hline : '\n' ∉ text) (cs : List Char) (hi : i ≤ text.length) :
    (∃ j, SpansAll text (cs.map pieceOf) i j) ↔ StartInOrder (pieces '*' cs) (text.drop i) := by
  induction cs generalizing i with
  | nil =>
    refine iff_of_true ⟨i, rfl⟩ ⟨[], text.drop i, rfl, rfl, .nil _⟩
  | cons c cs ih =>
    simp only [List.map_cons, SpansAll]
    rw [exists_comm]
    simp only [exists_and_left]
    by_cases hstar : c = '*'
    · subst hstar
      rw [startInOrder_star, inOrder_iff (pieces_ne_nil '*' cs)]
      simp only [spans_star hline hi, List.drop_drop]
      constructor
      · rintro ⟨k, ⟨hik, hk⟩, hspans⟩
        refine ⟨k - i, by rw [List.length_drop]; omega, ?_⟩
        rw [Nat.add_sub_cancel' hik]
        exact (ih hk).mp hspans
      · rintro ⟨k, hk, hstarts⟩
        rw [List.length_drop] at hk
        exact ⟨i + k, ⟨Nat.le_add_right i k, by omega⟩, (ih (by omega)).mpr hstarts⟩
    · rw [startInOrder_cons hstar]
      simp only [spans_plain hstar]
      constructor
      · rintro ⟨k, ⟨rfl, hc⟩, hspans⟩
        obtain ⟨hlt, hget⟩ := List.getElem?_eq_some_iff.mp hc
        exact ⟨text.drop (i + 1), by rw [List.drop_eq_getElem_cons hlt, hget], (ih hlt).mp hspans⟩
      · rintro ⟨rest, hdrop, h⟩
        have hc : text[i]? = some c := by
          rw [← List.head?_drop, hdrop]
          rfl
        have hlt := (List.getElem?_eq_some_iff.mp hc).1
        obtain rfl : text.drop (i + 1) = rest := by
          rw [← List.tail_drop, hdrop]
          rfl
        exact ⟨i + 1, ⟨rfl, hc⟩, (ih hlt).mpr h⟩

end

/-! ## Names -/

/-- The name of an index is of one line. -/
theorem newline_not_mem {name : String} (h : isIndexName name = true) : '\n' ∉ name.toList := by
  intro hmem
  simp only [isIndexName, Bool.and_eq_true, List.all_eq_true] at h
  have hchar := h.1.2 '\n' hmem
  revert hchar
  decide

/-- A pattern with stars has a match in the name of an index if its pieces between the stars stand in
the name one after another. -/
theorem isMatch_expandStars {pattern name : String} (hpattern : IsStarPattern pattern)
    {regex : Regex} (hregex : Regex.ofText? (expandStars pattern) = some regex)
    (hname : isIndexName name = true) :
    regex.isMatch name = true ↔ InOrder (pieces '*' pattern.toList) name.toList := by
  have hline := newline_not_mem hname
  rw [ofText?_expandStars hpattern hregex, Regex.isMatch_iff,
    inOrder_iff (pieces_ne_nil '*' pattern.toList)]
  constructor
  · rintro ⟨i, j, hi, hspans⟩
    exact ⟨i, hi, (exists_spansAll hline _ hi).mp ⟨j, (spans_seq _).mp hspans⟩⟩
  · rintro ⟨i, hi, hstarts⟩
    obtain ⟨j, hspans⟩ := (exists_spansAll hline _ hi).mpr hstarts
    exact ⟨i, j, hi, (spans_seq _).mpr hspans⟩

/-- The two pieces of a pattern stand in one name in order, and in another one only the other way
round. -/
theorem isMatch_expandStars_example : ∃ regex,
    Regex.ofText? (expandStars "*logs-**app*") = some regex ∧
    InOrder (pieces '*' "*logs-**app*".toList) "old-logs-2024-app.1".toList ∧
    ¬ InOrder (pieces '*' "*logs-**app*".toList) "app-logs-2024".toList := by
  have hpattern : IsStarPattern "*logs-**app*" := by decide
  obtain ⟨regex, hregex⟩ := Option.isSome_iff_exists.mp
    (show (Regex.ofText? (expandStars "*logs-**app*")).isSome = true by decide +kernel)
  have hmatches : (Regex.ofText? (expandStars "*logs-**app*")).map
      (fun regex => (regex.isMatch "old-logs-2024-app.1", regex.isMatch "app-logs-2024")) =
      some (true, false) := by decide +kernel
  rw [hregex, Option.map_some, Option.some.injEq, Prod.mk.injEq] at hmatches
  refine ⟨regex, hregex, ?_, ?_⟩
  · exact (isMatch_expandStars hpattern hregex (by decide)).mp hmatches.1
  · rw [← isMatch_expandStars hpattern hregex (by decide), hmatches.2]
    exact Bool.false_ne_true

end Quarry.Template
