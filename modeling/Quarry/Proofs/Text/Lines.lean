/-
# Lines with content

A text has lines with content in order if they stand on lines of their own, whatever blanks stand
around them and whatever blank lines stand before, between and behind them.

* `IsContent` — a line with content and no blanks at its two ends.
* `Row`, `Written` — a line as it stands in a text, and a text that has some lines with content.
* `linesOf_feed` — the lines with content of a text are those up to a line feed, and those behind.
* `contentLines_eq_iff` — the lines with content of a text are those which it has in this sense.
-/
import Mathlib.Data.List.DropRight
import Mathlib.Data.List.TakeWhile
import Quarry.Text.Split

namespace Quarry.Text

/-! ## Margins -/

/-- Blanks within a line. -/
def IsMargin (cs : List Char) : Prop := ∀ c ∈ cs, isBlank c = true ∧ c ≠ '\n'

theorem IsMargin.blank {cs : List Char} (h : IsMargin cs) : ∀ c ∈ cs, isBlank c = true :=
  fun c hc => (h c hc).1

theorem IsMargin.feed {cs : List Char} (h : IsMargin cs) : '\n' ∉ cs := fun hc => (h _ hc).2 rfl

/-- Blanks of a line are a margin. -/
theorem isMargin_of_blank {cs : List Char} (hfeed : '\n' ∉ cs) (h : ∀ c ∈ cs, isBlank c = true) :
    IsMargin cs := fun c hc => ⟨h c hc, ne_of_mem_of_not_mem hc hfeed⟩

/-! ## Trimming -/

theorem trimRight_blank {right : List Char} (h : ∀ c ∈ right, isBlank c = true) (cs : List Char) :
    trimRight (cs ++ right) = trimRight cs := by
  have hreverse : ∀ c ∈ right.reverse, isBlank c = true := fun c hc => h c (List.mem_reverse.mp hc)
  rw [trimRight, trimRight, List.reverse_append, List.dropWhile_append_of_pos hreverse]

/-- Nothing is left of blanks. -/
theorem trimChars_blank {cs : List Char} (h : ∀ c ∈ cs, isBlank c = true) : trimChars cs = [] := by
  rw [trimChars, List.dropWhile_eq_nil_iff.mpr h]
  rfl

/-- A text stands between blanks once it is trimmed. -/
theorem exists_trimChars (cs : List Char) : ∃ left right, cs = left ++ trimChars cs ++ right ∧
    (∀ c ∈ left, isBlank c = true) ∧ ∀ c ∈ right, isBlank c = true := by
  have hback := congrArg List.reverse
    (List.takeWhile_append_dropWhile (p := isBlank) (l := (cs.dropWhile isBlank).reverse))
  rw [List.reverse_append, List.reverse_reverse] at hback
  refine ⟨cs.takeWhile isBlank, ((cs.dropWhile isBlank).reverse.takeWhile isBlank).reverse, ?_,
    fun c hc => List.mem_takeWhile_imp hc,
    fun c hc => List.mem_takeWhile_imp (List.mem_reverse.mp hc)⟩
  rw [List.append_assoc, trimChars, trimRight, hback, List.takeWhile_append_dropWhile]

/-- A text that is trimmed begins with no blank, if it is not empty. -/
theorem dropWhile_trimChars (cs : List Char) :
    (trimChars cs).dropWhile isBlank = trimChars cs := by
  cases hdrop : cs.dropWhile isBlank with
  | nil => rw [trimChars, hdrop]; rfl
  | cons c rest =>
    have hc : isBlank c = false := by
      have hhead := List.head?_dropWhile_not isBlank cs
      rw [hdrop] at hhead
      exact hhead
    -- The first character stays, because it is no blank at the end either.
    have hfirst : trimChars cs = c :: trimRight rest ∨ trimChars cs = [c] := by
      rw [trimChars, hdrop, trimRight, List.reverse_cons, List.dropWhile_append]
      split_ifs with hempty
      · right
        rw [List.dropWhile_cons_of_neg (by simp [hc])]
        rfl
      · left
        rw [List.reverse_append]
        rfl
    rcases hfirst with h | h <;> rw [h, List.dropWhile_cons_of_neg (by simp [hc])]

theorem trimChars_trimChars (cs : List Char) : trimChars (trimChars cs) = trimChars cs := by
  rw [trimChars, dropWhile_trimChars]
  exact List.rdropWhile_idempotent isBlank _

/-- Blanks around a text are trimmed away. -/
theorem trimChars_margins {left right : List Char} (hleft : IsMargin left)
    (hright : IsMargin right) (cs : List Char) :
    trimChars (left ++ cs ++ right) = trimChars cs := by
  rw [List.append_assoc, trimChars, List.dropWhile_append_of_pos hleft.blank,
    List.dropWhile_append, trimChars]
  split_ifs with hempty
  · rw [List.isEmpty_iff.mp hempty, List.dropWhile_eq_nil_iff.mpr hright.blank]
  · exact trimRight_blank hright.blank _

/-! ## Rows -/

/-- A line with content and no blanks at its two ends. -/
structure IsContent (line : String) : Prop where
  nonempty : line ≠ ""
  feed : '\n' ∉ line.toList
  trimmed : trim line = line

/-- A line has content and no blanks at its ends if it begins and ends with other characters. -/
theorem isContent_of_ends {c d : Char} {cs : List Char} (hc : isBlank c = false)
    (hd : isBlank d = false) (hfeed : '\n' ∉ cs) :
    IsContent (String.ofList (c :: (cs ++ [d]))) := by
  have hne : ∀ {x : Char}, isBlank x = false → '\n' ≠ x := by
    rintro _ hx rfl
    cases hx
  have htrim : trimChars (c :: (cs ++ [d])) = c :: (cs ++ [d]) := by
    rw [trimChars, List.dropWhile_cons_of_neg (by simp [hc]), trimRight, List.reverse_cons,
      List.reverse_append, List.reverse_singleton, List.cons_append, List.cons_append,
      List.dropWhile_cons_of_neg (by simp [hd])]
    simp
  refine ⟨fun hnil => ?_, ?_, ?_⟩
  · cases String.ofList_eq_empty_iff.mp hnil
  · simp [hne hc, hne hd, hfeed]
  · rw [trim, String.toList_ofList, htrim]

/-- A line as it stands in a text: it is blank, or has content with blanks around it. -/
inductive Row : List String → List Char → Prop
  | blank {margin : List Char} : IsMargin margin → Row [] margin
  | content {line : String} {left right : List Char} : IsContent line → IsMargin left →
    IsMargin right → Row [line] (left ++ line.toList ++ right)

/-- The characters at which a line ends. -/
inductive IsLineEnd : List Char → Prop
  | feed : IsLineEnd ['\n']
  | returnFeed : IsLineEnd ['\r', '\n']

/-- A text has lines with content in order. -/
inductive Written : List String → List Char → Prop
  | last {lines : List String} {row : List Char} : Row lines row → Written lines row
  | cons {first lines : List String} {row ending rest : List Char} : Row first row →
    IsLineEnd ending → Written lines rest → Written (first ++ lines) (row ++ ending ++ rest)

theorem Row.feed {lines : List String} {row : List Char} (h : Row lines row) : '\n' ∉ row := by
  cases h with
  | blank h => exact h.feed
  | content hline hleft hright => simp [hline.feed, hleft.feed, hright.feed]

/-- More blanks may stand behind a line. -/
theorem Row.append_margin {lines : List String} {row margin : List Char} (h : Row lines row)
    (hmargin : IsMargin margin) : Row lines (row ++ margin) := by
  cases h with
  | blank h => exact .blank (List.forall_mem_append.mpr ⟨h, hmargin⟩)
  | content hline hleft hright =>
    rw [List.append_assoc]
    exact .content hline hleft (List.forall_mem_append.mpr ⟨hright, hmargin⟩)

/-! ## Lines of a text -/

/-- The lines with content of some characters. -/
def linesOf (cs : List Char) : List String :=
  (((pieces '\n' cs).map trimChars).filter fun line => !line.isEmpty).map String.ofList

theorem contentLines_eq (text : String) : contentLines text = linesOf text.toList := rfl

theorem pieces_of_not_mem {mark : Char} {cs : List Char} (h : mark ∉ cs) :
    pieces mark cs = [cs] := by
  induction cs with
  | nil => rfl
  | cons c cs ih =>
    rw [pieces, if_neg (List.ne_of_not_mem_cons h).symm, ih (List.not_mem_of_not_mem_cons h)]

theorem pieces_append_mark {mark : Char} {cs : List Char} (h : mark ∉ cs) (rest : List Char) :
    pieces mark (cs ++ mark :: rest) = cs :: pieces mark rest := by
  induction cs with
  | nil => exact if_pos rfl
  | cons c cs ih =>
    rw [List.cons_append, pieces, if_neg (List.ne_of_not_mem_cons h).symm,
      ih (List.not_mem_of_not_mem_cons h)]

/-- The lines with content are those up to a line feed, and those behind it. -/
theorem linesOf_feed {row : List Char} (h : '\n' ∉ row) (rest : List Char) :
    linesOf (row ++ '\n' :: rest) = linesOf row ++ linesOf rest := by
  rw [linesOf, pieces_append_mark h, linesOf, pieces_of_not_mem h, linesOf, List.map_cons,
    ← List.singleton_append, List.filter_append, List.map_append]
  rfl

/-- The one line of a text without line feeds is what is left of it, if anything is. -/
theorem linesOf_row {row : List Char} (h : '\n' ∉ row) :
    linesOf row = if trimChars row = [] then [] else [String.ofList (trimChars row)] := by
  rw [linesOf, pieces_of_not_mem h, List.map_singleton]
  split_ifs with hempty
  · rw [hempty]
    rfl
  · rw [List.filter_cons_of_pos (by simpa using hempty)]
    rfl

theorem Row.linesOf_eq {lines : List String} {row : List Char} (h : Row lines row) :
    linesOf row = lines := by
  rw [linesOf_row h.feed]
  cases h with
  | blank h => rw [if_pos (trimChars_blank h.blank)]
  | @content line left right hline hleft hright =>
    have htrim : String.ofList (trimChars line.toList) = line := hline.trimmed
    have hne : trimChars line.toList ≠ [] := by
      intro hempty
      rw [hempty] at htrim
      exact hline.nonempty htrim.symm
    rw [trimChars_margins hleft hright, if_neg hne, htrim]

theorem row_linesOf {row : List Char} (h : '\n' ∉ row) : Row (linesOf row) row := by
  obtain ⟨left, right, hrow, hleft, hright⟩ := exists_trimChars row
  have hfeed : '\n' ∉ left ++ trimChars row ++ right := hrow ▸ h
  simp only [List.mem_append, not_or] at hfeed
  obtain ⟨⟨hleftFeed, hlineFeed⟩, hrightFeed⟩ := hfeed
  rw [linesOf_row h]
  split_ifs with hempty
  · rw [hempty, List.append_nil] at hrow
    rw [hrow]
    exact .blank (List.forall_mem_append.mpr
      ⟨isMargin_of_blank hleftFeed hleft, isMargin_of_blank hrightFeed hright⟩)
  · have hline : IsContent (String.ofList (trimChars row)) := by
      refine ⟨fun hnil => hempty (String.ofList_eq_empty_iff.mp hnil), ?_, ?_⟩
      · rwa [String.toList_ofList]
      · rw [trim, String.toList_ofList, trimChars_trimChars]
    have hwritten := Row.content hline (isMargin_of_blank hleftFeed hleft)
      (isMargin_of_blank hrightFeed hright)
    rwa [String.toList_ofList, ← hrow] at hwritten

/-! ## Lines of a text that is written -/

theorem Written.linesOf_eq {lines : List String} {cs : List Char} (h : Written lines cs) :
    linesOf cs = lines := by
  induction h with
  | last hrow => exact hrow.linesOf_eq
  | @cons first lines row ending rest hrow hending _ ih =>
    cases hending with
    | feed =>
      rw [List.append_assoc, List.singleton_append, linesOf_feed hrow.feed, hrow.linesOf_eq, ih]
    | returnFeed =>
      have hreturn : Row first (row ++ ['\r']) := hrow.append_margin
        (List.forall_mem_singleton.mpr ⟨by decide, by decide⟩)
      have hsplit : row ++ ['\r', '\n'] ++ rest = row ++ ['\r'] ++ '\n' :: rest := by simp
      rw [hsplit, linesOf_feed hreturn.feed, hreturn.linesOf_eq, ih]

/-- A text has its lines with content. -/
theorem written_linesOf (cs : List Char) : Written (linesOf cs) cs := by
  by_cases h : '\n' ∈ cs
  · obtain ⟨row, rest, rfl, hrow⟩ := List.eq_append_cons_of_mem h
    rw [linesOf_feed hrow]
    have hcons := Written.cons (row_linesOf hrow) .feed (written_linesOf rest)
    rwa [List.append_assoc, List.singleton_append] at hcons
  · exact .last (row_linesOf h)
termination_by cs.length

/-- The lines with content of a text are those that it has. -/
theorem contentLines_eq_iff {text : String} {lines : List String} :
    contentLines text = lines ↔ Written lines text.toList := by
  rw [contentLines_eq]
  constructor
  · rintro rfl
    exact written_linesOf _
  · exact Written.linesOf_eq

end Quarry.Text
