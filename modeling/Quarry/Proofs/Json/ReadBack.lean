/-
# Values read back

What comes out when the text of a value is read as a value.

* `Json.floats` — the floats of a value; `Json.FloatsReadBack` — each is the one that its text is
  read as.
* `Json.outline` — the outline of the text of a value.
* `scansValue` — scanning the text of a value gives its outline.
* `IsReadBack` — a value is not nested too deeply and its floats are read back.
* `ofText_text` — such a value is read back from its text.
-/
import Quarry.Json.Decode
import Quarry.Proofs.Json.Written

namespace Quarry

open Quarry.Decimal Quarry.Text Quarry.Text.Utf8

namespace Json

/-! ## Numbers -/

namespace Numeral

theorem le_ofDigitChars (cs : List Char) (start : Nat) : start ≤ Nat.ofDigitChars 10 cs start := by
  induction cs generalizing start with
  | nil => exact Nat.le_refl start
  | cons c cs ih =>
    rw [Nat.ofDigitChars_cons]
    exact Nat.le_trans (by omega) (ih _)

/-- Digits are appended as long as the number does not exceed the limit. -/
theorem accumulate_of_le {limit start : Nat} {cs : List Char} (hcs : ∀ c ∈ cs, c.isDigit = true)
    (h : Nat.ofDigitChars 10 cs start ≤ limit) :
    accumulate limit start cs = (Nat.ofDigitChars 10 cs start, []) := by
  induction cs generalizing start with
  | nil => rfl
  | cons c cs ih =>
    rw [Nat.ofDigitChars_cons] at h ⊢
    have hnext := le_ofDigitChars cs (10 * start + (c.toNat - '0'.toNat))
    rw [accumulate, Digits.digit?_of_isDigit (hcs c List.mem_cons_self), Option.getD_some,
      Nat.mul_comm start, if_pos (Nat.le_trans hnext h),
      ih (fun d hd => hcs d (List.mem_cons_of_mem c hd)) h]

/-- An integer is the number that its numeral stands for. -/
theorem value_ofInt {n : Int} (h : -9223372036854775808 ≤ n ∧ n ≤ 18446744073709551615) :
    (ofInt n).value = .ok (.int n) := by
  have hchars : Nat.ofDigitChars 10 (Digits.chars n.natAbs) 0 = n.natAbs :=
    Nat.ofDigitChars_ten_toDigits
  have haccumulate : accumulate significandLimit 0 (ofInt n).whole = (n.natAbs, []) := by
    show accumulate significandLimit 0 (Digits.chars n.natAbs) = _
    rw [accumulate_of_le (fun c => Digits.isDigit_of_mem_chars), hchars]
    rw [hchars, significandLimit]
    omega
  have hvalue : (ofInt n).value = .ok (integer (decide (n < 0)) n.natAbs) := by
    unfold value
    rw [haccumulate]
    rfl
  rw [hvalue, integer]
  by_cases hneg : n < 0
  · rw [if_neg (by simp [hneg]), if_pos (by omega)]
    exact congrArg (Except.ok ∘ Number.int) (by omega)
  · rw [if_pos (by simp [hneg])]
    exact congrArg (Except.ok ∘ Number.int) (by omega)

end Numeral

mutual

/-- The floats of a value. -/
def floats : Json → List Float
  | .number (.float x) => [x]
  | .array items => itemsFloats items
  | .object members => membersFloats members
  | _ => []

/-- The floats of some elements. -/
def itemsFloats : List Json → List Float
  | [] => []
  | v :: rest => v.floats ++ itemsFloats rest

/-- The floats of some members. -/
def membersFloats : List (String × Json) → List Float
  | [] => []
  | (_, v) :: rest => v.floats ++ membersFloats rest

end

/-- Whether each float of a value is the one that its text is read as. -/
def FloatsReadBack (v : Json) : Prop :=
  ∀ x ∈ v.floats, (Numeral.ofFloat x).value = .ok (.float x)

theorem floats_subset_items {items : List Json} {v : Json} (h : v ∈ items) :
    v.floats ⊆ itemsFloats items := by
  induction items with
  | nil => cases h
  | cons w rest ih =>
    intro x hx
    rw [itemsFloats, List.mem_append]
    rcases List.mem_cons.mp h with rfl | h
    · exact .inl hx
    · exact .inr (ih h hx)

theorem floats_subset_members {members : List (String × Json)} {m : String × Json}
    (h : m ∈ members) : m.2.floats ⊆ membersFloats members := by
  induction members with
  | nil => cases h
  | cons n rest ih =>
    obtain ⟨name, v⟩ := n
    intro x hx
    rw [membersFloats, List.mem_append]
    rcases List.mem_cons.mp h with rfl | h
    · exact .inl hx
    · exact .inr (ih h hx)

/-! ## Outlines -/

mutual

/-- The outline of the text of a value. -/
def outline : Json → Outline
  | .null => .null
  | .bool b => .bool b
  | .number n => .number n
  | .string s => .string s
  | .array items => .array (itemsOutline items) .closed
  | .object members => .object (membersOutline members) .closed

/-- The outlines of the texts of some elements. -/
def itemsOutline : List Json → List Outline
  | [] => []
  | v :: rest => v.outline :: itemsOutline rest

/-- The outlines of the texts of some members. -/
def membersOutline : List (String × Json) → List (Except Malformed String × Outline)
  | [] => []
  | (name, v) :: rest => (.ok name, v.outline) :: membersOutline rest

end

theorem itemsToJson_outline {items : List Json} (h : ∀ v ∈ items, v.outline.toJson = .ok v) :
    Outline.itemsToJson (itemsOutline items) = .ok items := by
  induction items with
  | nil => rfl
  | cons v rest ih =>
    rw [itemsOutline, Outline.itemsToJson, h v List.mem_cons_self,
      ih fun w hw => h w (List.mem_cons_of_mem v hw)]
    rfl

theorem membersToJson_outline {members : List (String × Json)}
    (h : ∀ m ∈ members, m.2.outline.toJson = .ok m.2) (done : Named Json) :
    Outline.membersToJson done (membersOutline members) =
      .ok (members.foldl (fun named (name, v) => named.insert name v) done) := by
  induction members generalizing done with
  | nil => rfl
  | cons m rest ih =>
    obtain ⟨name, v⟩ := m
    have hv : v.outline.toJson = .ok v := h (name, v) List.mem_cons_self
    rw [List.foldl_cons, ← ih fun n hn => h n (List.mem_cons_of_mem _ hn)]
    rw [membersOutline, Outline.membersToJson, hv]
    rfl

/-- The outline of the text of a value is that of the value. -/
theorem toJson_outline {v : Json} (h : v.Valid) : v.outline.toJson = .ok v := by
  induction h with
  | null => rfl
  | bool b => rfl
  | int n h => rfl
  | float x h => rfl
  | string s => rfl
  | array items h ih =>
    rw [outline, Outline.toJson, itemsToJson_outline ih]
    rfl
  | object members hnames h ih =>
    have hfold : members.foldl (fun named (name, v) => Named.insert name v named) [] = members :=
      Named.ofList_eq_self hnames
    rw [outline, Outline.toJson, membersToJson_outline ih, hfold]
    rfl

/-! ## Scanning -/

namespace Scanner

theorem skipBlanks_sign {c : Char} (h : IsSign c) (rest : List UInt8) :
    skipBlanks (bytesOf [c] ++ rest) = UInt8.ofNat c.toNat :: rest := by
  rw [bytesOf_ascii h.ascii, bytesOf_nil, List.singleton_append,
    skipBlanks_cons (isBlankByte_of_isSign h)]

theorem scanValue_digit {c : Char} (h : c.isDigit = true) (fuel depth : Nat) (rest : List UInt8) :
    scanValue (fuel + 1) depth (UInt8.ofNat c.toNat :: rest) =
      scanNumber false (UInt8.ofNat c.toNat :: rest) := by
  rw [scanValue, skipBlanks_cons (startsValue_of_isDigit h).1]
  simp only [asChar_ascii (toNat_lt_of_isDigit h)]
  split
  all_goals exact if_pos h

/-- A number is scanned as what its numeral stands for. -/
theorem scanValue_number {n : Numeral} (h : n.WellFormed) {v : Number} (hv : n.value = .ok v)
    {rest : List UInt8} (hrest : EndsNumber rest) (fuel depth : Nat) :
    scanValue (fuel + 1) depth (bytesOf n.chars ++ rest) = (.number v, some rest) := by
  have hscan : scanNumber n.negative (bytesOf n.unsigned ++ rest) = (.number v, some rest) := by
    rw [scanNumber, numeral_unsigned h hrest]
    simp only [hv]
  rw [Numeral.chars_eq]
  cases hn : n.negative with
  | true =>
    rw [hn] at hscan
    rw [if_pos rfl, List.singleton_append, bytesOf_ascii (by decide), List.cons_append, ← hscan,
      scanValue]
    rfl
  | false =>
    rw [hn] at hscan
    obtain ⟨c, cs, hcs, hc⟩ := h.unsigned_eq_cons
    rw [if_neg (by decide), List.nil_append, ← hscan, hcs,
      bytesOf_ascii (toNat_lt_of_isDigit hc), List.cons_append, scanValue_digit hc]

/-- What is scanned at the start of a text. -/
def ScansValue (v : Json) : Prop :=
  ∀ fuel depth rest, (bytes v).length ≤ fuel → v.nesting ≤ depth → EndsNumber rest →
    scanValue fuel depth (bytes v ++ rest) = (v.outline, some rest)

/-! ### Elements -/

theorem betweenItems_closed (rest : List UInt8) :
    betweenItems (bytesOf [']'] ++ rest) = .inr (.closed, some rest) := by
  rw [betweenItems, skipBlanks_sign (by decide)]
  rfl

theorem betweenItems_comma {b : UInt8} (hblank : isBlankByte b = false) (hb : asChar b ≠ ']')
    (rest : List UInt8) : betweenItems (bytesOf [','] ++ b :: rest) = .inl (b :: rest) := by
  have hskip := skipBlanks_cons hblank rest
  rw [betweenItems, skipBlanks_sign (by decide)]
  dsimp only
  rw [hskip]
  exact if_neg hb

/-- Elements are scanned up to the closing bracket. -/
theorem scanItems_itemsBytes {v : Json} {items : List Json} (hwritable : ∀ w ∈ v :: items, w.Writable)
    (h : ∀ w ∈ v :: items, ScansValue w) {fuel depth : Nat}
    (hfuel : (itemsBytes (v :: items)).length < fuel) (hdeep : itemsNesting (v :: items) ≤ depth)
    (done : List Outline) (rest : List UInt8) :
    scanItems fuel depth done (.inl (itemsBytes (v :: items) ++ (bytesOf [']'] ++ rest))) =
      (done.reverse ++ itemsOutline (v :: items), .closed, some rest) := by
  induction items generalizing v fuel done with
  | nil =>
    obtain ⟨fuel, rfl⟩ := Nat.exists_eq_succ_of_ne_zero (show fuel ≠ 0 by omega)
    have hends := endsNumber_of_isSign (c := ']') (by decide) [] rest
    have hnesting : itemsNesting [v] = v.nesting := Nat.max_zero _
    have hv := h v List.mem_cons_self fuel depth _ (Nat.le_of_lt_succ hfuel) (hnesting ▸ hdeep) hends
    have hbytes : itemsBytes [v] = bytes v := rfl
    rw [scanItems, hbytes, hv]
    simp only [betweenItems_closed]
    rw [scanItems, List.reverse_cons]
    rfl
  | cons w items ih =>
    obtain ⟨fuel, rfl⟩ := Nat.exists_eq_succ_of_ne_zero (show fuel ≠ 0 by omega)
    rw [itemsBytes_cons, List.length_append, List.length_append, bytesOf_ascii (by decide)] at hfuel
    have hnesting : itemsNesting (v :: w :: items) = max v.nesting (itemsNesting (w :: items)) := rfl
    rw [hnesting, Nat.max_le] at hdeep
    have hends := endsNumber_of_isSign (c := ',') (by decide) []
      (itemsBytes (w :: items) ++ (bytesOf [']'] ++ rest))
    have hv := h v List.mem_cons_self fuel depth _ (by omega) hdeep.1 hends
    have hrest := ih (fun u hu => hwritable u (List.mem_cons_of_mem v hu))
      (fun u hu => h u (List.mem_cons_of_mem v hu))
      (show (itemsBytes (w :: items)).length < fuel by simp at hfuel; omega) hdeep.2
      (v.outline :: done)
    have hnext : betweenItems
        (bytesOf [','] ++ (itemsBytes (w :: items) ++ (bytesOf [']'] ++ rest))) =
          .inl (itemsBytes (w :: items) ++ (bytesOf [']'] ++ rest)) := by
      obtain ⟨b, bs, hw, hblank, hne, -⟩ :=
        itemsBytes_eq_cons (hwritable w (List.mem_cons_of_mem v List.mem_cons_self)) items
      rw [hw]
      exact betweenItems_comma hblank hne _
    rw [itemsBytes_cons, List.append_assoc, List.append_assoc, scanItems, hv]
    simp only [hnext, hrest, List.reverse_cons, List.append_assoc]
    rfl

/-! ### Members -/

theorem betweenMembers_closed (rest : List UInt8) :
    betweenMembers (bytesOf ['\x7d'] ++ rest) = .inr (.closed, some rest) := by
  rw [betweenMembers, skipBlanks_sign (by decide)]
  rfl

theorem betweenMembers_comma (rest : List UInt8) :
    betweenMembers (bytesOf [','] ++ (bytesOf ['"'] ++ rest)) = .inl rest := by
  have hmark := skipBlanks_sign (c := '"') (by decide) rest
  rw [betweenMembers, skipBlanks_sign (by decide)]
  simp only [hmark]
  rfl

/-- A member is scanned after the opening mark of its name. -/
theorem scanMembers_member {m : String × Json} (h : ScansValue m.2) {fuel depth : Nat}
    (hfuel : (bytes m.2).length ≤ fuel) (hdeep : m.2.nesting ≤ depth)
    (done : List (Except Malformed String × Outline)) {rest : List UInt8}
    (hrest : EndsNumber rest) :
    scanMembers (fuel + 1) depth done
        (.inl (stringBytes m.1 ++ (bytesOf [':'] ++ (bytes m.2 ++ rest)))) =
      scanMembers fuel depth ((.ok m.1, m.2.outline) :: done) (betweenMembers rest) := by
  have hcolon : afterColon (bytesOf [':'] ++ (bytes m.2 ++ rest)) = .ok (bytes m.2 ++ rest) := by
    rw [afterColon, skipBlanks_sign (by decide)]
    rfl
  rw [scanMembers, skipString_stringBytes]
  simp only [hcolon, memberName, readString_stringBytes, h fuel depth rest hfuel hdeep hrest]
  rfl

/-- Members are scanned up to the closing brace. -/
theorem scanMembers_membersBytes {m : String × Json} {members : List (String × Json)}
    (h : ∀ n ∈ m :: members, ScansValue n.2) {fuel depth : Nat}
    (hfuel : (membersBytes (m :: members)).length < fuel)
    (hdeep : membersNesting (m :: members) ≤ depth)
    (done : List (Except Malformed String × Outline)) {bs rest : List UInt8}
    (hbs : membersBytes (m :: members) ++ (bytesOf ['\x7d'] ++ rest) = bytesOf ['"'] ++ bs) :
    scanMembers fuel depth done (.inl bs) =
      (done.reverse ++ membersOutline (m :: members), .closed, some rest) := by
  have hmember : ∀ n : String × Json, (bytes n.2).length < (memberBytes n).length := by
    intro n
    rw [memberBytes, bytesOf_ascii (by decide), bytesOf_ascii (by decide)]
    simp only [bytesOf_nil, List.length_append, List.length_cons, List.length_nil]
    omega
  induction members generalizing m fuel done bs with
  | nil =>
    obtain ⟨fuel, rfl⟩ := Nat.exists_eq_succ_of_ne_zero (show fuel ≠ 0 by omega)
    have hends := endsNumber_of_isSign (c := '\x7d') (by decide) [] rest
    have hnesting : membersNesting [m] = m.2.nesting := Nat.max_zero _
    have hlength := hmember m
    rw [membersBytes_singleton] at hfuel hbs
    rw [memberBytes, List.append_assoc, List.append_cancel_left_eq, List.append_assoc,
      List.append_assoc] at hbs
    rw [← hbs, scanMembers_member (h m List.mem_cons_self) (by omega) (hnesting ▸ hdeep) done hends,
      betweenMembers_closed, scanMembers, List.reverse_cons]
    rfl
  | cons n members ih =>
    obtain ⟨fuel, rfl⟩ := Nat.exists_eq_succ_of_ne_zero (show fuel ≠ 0 by omega)
    have hnesting : membersNesting (m :: n :: members) =
      max m.2.nesting (membersNesting (n :: members)) := rfl
    rw [hnesting, Nat.max_le] at hdeep
    have hlength := hmember m
    rw [membersBytes_cons] at hfuel hbs
    rw [List.length_append, List.length_append, bytesOf_ascii (by decide)] at hfuel
    obtain ⟨cs, hcs⟩ := membersBytes_eq_mark n members
    have hmark : membersBytes (n :: members) ++ (bytesOf ['\x7d'] ++ rest) =
        bytesOf ['"'] ++ (cs ++ (bytesOf ['\x7d'] ++ rest)) := by
      rw [hcs, List.append_assoc]
    rw [List.append_assoc, List.append_assoc, hmark, memberBytes, List.append_assoc,
      List.append_cancel_left_eq, List.append_assoc, List.append_assoc] at hbs
    have hends := endsNumber_of_isSign (c := ',') (by decide) []
      (bytesOf ['"'] ++ (cs ++ (bytesOf ['\x7d'] ++ rest)))
    rw [← hbs, scanMembers_member (h m List.mem_cons_self) (by omega) hdeep.1 done hends,
      betweenMembers_comma, ih (fun k hk => h k (List.mem_cons_of_mem m hk)) (by simp at hfuel; omega)
        hdeep.2 _ hmark, List.reverse_cons, List.append_assoc]
    rfl

/-! ### Values -/

theorem scanValue_array {items : List Json} (hwritable : ∀ v ∈ items, v.Writable)
    (h : ∀ v ∈ items, ScansValue v) {fuel depth : Nat}
    (hfuel : (bytes (.array items)).length ≤ fuel + 1)
    (hdeep : (Json.array items).nesting ≤ depth) (rest : List UInt8) :
    scanValue (fuel + 1) depth (bytes (.array items) ++ rest) =
      ((Json.array items).outline, some rest) := by
  obtain ⟨depth, rfl⟩ := Nat.exists_eq_succ_of_ne_zero
    (Nat.pos_iff_ne_zero.mp (Nat.lt_of_lt_of_le (Nat.succ_pos _) hdeep))
  have hscan : scanValue (fuel + 1) (depth + 1) (bytes (.array items) ++ rest) =
      let scanned :=
        scanItems fuel depth [] (beforeItems (itemsBytes items ++ (bytesOf [']'] ++ rest)))
      (.array scanned.1 scanned.2.1, scanned.2.2) := by
    rw [bytes_array_append]
    rfl
  rw [hscan]
  cases items with
  | nil =>
    have hbefore : beforeItems (itemsBytes [] ++ (bytesOf [']'] ++ rest)) =
        .inr (.closed, some rest) := by
      show beforeItems (bytesOf [']'] ++ rest) = _
      rw [beforeItems, skipBlanks_sign (by decide)]
      rfl
    rw [hbefore]
    cases fuel <;> rfl
  | cons v items =>
    have hbefore : beforeItems (itemsBytes (v :: items) ++ (bytesOf [']'] ++ rest)) =
        .inl (itemsBytes (v :: items) ++ (bytesOf [']'] ++ rest)) := by
      obtain ⟨b, bs, hv, hblank, hne, -⟩ :=
        itemsBytes_eq_cons (hwritable v List.mem_cons_self) items
      rw [hv, List.cons_append, beforeItems, skipBlanks_cons hblank]
      exact if_neg hne
    have hlength : (itemsBytes (v :: items)).length < fuel := by
      rw [length_bytes_array] at hfuel
      omega
    rw [hbefore, scanItems_itemsBytes hwritable h hlength (Nat.le_of_succ_le_succ hdeep)]
    rfl

theorem scanValue_object {members : List (String × Json)} (h : ∀ m ∈ members, ScansValue m.2)
    {fuel depth : Nat} (hfuel : (bytes (.object members)).length ≤ fuel + 1)
    (hdeep : (Json.object members).nesting ≤ depth) (rest : List UInt8) :
    scanValue (fuel + 1) depth (bytes (.object members) ++ rest) =
      ((Json.object members).outline, some rest) := by
  obtain ⟨depth, rfl⟩ := Nat.exists_eq_succ_of_ne_zero
    (Nat.pos_iff_ne_zero.mp (Nat.lt_of_lt_of_le (Nat.succ_pos _) hdeep))
  have hscan : scanValue (fuel + 1) (depth + 1) (bytes (.object members) ++ rest) =
      let scanned :=
        scanMembers fuel depth [] (beforeMembers (membersBytes members ++ (bytesOf ['\x7d'] ++ rest)))
      (.object scanned.1 scanned.2.1, scanned.2.2) := by
    rw [bytes_object_append]
    rfl
  rw [hscan]
  cases members with
  | nil =>
    have hbefore : beforeMembers (membersBytes [] ++ (bytesOf ['\x7d'] ++ rest)) =
        .inr (.closed, some rest) := by
      show beforeMembers (bytesOf ['\x7d'] ++ rest) = _
      rw [beforeMembers, skipBlanks_sign (by decide)]
      rfl
    rw [hbefore]
    cases fuel <;> rfl
  | cons m members =>
    obtain ⟨cs, hcs⟩ := membersBytes_eq_mark m members
    have hmark : membersBytes (m :: members) ++ (bytesOf ['\x7d'] ++ rest) =
        bytesOf ['"'] ++ (cs ++ (bytesOf ['\x7d'] ++ rest)) := by
      rw [hcs, List.append_assoc]
    have hbefore : ∀ bs, beforeMembers (bytesOf ['"'] ++ bs) = .inl bs := by
      intro bs
      rw [beforeMembers, skipBlanks_sign (by decide)]
      rfl
    have hlength : (membersBytes (m :: members)).length < fuel := by
      rw [length_bytes_object] at hfuel
      omega
    rw [hmark, hbefore,
      scanMembers_membersBytes h hlength (Nat.le_of_succ_le_succ hdeep) [] hmark]
    rfl

/-- Scanning the text of a value gives its outline. -/
theorem scansValue {v : Json} (h : v.Writable) (hfloats : v.FloatsReadBack) : ScansValue v := by
  -- A value has at least one byte, and so there is fuel for it.
  have hsucc : ∀ {v : Json}, v.Writable → (∀ fuel depth rest, (bytes v).length ≤ fuel + 1 →
      v.nesting ≤ depth → EndsNumber rest → scanValue (fuel + 1) depth (bytes v ++ rest) =
        (v.outline, some rest)) → ScansValue v := by
    intro v hv hscan fuel depth rest hfuel hdeep hrest
    obtain ⟨b, bs, hbytes, -⟩ := bytes_eq_cons hv
    cases fuel with
    | zero =>
      rw [hbytes] at hfuel
      cases hfuel
    | succ fuel => exact hscan fuel depth rest hfuel hdeep hrest
  have hnumber : ∀ {n}, Writable (.number n) → (Numeral.ofNumber n).value = .ok n →
      ScansValue (.number n) := by
    intro n hn hvalue
    refine hsucc hn fun fuel depth rest _ _ hrest => ?_
    obtain ⟨hform, htext⟩ := exists_numeral hn
    rw [bytes_number, ← htext, Numeral.text, String.toList_ofList,
      scanValue_number hform hvalue hrest fuel depth]
    rfl
  induction h with
  | null => exact hsucc .null fun fuel depth rest _ _ _ => rfl
  | bool b => exact hsucc (.bool b) fun fuel depth rest _ _ _ => by cases b <;> rfl
  | int n h => exact hnumber (.int n h) (Numeral.value_ofInt h)
  | float x h => exact hnumber (.float x h) (hfloats x List.mem_cons_self)
  | string s =>
    refine hsucc (.string s) fun fuel depth rest _ _ _ => ?_
    rw [bytes_string, List.append_assoc, bytesOf_ascii (by decide), List.cons_append]
    show scanString (stringBytes s ++ rest) = _
    rw [scanString, skipString_stringBytes, readString_stringBytes]
    rfl
  | array items h ih =>
    have hitems : ∀ v ∈ items, ScansValue v := fun v hv =>
      ih v hv fun x hx => hfloats x (floats_subset_items hv hx)
    exact hsucc (.array items h) fun fuel depth rest hfuel hdeep _ =>
      scanValue_array h hitems hfuel hdeep rest
  | object members h ih =>
    have hmembers : ∀ m ∈ members, ScansValue m.2 := fun m hm =>
      ih m hm fun x hx => hfloats x (floats_subset_members hm hx)
    exact hsucc (.object members h) fun fuel depth rest hfuel hdeep _ =>
      scanValue_object hmembers hfuel hdeep rest

/-- Scanning a text that is nothing but that of a value gives its outline. -/
theorem scan_text {v : Json} (h : v.Writable) (hdeep : v.nesting ≤ nestingLimit)
    (hfloats : v.FloatsReadBack) : scan (encode v.text) = ⟨v.outline, false⟩ := by
  have hscan := scansValue h hfloats (2 * (bytes v).length + 2) nestingLimit [] (by omega) hdeep
    nofun
  have hbytes : encode v.text = bytes v := encode_eq _
  rw [List.append_nil] at hscan
  rw [hbytes, scan, hscan]
  rfl

end Scanner

/-- A value is nested no more deeply than values are read, and its floats are read back. -/
structure IsReadBack (v : Json) : Prop where
  valid : v.Valid
  nesting : v.nesting ≤ Scanner.nestingLimit
  floats : v.FloatsReadBack

/-- Such a value is read back from its text. -/
theorem ofText_text {v : Json} (h : v.IsReadBack) : ofText v.text = .ok v := by
  have hscan := Scanner.scan_text h.valid.writable h.nesting h.floats
  rw [ofText, ofBytes, decodeText, hscan]
  simp only [Decoder.anything, toJson_outline h.valid]
  rfl

end Json

end Quarry
