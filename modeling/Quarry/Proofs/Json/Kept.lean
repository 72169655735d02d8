/-
# Kept values

A value that is written as JSON text is read back as it was written.

* `Verbatim.ofJson` — a value as it is kept; `text_ofJson` — with the same text.
* `Verbatim.ofText?_text` — the text of a value is read back, unless it is nested too deeply.
-/
import Quarry.Proofs.Json.Written

namespace Quarry

open Quarry.Decimal Quarry.Text Quarry.Text.Utf8

namespace Json

/-! ## Kept values -/

namespace Verbatim

mutual

/-- A value as it is kept. -/
def ofJson : Json → Verbatim
  | .null => .null
  | .bool b => .bool b
  | .number n => .number (.ofNumber n)
  | .string s => .string (written s)
  | .array items => .array (itemsOfJson items)
  | .object members => .object (membersOfJson members)

/-- Some elements as they are kept. -/
def itemsOfJson : List Json → List Verbatim
  | [] => []
  | v :: rest => ofJson v :: itemsOfJson rest

/-- Some members as they are kept. -/
def membersOfJson : List (String × Json) → List (String × Verbatim)
  | [] => []
  | (name, v) :: rest => (written name, ofJson v) :: membersOfJson rest

end

/-- A string in quotation marks. -/
theorem quoted_eq (s : String) : quoted s = "\"" ++ written s ++ "\"" := by
  rw [← String.toList_inj]
  simp [quoted, quotedChars, written, escapedChars]

theorem itemsText_ofJson {items : List Json} (h : ∀ v ∈ items, (ofJson v).text = v.text) :
    itemsText (itemsOfJson items) = Json.itemsText items := by
  induction items with
  | nil => rfl
  | cons v rest ih =>
    have hv := h v List.mem_cons_self
    have hrest := ih fun w hw => h w (List.mem_cons_of_mem v hw)
    cases rest with
    | nil => exact hv
    | cons w rest =>
      show (ofJson v).text ++ "," ++ itemsText (itemsOfJson (w :: rest)) = _
      rw [hv, hrest, Json.itemsText]

theorem membersText_ofJson {members : List (String × Json)}
    (h : ∀ m ∈ members, (ofJson m.2).text = m.2.text) :
    membersText (membersOfJson members) = Json.membersText members := by
  induction members with
  | nil => rfl
  | cons m rest ih =>
    obtain ⟨name, v⟩ := m
    have hv : (ofJson v).text = v.text := h (name, v) List.mem_cons_self
    have hrest := ih fun m hm => h m (List.mem_cons_of_mem _ hm)
    have hname : ∀ s : String, "\"" ++ written name ++ "\":" ++ s = quoted name ++ ":" ++ s := by
      intro s
      rw [quoted_eq, ← String.toList_inj]
      simp
    cases rest with
    | nil =>
      show "\"" ++ written name ++ "\":" ++ (ofJson v).text = _
      rw [hname, hv, Json.membersText]
    | cons m rest =>
      show "\"" ++ written name ++ "\":" ++ (ofJson v).text ++ "," ++
        membersText (membersOfJson (m :: rest)) = _
      rw [hname, hv, hrest, Json.membersText]

/-- A kept value has the text of the value. -/
theorem text_ofJson {v : Json} (h : v.Writable) : (ofJson v).text = v.text := by
  induction h with
  | null => rfl
  | bool b => rfl
  | int n h => exact Numeral.text_ofInt n
  | float x h => exact Numeral.text_ofFloat h
  | string s => exact (quoted_eq s).symm
  | array items h ih =>
    show "[" ++ itemsText (itemsOfJson items) ++ "]" = _
    rw [itemsText_ofJson ih, Json.text]
  | object members h ih =>
    show "\x7b" ++ membersText (membersOfJson members) ++ "\x7d" = _
    rw [membersText_ofJson ih, Json.text]

/-! ## Reading values -/

/-- A sign is found where it stands. -/
theorem after?_self {c : Char} (h : Scanner.IsSign c) (rest : List UInt8) :
    after? c (bytesOf [c] ++ rest) = some rest := by
  rw [after?, bytesOf_ascii h.ascii, bytesOf_nil, List.singleton_append,
    Scanner.skipBlanks_cons (Scanner.isBlankByte_of_isSign h)]
  exact if_pos (Scanner.asChar_ascii h.ascii)

/-- Another one is not. -/
theorem after?_of_ne {c d : Char} (h : Scanner.IsSign d) (hne : d ≠ c) (rest : List UInt8) :
    after? c (bytesOf [d] ++ rest) = none := by
  rw [after?, bytesOf_ascii h.ascii, bytesOf_nil, List.singleton_append,
    Scanner.skipBlanks_cons (Scanner.isBlankByte_of_isSign h)]
  refine if_neg ?_
  rwa [Scanner.asChar_ascii h.ascii]

theorem after?_of_byte {c : Char} {b : UInt8} (h : Scanner.isBlankByte b = false)
    (hne : Scanner.asChar b ≠ c) (rest : List UInt8) : after? c (b :: rest) = none := by
  rw [after?, Scanner.skipBlanks_cons h]
  exact if_neg hne

theorem readValue_digit {c : Char} (h : c.isDigit = true) (fuel depth : Nat)
    (rest : List UInt8) : readValue (fuel + 1) depth (UInt8.ofNat c.toNat :: rest) =
      readNumber false (UInt8.ofNat c.toNat :: rest) := by
  rw [readValue, Scanner.skipBlanks_cons (startsValue_of_isDigit h).1]
  simp only [Scanner.asChar_ascii (Scanner.toNat_lt_of_isDigit h)]
  split
  all_goals exact if_pos h

/-- A number is read. -/
theorem readValue_number {n : Numeral} (h : n.WellFormed) {rest : List UInt8}
    (hrest : Scanner.EndsNumber rest) (fuel depth : Nat) :
    readValue (fuel + 1) depth (bytesOf n.chars ++ rest) = some (.number n, rest) := by
  have hread : readNumber n.negative (bytesOf n.unsigned ++ rest) = some (.number n, rest) := by
    rw [readNumber, Scanner.numeral_unsigned h hrest]
  rw [Numeral.chars_eq]
  cases hn : n.negative with
  | true =>
    rw [hn] at hread
    rw [if_pos rfl, List.singleton_append, bytesOf_ascii (by decide), List.cons_append, ← hread,
      readValue]
    rfl
  | false =>
    rw [hn] at hread
    obtain ⟨c, cs, hcs, hc⟩ := h.unsigned_eq_cons
    rw [if_neg (by decide), List.nil_append, ← hread, hcs,
      bytesOf_ascii (Scanner.toNat_lt_of_isDigit hc), List.cons_append, readValue_digit hc]

/-- What is read at the start of a text, if arrays and objects are not nested more deeply than is
allowed. -/
def ReadsValue (v : Json) : Prop :=
  ∀ fuel depth rest, (bytes v).length ≤ fuel → Scanner.EndsNumber rest →
    readValue fuel depth (bytes v ++ rest) =
      if v.nesting ≤ depth then some (ofJson v, rest) else none

/-- Elements are read up to the closing bracket. -/
theorem readItems_itemsBytes {v : Json} {items : List Json} (h : ∀ w ∈ v :: items, ReadsValue w)
    {fuel depth : Nat} (hfuel : (itemsBytes (v :: items)).length < fuel) (done : List Verbatim)
    (rest : List UInt8) :
    readItems fuel depth done (itemsBytes (v :: items) ++ (bytesOf [']'] ++ rest)) =
      if itemsNesting (v :: items) ≤ depth then
        some (.array (done.reverse ++ itemsOfJson (v :: items)), rest)
      else none := by
  induction items generalizing v fuel done with
  | nil =>
    obtain ⟨fuel, rfl⟩ := Nat.exists_eq_succ_of_ne_zero (show fuel ≠ 0 by omega)
    have hends := Scanner.endsNumber_of_isSign (c := ']') (by decide) [] rest
    have hv := h v List.mem_cons_self fuel depth _ (Nat.le_of_lt_succ hfuel) hends
    have hnesting : itemsNesting [v] = v.nesting := Nat.max_zero _
    have hbytes : itemsBytes [v] = bytes v := rfl
    rw [readItems, hbytes, hv, hnesting]
    split_ifs
    · simp only [after?_of_ne (c := ',') (d := ']') (by decide) (by decide),
        after?_self (c := ']') (by decide), List.reverse_cons]
      rfl
    · rfl
  | cons w items ih =>
    obtain ⟨fuel, rfl⟩ := Nat.exists_eq_succ_of_ne_zero (show fuel ≠ 0 by omega)
    rw [itemsBytes_cons, List.length_append, List.length_append, bytesOf_ascii (by decide)] at hfuel
    have hends := Scanner.endsNumber_of_isSign (c := ',') (by decide) []
      (itemsBytes (w :: items) ++ (bytesOf [']'] ++ rest))
    have hv := h v List.mem_cons_self fuel depth _ (by omega) hends
    have hrest := ih (fun u hu => h u (List.mem_cons_of_mem v hu))
      (show (itemsBytes (w :: items)).length < fuel by simp at hfuel; omega) (ofJson v :: done)
    have hnesting : itemsNesting (v :: w :: items) = max v.nesting (itemsNesting (w :: items)) := rfl
    rw [readItems, itemsBytes_cons, List.append_assoc, List.append_assoc, hv, hnesting]
    by_cases hdeep : v.nesting ≤ depth
    · rw [if_pos hdeep]
      simp only [after?_self (c := ',') (by decide), hrest, Nat.max_le, hdeep, true_and,
        List.reverse_cons, List.append_assoc]
      rfl
    · rw [if_neg hdeep, if_neg (by omega)]

/-- A name and its value are read, up to the sign that follows. -/
theorem readMember {m : String × Json} (h : ReadsValue m.2) (fuel depth : Nat)
    (hfuel : (memberBytes m).length ≤ fuel + 1) {c : Char} (hc : Scanner.IsSign c)
    (rest : List UInt8) :
    ((after? '"' (memberBytes m ++ (bytesOf [c] ++ rest))).bind readWritten).bind
        (fun x => ((after? ':' x.2).bind (readValue fuel depth)).map fun y => (x.1, y)) =
      if m.2.nesting ≤ depth then
        some (written m.1, ofJson m.2, bytesOf [c] ++ rest)
      else none := by
  have hlength : (bytes m.2).length ≤ fuel := by
    rw [memberBytes, bytesOf_ascii (by decide)] at hfuel
    simp only [bytesOf_nil, List.length_append, List.length_cons, List.length_nil] at hfuel
    omega
  have hv := h fuel depth (bytesOf [c] ++ rest) hlength (Scanner.endsNumber_of_isSign hc [] rest)
  have hbytes : memberBytes m ++ (bytesOf [c] ++ rest) = bytesOf ['"'] ++
      (Scanner.stringBytes m.1 ++ (bytesOf [':'] ++ (bytes m.2 ++ (bytesOf [c] ++ rest)))) := by
    simp only [memberBytes, List.append_assoc]
  rw [hbytes, after?_self (by decide), Option.bind_some, readWritten_stringBytes, Option.bind_some]
  simp only
  rw [after?_self (by decide), Option.bind_some, hv]
  split_ifs
  · rfl
  · rfl

/-- Reading members goes on from one member to what follows it. -/
theorem readMembers_of_member {fuel depth : Nat} {done : List (String × Verbatim)}
    {bs rest : List UInt8} {found : Option (String × Verbatim)}
    (h : ((after? '"' bs).bind readWritten).bind
      (fun x => ((after? ':' x.2).bind (readValue fuel depth)).map fun y => (x.1, y)) =
        found.map fun m => (m.1, m.2, rest)) :
    readMembers (fuel + 1) depth done bs =
      found.bind fun m => match after? ',' rest, after? '\x7d' rest with
        | some rest, _ => readMembers fuel depth (m :: done) rest
        | none, some rest => some (.object (m :: done).reverse, rest)
        | none, none => none := by
  rw [readMembers]
  cases hname : (after? '"' bs).bind readWritten with
  | none =>
    rw [hname] at h
    cases found with
    | none => rfl
    | some m => cases h
  | some x =>
    obtain ⟨name, after⟩ := x
    rw [hname, Option.bind_some] at h
    simp only at h ⊢
    cases hvalue : (after? ':' after).bind (readValue fuel depth) with
    | none =>
      rw [hvalue] at h
      cases found with
      | none => rfl
      | some m => cases h
    | some y =>
      rw [hvalue] at h
      cases found with
      | none => cases h
      | some m =>
        cases h
        rfl

/-- Members are read up to the closing brace. -/
theorem readMembers_membersBytes {m : String × Json} {members : List (String × Json)}
    (h : ∀ n ∈ m :: members, ReadsValue n.2) {fuel depth : Nat}
    (hfuel : (membersBytes (m :: members)).length < fuel) (done : List (String × Verbatim))
    (rest : List UInt8) :
    readMembers fuel depth done (membersBytes (m :: members) ++ (bytesOf ['\x7d'] ++ rest)) =
      if membersNesting (m :: members) ≤ depth then
        some (.object (done.reverse ++ membersOfJson (m :: members)), rest)
      else none := by
  have hfound : ∀ (n : String × Json) (after : List UInt8),
      (if n.2.nesting ≤ depth then some (written n.1, ofJson n.2, after) else none) =
        (if n.2.nesting ≤ depth then some (written n.1, ofJson n.2) else none).map
          fun x => (x.1, x.2, after) := by
    intro n after
    split_ifs
    · rfl
    · rfl
  induction members generalizing m fuel done with
  | nil =>
    obtain ⟨fuel, rfl⟩ := Nat.exists_eq_succ_of_ne_zero (show fuel ≠ 0 by omega)
    rw [membersBytes_singleton] at hfuel ⊢
    have hm := readMember (c := '\x7d') (h m List.mem_cons_self) fuel depth
      (Nat.le_of_lt hfuel) (by decide) rest
    have hnesting : membersNesting [m] = m.2.nesting := Nat.max_zero _
    rw [readMembers_of_member (hm.trans (hfound _ _)), hnesting]
    split_ifs
    · simp only [Option.bind_some, after?_of_ne (c := ',') (d := '\x7d') (by decide) (by decide),
        after?_self (c := '\x7d') (by decide), List.reverse_cons]
      rfl
    · rfl
  | cons n members ih =>
    obtain ⟨fuel, rfl⟩ := Nat.exists_eq_succ_of_ne_zero (show fuel ≠ 0 by omega)
    rw [membersBytes_cons, List.length_append, List.length_append, bytesOf_ascii (by decide)] at hfuel
    have hm := readMember (c := ',') (h m List.mem_cons_self) fuel depth (by omega) (by decide)
      (membersBytes (n :: members) ++ (bytesOf ['\x7d'] ++ rest))
    have hrest := ih (fun u hu => h u (List.mem_cons_of_mem m hu))
      (show (membersBytes (n :: members)).length < fuel by simp at hfuel; omega)
      ((written m.1, ofJson m.2) :: done)
    have hnesting : membersNesting (m :: n :: members) =
        max m.2.nesting (membersNesting (n :: members)) := rfl
    rw [membersBytes_cons, List.append_assoc, List.append_assoc,
      readMembers_of_member (hm.trans (hfound _ _)), hnesting]
    by_cases hdeep : m.2.nesting ≤ depth
    · rw [if_pos hdeep]
      simp only [Option.bind_some, after?_self (c := ',') (by decide), hrest, Nat.max_le, hdeep,
        true_and, List.reverse_cons, List.append_assoc]
      rfl
    · rw [if_neg hdeep, if_neg (by omega)]
      rfl

/-- After an opening bracket, an array ends or has elements. -/
theorem readValue_bracket (fuel depth : Nat) (bs : List UInt8) :
    readValue (fuel + 1) (depth + 1) (UInt8.ofNat '['.toNat :: bs) =
      (after? ']' bs).elim (readItems fuel depth [] bs) fun rest => some (.array [], rest) := by
  have hskip : Scanner.skipBlanks (UInt8.ofNat '['.toNat :: bs) = UInt8.ofNat '['.toNat :: bs := rfl
  have hsign : Scanner.asChar (UInt8.ofNat '['.toNat) = '[' := rfl
  simp only [readValue, hskip, hsign]
  cases after? ']' bs <;> rfl

/-- An array is read if its elements are. -/
theorem readValue_array {items : List Json} (hwritable : ∀ v ∈ items, v.Writable)
    (h : ∀ v ∈ items, ReadsValue v) {fuel : Nat}
    (hfuel : (bytes (.array items)).length ≤ fuel + 1) (depth : Nat) (rest : List UInt8) :
    readValue (fuel + 1) depth (bytes (.array items) ++ rest) =
      if nesting (.array items) ≤ depth then some (ofJson (.array items), rest) else none := by
  have hnesting : nesting (.array items) = itemsNesting items + 1 := rfl
  rw [bytes_array_append, hnesting]
  cases depth with
  | zero => rfl
  | succ depth =>
    rw [readValue_bracket]
    cases items with
    | nil =>
      have hafter : after? ']' (itemsBytes [] ++ (bytesOf [']'] ++ rest)) = some rest :=
        after?_self (by decide) rest
      rw [hafter]
      exact (if_pos (Nat.succ_le_succ (Nat.zero_le depth))).symm
    | cons v items =>
      have hafter : after? ']' (itemsBytes (v :: items) ++ (bytesOf [']'] ++ rest)) = none := by
        obtain ⟨b, bs, hv, hblank, hne, -⟩ :=
          itemsBytes_eq_cons (hwritable v List.mem_cons_self) items
        rw [hv]
        exact after?_of_byte hblank hne _
      have hlength : (itemsBytes (v :: items)).length < fuel := by
        rw [length_bytes_array] at hfuel
        omega
      rw [hafter, Option.elim_none]
      simp only [readItems_itemsBytes h hlength, Nat.add_le_add_iff_right]
      rfl

/-- After an opening brace, an object ends or has members. -/
theorem readValue_brace (fuel depth : Nat) (bs : List UInt8) :
    readValue (fuel + 1) (depth + 1) (UInt8.ofNat '\x7b'.toNat :: bs) =
      (after? '\x7d' bs).elim (readMembers fuel depth [] bs)
        fun rest => some (.object [], rest) := by
  have hskip : Scanner.skipBlanks (UInt8.ofNat '\x7b'.toNat :: bs) =
      UInt8.ofNat '\x7b'.toNat :: bs := rfl
  have hsign : Scanner.asChar (UInt8.ofNat '\x7b'.toNat) = '\x7b' := rfl
  simp only [readValue, hskip, hsign]
  cases after? '\x7d' bs <;> rfl

/-- An object is read if its members are. -/
theorem readValue_object {members : List (String × Json)} (h : ∀ m ∈ members, ReadsValue m.2)
    {fuel : Nat} (hfuel : (bytes (.object members)).length ≤ fuel + 1) (depth : Nat)
    (rest : List UInt8) :
    readValue (fuel + 1) depth (bytes (.object members) ++ rest) =
      if nesting (.object members) ≤ depth then some (ofJson (.object members), rest)
      else none := by
  have hnesting : nesting (.object members) = membersNesting members + 1 := rfl
  rw [bytes_object_append, hnesting]
  cases depth with
  | zero => rfl
  | succ depth =>
    rw [readValue_brace]
    cases members with
    | nil =>
      have hafter : after? '\x7d' (membersBytes [] ++ (bytesOf ['\x7d'] ++ rest)) = some rest :=
        after?_self (by decide) rest
      rw [hafter]
      exact (if_pos (Nat.succ_le_succ (Nat.zero_le depth))).symm
    | cons m members =>
      have hafter : after? '\x7d' (membersBytes (m :: members) ++ (bytesOf ['\x7d'] ++ rest)) =
          none := by
        obtain ⟨bs, hm⟩ := membersBytes_eq_mark m members
        rw [hm, List.append_assoc]
        exact after?_of_ne (by decide) (by decide) _
      have hlength : (membersBytes (m :: members)).length < fuel := by
        rw [length_bytes_object] at hfuel
        omega
      rw [hafter, Option.elim_none]
      simp only [readMembers_membersBytes h hlength, Nat.add_le_add_iff_right]
      rfl

/-- The text of a value is read up to its end. -/
theorem readsValue {v : Json} (h : v.Writable) : ReadsValue v := by
  -- A value has at least one byte, and so there is fuel for it.
  have hsucc : ∀ {v : Json}, v.Writable → (∀ fuel depth rest, (bytes v).length ≤ fuel + 1 →
      Scanner.EndsNumber rest → readValue (fuel + 1) depth (bytes v ++ rest) =
        if v.nesting ≤ depth then some (ofJson v, rest) else none) → ReadsValue v := by
    intro v hv hread fuel depth rest hfuel hrest
    obtain ⟨b, bs, hbytes, -⟩ := bytes_eq_cons hv
    cases fuel with
    | zero =>
      rw [hbytes] at hfuel
      cases hfuel
    | succ fuel => exact hread fuel depth rest hfuel hrest
  have hnumber : ∀ {n}, Writable (.number n) → ReadsValue (.number n) := by
    intro n hn
    refine hsucc hn fun fuel depth rest _ hrest => ?_
    obtain ⟨hform, htext⟩ := exists_numeral hn
    rw [bytes_number, ← htext, Numeral.text, String.toList_ofList,
      readValue_number hform hrest fuel depth]
    rfl
  induction h with
  | null => exact hsucc .null fun fuel depth rest _ _ => rfl
  | bool b => exact hsucc (.bool b) fun fuel depth rest _ _ => by cases b <;> rfl
  | int n h => exact hnumber (.int n h)
  | float x h => exact hnumber (.float x h)
  | string s =>
    refine hsucc (.string s) fun fuel depth rest _ _ => ?_
    rw [bytes_string, List.append_assoc, bytesOf_ascii (by decide), List.cons_append]
    show (readWritten (Scanner.stringBytes s ++ rest)).map _ = _
    rw [readWritten_stringBytes]
    rfl
  | array items h ih =>
    exact hsucc (.array items h) fun fuel depth rest hfuel _ =>
      readValue_array h ih hfuel depth rest
  | object members h ih =>
    exact hsucc (.object members h) fun fuel depth rest hfuel _ =>
      readValue_object ih hfuel depth rest

/-- The text of a value is read back, unless the value is nested too deeply. -/
theorem ofText?_text {v : Json} (h : v.Writable) :
    ofText? v.text = if v.nesting ≤ nestingLimit then some (ofJson v) else none := by
  have hread := readsValue h (2 * (bytes v).length + 2) nestingLimit [] (by omega) nofun
  rw [List.append_nil] at hread
  have hbytes : encode v.text = bytes v := encode_eq _
  rw [ofText?, hbytes, hread]
  split_ifs
  · rfl
  · rfl

/-- A text that is read again was not nested too deeply, and is kept as it was. -/
theorem of_ofText?_text {v : Json} (h : v.Valid) {kept : Verbatim} (hkept : ofText? v.text = some kept) :
    v.nesting ≤ nestingLimit ∧ kept.text = v.text := by
  rw [ofText?_text h.writable] at hkept
  split_ifs at hkept with hdeep
  refine ⟨hdeep, ?_⟩
  rw [← Option.some.inj hkept, text_ofJson h.writable]

end Verbatim

end Json

end Quarry
