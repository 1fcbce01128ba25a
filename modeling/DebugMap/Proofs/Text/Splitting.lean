import DebugMap.Proofs.Text.Lines

/-!
# A text split at its newlines

What the table of a text says, told by its bytes and by its pieces between newlines. Main
statements: `lineOf_ofText` (the line of an offset counts the newline bytes in front of it),
`isCut_iff` (a search among numbers in order can end at one place only), `map_lineText?` (the lines
are the pieces) and `ofText_splits`, which puts them together.
-/

set_option autoImplicit false

namespace DebugMap

namespace Text

/-! ## Newlines among the bytes -/

def bytes (text : String) : List UInt8 :=
  text.toByteArray.data.toList

def newline : UInt8 := 10

theorem bytes_eq_flatMap (text : String) :
    bytes text = text.toList.flatMap String.utf8EncodeChar := by
  rw [bytes, ← String.utf8Encode_toList, List.utf8Encode, List.toList_data_toByteArray]

theorem length_bytes (text : String) : (bytes text).length = text.utf8ByteSize := by
  simp [bytes, ← String.size_toByteArray]

theorem eq_newline_of_mem {c : Char} (h : newline ∈ String.utf8EncodeChar c) : c = '\n' := by
  have hc : c.val.toNat = 10 := by
    revert h
    fun_cases String.utf8EncodeChar c with
    | case1 =>
      intro h
      have := congrArg UInt8.toNat (List.mem_singleton.1 h)
      simp [newline] at this
      omega
    | case2 | case3 | case4 =>
      intro h
      simp [newline, ← UInt8.toNat_inj] at h
      omega
  exact Char.ext (UInt32.toNat_inj.1 hc)

/-- **The newlines among the first bytes** are as many as the lines that start after them. -/
theorem count_take_flatMap (cs : List Char) (offset n : Nat) :
    ((cs.flatMap String.utf8EncodeChar).take n).count newline =
      ((startsAfterNewlines offset cs).takeWhile (· ≤ offset + n)).length := by
  induction cs generalizing offset n with
  | nil => simp [startsAfterNewlines]
  | cons c r ih =>
    -- A newline is a single byte and starts a line; another character has no such byte.
    by_cases hc : c = '\n'
    · subst hc
      cases n with
      | zero => simp [takeWhile_startsAfterNewlines (Nat.le_refl offset)]
      | succ n =>
        have hencoding : String.utf8EncodeChar '\n' = [newline] := rfl
        have hstarts : startsAfterNewlines offset ('\n' :: r) =
            (offset + 1) :: startsAfterNewlines (offset + 1) r := rfl
        have hnext : decide (offset + 1 ≤ offset + (n + 1)) = true := decide_eq_true (by omega)
        have hbound : offset + 1 + n = offset + (n + 1) := by omega
        rw [List.flatMap_cons, hencoding, List.singleton_append, List.take_succ_cons,
          List.count_cons_self, ih (offset + 1), hbound, hstarts, List.takeWhile_cons, if_pos hnext,
          List.length_cons]
    · have hhead : ((String.utf8EncodeChar c).take n).count newline = 0 :=
        List.count_eq_zero.2 fun hmem => hc (eq_newline_of_mem (List.mem_of_mem_take hmem))
      rw [List.flatMap_cons, List.take_append, List.count_append, hhead, Nat.zero_add,
        String.length_utf8EncodeChar, startsAfterNewlines, if_neg hc]
      -- The first bytes may end inside the character.
      rcases Nat.le_total n c.utf8Size with hn | hn
      · rw [Nat.sub_eq_zero_of_le hn, takeWhile_startsAfterNewlines (by omega)]
        rfl
      · have hbound : offset + c.utf8Size + (n - c.utf8Size) = offset + n := by omega
        rw [ih (offset + c.utf8Size), hbound]

theorem count_bytes (text : String) : (bytes text).count newline = text.toList.count '\n' := by
  rw [bytes_eq_flatMap]
  induction text.toList with
  | nil => rfl
  | cons c r ih =>
    rw [List.flatMap_cons, List.count_append, ih, List.count_cons]
    by_cases hc : c = '\n'
    · subst hc
      exact Nat.add_comm 1 _
    · rw [List.count_eq_zero.2 fun hmem => hc (eq_newline_of_mem hmem), if_neg (by simpa using hc),
        Nat.zero_add, Nat.add_zero]

end Text

/-! ## The search for a line -/

/-- **A place that parts** the numbers up to a bound, all in front of it, from those past it. It is
what a search by halves looks for. -/
structure IsCut (xs : List Nat) (bound i : Nat) : Prop where
  le_length : i ≤ xs.length
  front : ∀ x ∈ xs.take i, x ≤ bound
  back : ∀ x ∈ xs.drop i, bound < x

/-- **Numbers in order are parted** at one place and at no other. -/
theorem isCut_iff {xs : List Nat} (h : xs.Pairwise (· < ·)) {bound i : Nat} :
    IsCut xs bound i ↔ i = (xs.takeWhile (· ≤ bound)).length := by
  induction xs generalizing i with
  | nil =>
    refine ⟨fun hcut => Nat.le_zero.1 hcut.le_length, ?_⟩
    rintro rfl
    exact ⟨by simp, by simp, by simp⟩
  | cons x r ih =>
    obtain ⟨hx, hr⟩ := List.pairwise_cons.1 h
    rw [List.takeWhile_cons]
    by_cases hbound : x ≤ bound
    · rw [if_pos (decide_eq_true hbound), List.length_cons]
      cases i with
      | zero =>
        refine ⟨fun hcut => ?_, fun hi => absurd hi.symm (Nat.succ_ne_zero _)⟩
        exact absurd hbound (Nat.not_le_of_lt (hcut.back x List.mem_cons_self))
      | succ i =>
        rw [Nat.add_right_cancel_iff, ← ih hr]
        constructor
        · rintro ⟨hle, hfront, hback⟩
          exact ⟨Nat.le_of_succ_le_succ hle,
            fun y hy => hfront y (List.mem_cons_of_mem x hy), hback⟩
        · rintro ⟨hle, hfront, hback⟩
          exact ⟨Nat.succ_le_succ hle, List.forall_mem_cons.2 ⟨hbound, hfront⟩, hback⟩
    · rw [if_neg (by simpa using hbound), List.length_nil]
      cases i with
      | zero =>
        have hpast : ∀ y ∈ x :: r, bound < y := List.forall_mem_cons.2
          ⟨by omega, fun y hy => Nat.lt_trans (Nat.lt_of_not_le hbound) (hx y hy)⟩
        exact ⟨fun _ => rfl, fun _ => ⟨Nat.zero_le _, by simp, hpast⟩⟩
      | succ i =>
        exact ⟨fun hcut => absurd (hcut.front x List.mem_cons_self) hbound,
          fun hi => absurd hi (Nat.succ_ne_zero _)⟩

namespace Text

theorem startsAfterNewlines_pairwise (offset : Nat) (cs : List Char) :
    (startsAfterNewlines offset cs).Pairwise (· < ·) := by
  induction cs generalizing offset with
  | nil => exact .nil
  | cons c r ih =>
    rw [startsAfterNewlines]
    split_ifs
    · exact .cons (fun n hn => (bounds_of_mem_startsAfterNewlines hn).1) (ih _)
    · exact ih _

end Text

namespace LineTable

open Text

theorem starts_pairwise (text : String) : (ofText text).starts.Pairwise (· < ·) :=
  .cons (fun _ hn => (bounds_of_mem_startsAfterNewlines hn).1) (startsAfterNewlines_pairwise _ _)

theorem lineOf_eq_length (text : String) (offset : Nat) :
    (ofText text).lineOf offset =
      ((ofText text).starts.takeWhile (· ≤ offset)).length % UInt32.size := by
  have hfirst : (ofText text).starts.takeWhile (· ≤ offset) =
      0 :: (startsAfterNewlines 0 text.toList).takeWhile (· ≤ offset) :=
    List.takeWhile_cons_of_pos (decide_eq_true offset.zero_le)
  rw [lineOf, hfirst, List.length_cons, Nat.max_eq_right (Nat.le_add_left 1 _)]

/-- **The line of an offset** is one more than the newline bytes in front of it, in 32 bits. -/
theorem lineOf_ofText (text : String) (offset : Nat) :
    (ofText text).lineOf offset = (((bytes text).take offset).count newline + 1) % UInt32.size := by
  rw [lineOf_eq_length, ofText, List.takeWhile_cons, if_pos (decide_eq_true offset.zero_le),
    List.length_cons, bytes_eq_flatMap, count_take_flatMap _ 0, Nat.zero_add]

section

variable {text : String} (hcount : (ofText text).lineCount < UInt32.size)
include hcount

theorem lineOf_of_lt (offset : Nat) :
    (ofText text).lineOf offset = ((bytes text).take offset).count newline + 1 := by
  have hle : ((bytes text).take offset).count newline ≤ text.toList.count '\n' :=
    count_bytes text ▸ (List.take_sublist offset _).count_le newline
  rw [lineCount_eq] at hcount
  rw [lineOf_ofText, Nat.mod_eq_of_lt (by omega)]

theorem lineOf_mono {a b : Nat} (h : a ≤ b) : (ofText text).lineOf a ≤ (ofText text).lineOf b := by
  rw [lineOf_of_lt hcount, lineOf_of_lt hcount]
  exact Nat.succ_le_succ ((List.take_sublist_take_left h).count_le newline)

end

end LineTable

/-! ## The pieces between newlines -/

def LineTable.lineText? (t : LineTable) (text : String) (line : Nat) : Option (List Char) :=
  (t.lineRange? line).bind (Text.slice? text.toList)

namespace Text

theorem length_splitOn (text : List Char) :
    (text.splitOn '\n').length = text.count '\n' + 1 := by
  induction text with
  | nil => rfl
  | cons c r ih =>
    by_cases hc : c = '\n' <;> simp [List.splitOn_cons_eq_if_modifyHead, hc, ih]

theorem head?_splitOn {line after : List Char} (hline : '\n' ∉ line)
    (hafter : after = [] ∨ ∃ rest, after = '\n' :: rest) :
    ((line ++ after).splitOn '\n')[0]? = some line := by
  rcases hafter with rfl | ⟨rest, rfl⟩
  · rw [List.append_nil, List.splitOn_eq_singleton hline]
    rfl
  · rw [List.splitOn_append_cons_self_of_not_mem hline]
    rfl

/-- **A line is the piece** of its number, counted from 1. -/
theorem IsLine.getElem?_splitOn {text before line after : List Char} {number : Nat}
    (h : IsLine text number before line after) :
    (text.splitOn '\n')[number - 1]? = some line := by
  have hhead := head?_splitOn h.unbroken h.closes
  rw [h.text_eq, h.number_eq, Nat.add_sub_cancel]
  rcases h.opens with rfl | ⟨rest, rfl⟩
  · exact hhead
  · have hlength : (rest ++ ['\n']).count '\n' = (rest.splitOn '\n').length := by
      rw [length_splitOn, List.count_append, List.count_singleton_self]
    rw [List.append_assoc, List.append_assoc, List.singleton_append,
      List.splitOn_append_cons_self, hlength, List.getElem?_append_right (Nat.le_refl _),
      Nat.sub_self]
    exact hhead

theorem IsLine.lineText? {text : String} {before line after : List Char} {number : Nat}
    (h : IsLine text.toList number before line after) :
    (LineTable.ofText text).lineText? text number = some line := by
  rw [LineTable.lineText?, h.lineRange?]
  exact h.slice?

end Text

namespace LineTable

open Text

/-- **The lines read at their ranges**, in order, are the pieces between newlines. -/
theorem map_lineText? (text : String) :
    (List.range' 1 (ofText text).lineCount).map ((ofText text).lineText? text) =
      (text.toList.splitOn '\n').map some := by
  refine List.ext_getElem? fun k => ?_
  rw [List.getElem?_map, List.getElem?_map, lineCount_eq]
  by_cases hk : k ≤ text.toList.count '\n'
  · obtain ⟨before, line, after, h⟩ := exists_isLine hk
    have hpiece : (text.toList.splitOn '\n')[k]? = some line := h.getElem?_splitOn
    rw [List.getElem?_range' (by omega), Nat.one_mul, Nat.add_comm 1 k, Option.map_some,
      h.lineText?, hpiece, Option.map_some]
  · have hcount : (text.toList.splitOn '\n').length ≤ k := by
      rw [length_splitOn]
      omega
    have hrange : (List.range' 1 (text.toList.count '\n' + 1)).length ≤ k := by
      rw [List.length_range']
      omega
    rw [List.getElem?_eq_none hrange, List.getElem?_eq_none hcount]
    rfl

/-- **An offset is on exactly one line**, that whose range it is in or at the end of. -/
theorem lineOf_eq_iff {text : String} (hcount : (ofText text).lineCount < UInt32.size)
    {offset : Nat} (h : offset ≤ text.utf8ByteSize) (k : Nat) :
    (ofText text).lineOf offset = k ↔ ∃ range, (ofText text).lineRange? k = some range ∧
      range.start ≤ offset ∧ offset ≤ range.stop := by
  constructor
  · intro hk
    obtain ⟨number, before, line, after, hline, hstart, hstop⟩ :=
      exists_isLine_at (utf8ByteSize_eq text ▸ h)
    obtain rfl : number = k := (hline.lineOf_of_lt hcount hstart hstop).symm.trans hk
    exact ⟨_, hline.lineRange?, hstart, hstop⟩
  · rintro ⟨range, hrange, hstart, hstop⟩
    have hk := lineRange?_isSome.1 (Option.isSome_of_eq_some hrange)
    rw [lineCount_eq] at hk
    obtain ⟨n, rfl⟩ := Nat.exists_eq_add_of_le' hk.1
    have hn : n ≤ text.toList.count '\n' := by omega
    obtain ⟨before, line, after, hline⟩ := exists_isLine hn
    obtain rfl := Option.some.inj (hline.lineRange?.symm.trans hrange)
    exact hline.lineOf_of_lt hcount hstart hstop

/-- **What the line numbers of a table say** about a text. -/
structure Numbers (t : LineTable) (text : String) : Prop where
  /-- A search among the starts of lines can only end at the line of the offset. -/
  search : ∀ offset i, IsCut t.starts offset i ↔ i = t.lineOf offset
  lineOf : ∀ offset, t.lineOf offset = ((bytes text).take offset).count newline + 1
  mono : ∀ a b, a ≤ b → t.lineOf a ≤ t.lineOf b
  past_end : ∀ offset, text.utf8ByteSize < offset → t.lineOf offset = t.lineCount
  on_line : ∀ offset, offset ≤ text.utf8ByteSize → ∀ k, t.lineOf offset = k ↔
    ∃ range, t.lineRange? k = some range ∧ range.start ≤ offset ∧ offset ≤ range.stop

theorem numbers_ofText {text : String} (hcount : (ofText text).lineCount < UInt32.size) :
    (ofText text).Numbers text where
  search offset i := by
    have hle := (List.takeWhile_sublist (· ≤ offset) (l := (ofText text).starts)).length_le
    rw [isCut_iff (starts_pairwise text), lineOf_eq_length,
      Nat.mod_eq_of_lt (Nat.lt_of_le_of_lt hle hcount)]
  lineOf := lineOf_of_lt hcount
  mono _ _ := lineOf_mono hcount
  past_end offset h := by
    have hall : (bytes text).take offset = bytes text :=
      List.take_of_length_le (by rw [length_bytes]; omega)
    rw [lineOf_of_lt hcount, hall, count_bytes, lineCount_eq]
  on_line _ := lineOf_eq_iff hcount

/-- **What a table says about a text** that it is the table of. -/
structure Splits (t : LineTable) (text : String) : Prop where
  lineCount : t.lineCount = (bytes text).count newline + 1
  lineRange? : ∀ k, (t.lineRange? k).isSome ↔ 1 ≤ k ∧ k ≤ t.lineCount
  pieces : (List.range' 1 t.lineCount).map (t.lineText? text) = (text.toList.splitOn '\n').map some
  joined : ['\n'].intercalate (text.toList.splitOn '\n') = text.toList
  /-- The numbers are right as long as 32 bits hold them. -/
  numbers : t.lineCount < UInt32.size → t.Numbers text

/-- **The table of a text splits it at its newlines**, whatever the text. -/
theorem ofText_splits (text : String) : (ofText text).Splits text where
  lineCount := by rw [lineCount_eq, count_bytes]
  lineRange? _ := lineRange?_isSome
  pieces := map_lineText? text
  joined := List.intercalate_splitOn '\n'
  numbers := numbers_ofText

/-- Characters of two bytes, a carriage return, an empty line and one after the last newline. -/
example : let text := "é\r\n\nß\n"
    (List.range' 1 5).map (ofText text).lineRange? =
      [some ⟨0, 3⟩, some ⟨4, 4⟩, some ⟨5, 7⟩, some ⟨8, 8⟩, none] ∧
    [0, 3, 4, 5, 7, 8, 99].map (ofText text).lineOf = [1, 1, 2, 3, 3, 4, 4] := by
  decide +kernel

end LineTable

end DebugMap
