import DebugMap.Text.Lines
import Mathlib.Tactic.SplitIfs

/-!
# Lines of a text

`IsLine text number before line after` cuts a text around one of its lines. Main statements:
`exists_isLine` (every number from 1 on that a table of the text counts has its line),
`exists_isLine_at` (and so has every offset of the text),
`IsLine.lineRange?` (the range of a line is where it stands) and `IsLine.lineOf` (an offset from the
start of a line to its end, the newline's place included, belongs to that line).
-/

set_option autoImplicit false

namespace DebugMap

namespace Text

/-! ## Where lines start -/

theorem startsAfterNewlines_append (offset : Nat) (a b : List Char) :
    startsAfterNewlines offset (a ++ b) =
      startsAfterNewlines offset a ++ startsAfterNewlines (offset + byteLength a) b := by
  induction a generalizing offset with
  | nil => rfl
  | cons c r ih =>
    rw [List.cons_append, startsAfterNewlines, startsAfterNewlines, byteLength, ← Nat.add_assoc, ih]
    split_ifs <;> rfl

theorem length_startsAfterNewlines (offset : Nat) (cs : List Char) :
    (startsAfterNewlines offset cs).length = cs.count '\n' := by
  induction cs generalizing offset with
  | nil => rfl
  | cons c r ih => by_cases h : c = '\n' <;> simp [startsAfterNewlines, h, ih]

theorem startsAfterNewlines_eq_nil {cs : List Char} (h : '\n' ∉ cs) (offset : Nat) :
    startsAfterNewlines offset cs = [] := by
  rw [← List.length_eq_zero_iff, length_startsAfterNewlines, List.count_eq_zero]
  exact h

theorem bounds_of_mem_startsAfterNewlines {offset n : Nat} {cs : List Char}
    (h : n ∈ startsAfterNewlines offset cs) : offset < n ∧ n ≤ offset + byteLength cs := by
  induction cs generalizing offset with
  | nil => cases h
  | cons c r ih =>
    have hpos := c.utf8Size_pos
    have hrest (hmem : n ∈ startsAfterNewlines (offset + c.utf8Size) r) :
        offset < n ∧ n ≤ offset + byteLength (c :: r) := by
      have := ih hmem
      simp only [byteLength]
      omega
    rw [startsAfterNewlines] at h
    split_ifs at h
    · rcases List.mem_cons.1 h with rfl | h
      · simp only [byteLength]
        omega
      · exact hrest h
    · exact hrest h

theorem takeWhile_startsAfterNewlines {offset bound : Nat} (h : bound ≤ offset) (cs : List Char) :
    (startsAfterNewlines offset cs).takeWhile (· ≤ bound) = [] := by
  cases hstarts : startsAfterNewlines offset cs with
  | nil => rfl
  | cons n more =>
    have hn := bounds_of_mem_startsAfterNewlines (hstarts ▸ List.mem_cons_self)
    refine List.takeWhile_cons_of_neg ?_
    rw [decide_eq_true_iff]
    omega

/-! ## A text around one of its lines -/

/-- **A line of a text**, by its number from 1, with what stands before and after it. -/
structure IsLine (text : List Char) (number : Nat) (before line after : List Char) : Prop where
  text_eq : text = before ++ line ++ after
  opens : before = [] ∨ ∃ rest, before = rest ++ ['\n']
  unbroken : '\n' ∉ line
  closes : after = [] ∨ ∃ rest, after = '\n' :: rest
  number_eq : number = before.count '\n' + 1

namespace IsLine

theorem whole {text : List Char} (h : '\n' ∉ text) : IsLine text 1 [] text [] :=
  ⟨by simp, .inl rfl, h, .inl rfl, rfl⟩

theorem first {line rest : List Char} (h : '\n' ∉ line) :
    IsLine (line ++ '\n' :: rest) 1 [] line ('\n' :: rest) :=
  ⟨rfl, .inl rfl, h, .inr ⟨rest, rfl⟩, rfl⟩

theorem below {first rest before line after : List Char} {number : Nat} (hfirst : '\n' ∉ first)
    (h : IsLine rest number before line after) :
    IsLine (first ++ '\n' :: rest) (number + 1) (first ++ ['\n'] ++ before) line after := by
  refine ⟨by simp [h.text_eq], .inr ?_, h.unbroken, h.closes, ?_⟩
  · rcases h.opens with rfl | ⟨r, rfl⟩
    · exact ⟨first, List.append_nil _⟩
    · exact ⟨first ++ ['\n'] ++ r, (List.append_assoc ..).symm⟩
  · have := h.number_eq
    simp only [List.count_append, List.count_singleton_self, List.count_eq_zero.2 hfirst]
    omega

end IsLine

/-- **Every number** up to one more than the count of newlines has its line. -/
theorem exists_isLine {text : List Char} {k : Nat} (h : k ≤ text.count '\n') :
    ∃ before line after, IsLine text (k + 1) before line after := by
  induction k generalizing text with
  | zero =>
    by_cases hmem : '\n' ∈ text
    · obtain ⟨line, rest, rfl, hline⟩ := List.eq_append_cons_of_mem hmem
      exact ⟨_, _, _, .first hline⟩
    · exact ⟨_, _, _, .whole hmem⟩
  | succ k ih =>
    have hmem : '\n' ∈ text := List.count_pos_iff.1 (by omega)
    obtain ⟨first, rest, rfl, hfirst⟩ := List.eq_append_cons_of_mem hmem
    have hrest : k ≤ rest.count '\n' := by
      simp only [List.count_append, List.count_cons_self, List.count_eq_zero.2 hfirst] at h
      omega
    obtain ⟨before, line, after, hline⟩ := ih hrest
    exact ⟨_, _, _, hline.below hfirst⟩

/-- **Every offset** of a text, its end included, is on a line. -/
theorem exists_isLine_at {text : List Char} {offset : Nat} (h : offset ≤ byteLength text) :
    ∃ number before line after, IsLine text number before line after ∧
      byteLength before ≤ offset ∧ offset ≤ byteLength before + byteLength line := by
  -- An offset past the first line is looked for in what follows that line, with one newline less.
  induction hcount : text.count '\n' generalizing text offset with
  | zero =>
    have hmem : '\n' ∉ text := List.count_eq_zero.1 hcount
    exact ⟨_, _, _, _, .whole hmem, Nat.zero_le _, by simpa [byteLength] using h⟩
  | succ k ih =>
    have hmem : '\n' ∈ text := List.count_pos_iff.1 (by omega)
    obtain ⟨first, rest, rfl, hfirst⟩ := List.eq_append_cons_of_mem hmem
    by_cases hin : offset ≤ byteLength first
    · exact ⟨_, _, _, _, .first hfirst, Nat.zero_le _, by simpa [byteLength] using hin⟩
    · have hbreak : byteLength (first ++ ['\n']) = byteLength first + 1 := byteLength_append ..
      have hrest : offset - (byteLength first + 1) ≤ byteLength rest := by
        rw [List.append_cons, byteLength_append, hbreak] at h
        omega
      have hcount : rest.count '\n' = k := by
        simp only [List.count_append, List.count_cons_self, List.count_eq_zero.2 hfirst] at hcount
        omega
      obtain ⟨number, before, line, after, hline, hstart, hstop⟩ := ih hrest hcount
      refine ⟨_, _, _, _, hline.below hfirst, ?_, ?_⟩
      all_goals
        rw [byteLength_append, hbreak]
        omega

namespace IsLine

open LineTable

variable {text : String} {before line after : List Char} {number : Nat}

theorem slice? (h : IsLine text.toList number before line after) :
    Text.slice? text.toList ⟨byteLength before, byteLength before + byteLength line⟩ =
      some line := by
  rw [h.text_eq]
  exact slice?_append before line after

theorem starts_eq (h : IsLine text.toList number before line after) :
    (ofText text).starts =
      (0 :: startsAfterNewlines 0 before) ++
        startsAfterNewlines (byteLength before + byteLength line) after := by
  rw [ofText, h.text_eq, startsAfterNewlines_append, startsAfterNewlines_append,
    startsAfterNewlines_eq_nil h.unbroken, List.append_nil, byteLength_append, Nat.zero_add]
  rfl

theorem start_eq (h : IsLine text.toList number before line after) :
    (0 :: startsAfterNewlines 0 before)[before.count '\n']? = some (byteLength before) := by
  rcases h.opens with rfl | ⟨rest, rfl⟩
  · rfl
  · have hlast : startsAfterNewlines (byteLength rest) ['\n'] = [byteLength rest + 1] := rfl
    rw [startsAfterNewlines_append, Nat.zero_add, hlast, List.count_append,
      List.count_singleton_self, List.getElem?_cons_succ, ← length_startsAfterNewlines 0 rest,
      List.getElem?_concat_length, byteLength_append]
    rfl

/-- **The range of a line** is where it stands in the text. -/
theorem lineRange? (h : IsLine text.toList number before line after) :
    (ofText text).lineRange? number =
      some ⟨byteLength before, byteLength before + byteLength line⟩ := by
  have hlength : (0 :: startsAfterNewlines 0 before).length = before.count '\n' + 1 := by
    rw [List.length_cons, length_startsAfterNewlines]
  have hstart : (ofText text).starts[before.count '\n']? = some (byteLength before) := by
    rw [h.starts_eq, List.getElem?_append_left (by omega), h.start_eq]
  rw [h.number_eq, LineTable.lineRange?, hstart, Option.map_some, h.starts_eq,
    List.getElem?_append_right (by omega), hlength, Nat.sub_self]
  rcases h.closes with rfl | ⟨rest, rfl⟩
  · have hsize : (ofText text).size = byteLength before + byteLength line := by
      rw [ofText, utf8ByteSize_eq, h.text_eq, List.append_nil, byteLength_append]
    simp [startsAfterNewlines, hsize]
  · rfl

/-- **An offset from the start of a line to its end** belongs to that line. -/
theorem lineOf (h : IsLine text.toList number before line after) {offset : Nat}
    (hstart : byteLength before ≤ offset) (hstop : offset ≤ byteLength before + byteLength line) :
    (ofText text).lineOf offset = number % UInt32.size := by
  have hbefore : ∀ n ∈ 0 :: startsAfterNewlines 0 before, decide (n ≤ offset) = true := by
    intro n hn
    rcases List.mem_cons.1 hn with rfl | hn
    · exact decide_eq_true offset.zero_le
    · have := bounds_of_mem_startsAfterNewlines hn
      exact decide_eq_true (by omega)
  have hafter := takeWhile_startsAfterNewlines hstop after
  rw [LineTable.lineOf, h.starts_eq, List.takeWhile_append_of_pos hbefore, hafter, List.append_nil,
    List.length_cons, length_startsAfterNewlines, h.number_eq, Nat.max_eq_right (Nat.le_add_left 1 _)]

end IsLine

end Text

theorem LineTable.lineCount_eq (text : String) :
    (ofText text).lineCount = text.toList.count '\n' + 1 := by
  rw [lineCount, ofText, List.length_cons, Text.length_startsAfterNewlines]

namespace Text.IsLine

variable {text : String} {before line after : List Char} {number : Nat}

theorem le_lineCount (h : IsLine text.toList number before line after) :
    number ≤ (LineTable.ofText text).lineCount := by
  rw [LineTable.lineCount_eq, h.text_eq, List.append_assoc, List.count_append, h.number_eq]
  omega

theorem lineOf_of_lt (h : IsLine text.toList number before line after)
    (hcount : (LineTable.ofText text).lineCount < UInt32.size) {offset : Nat}
    (hstart : byteLength before ≤ offset) (hstop : offset ≤ byteLength before + byteLength line) :
    (LineTable.ofText text).lineOf offset = number :=
  (h.lineOf hstart hstop).trans (Nat.mod_eq_of_lt (Nat.lt_of_le_of_lt h.le_lineCount hcount))

end Text.IsLine

end DebugMap
