import DebugMap.Position
import DebugMap.Proofs.Text.Lines
import Mathlib.Tactic.ByContra

/-!
# Clicks beside a line

A click beside a line means its first character that is not blank. Main statements:
`firstVisible_firstColumn` (where that is), `Text.IsLine.atLine?` (the position of a click, from the
text around the line) and `click_beside_line` (which lines can be clicked, and where a click lands).
-/

set_option autoImplicit false

namespace DebugMap

namespace FilePosition

open Text

/-- **The byte column of the first character that is not blank**; 0 on a blank line. -/
def FirstVisible (line : List Char) (column : Nat) : Prop :=
  (∃ blanks c rest, line = blanks ++ c :: rest ∧ (∀ b ∈ blanks, isBlank b = true) ∧
    isBlank c = false ∧ column = byteLength blanks) ∨
  (∀ c ∈ line, isBlank c = true) ∧ column = 0

theorem exists_visible {line : List Char} (h : ∃ c ∈ line, isBlank c = false) :
    ∃ blanks c rest, line = blanks ++ c :: rest ∧ (∀ b ∈ blanks, isBlank b = true) ∧
      isBlank c = false := by
  cases hfind : line.find? (!isBlank ·) with
  | none =>
    obtain ⟨c, hc, hvisible⟩ := h
    have := List.find?_eq_none.1 hfind c hc
    simp [hvisible] at this
  | some c =>
    obtain ⟨hc, blanks, rest, rfl, hblanks⟩ := List.find?_eq_some_iff_append.1 hfind
    exact ⟨blanks, c, rest, rfl, by simpa using hblanks, by simpa using hc⟩

theorem firstColumn_append {blanks rest : List Char} {c : Char}
    (hblanks : ∀ b ∈ blanks, isBlank b = true) (hc : isBlank c = false) :
    firstColumn (blanks ++ c :: rest) = byteLength blanks := by
  have hall : (blanks ++ c :: rest).all isBlank = false := by simp [hc]
  have htake : (blanks ++ c :: rest).takeWhile isBlank = blanks := by
    rw [List.takeWhile_append_of_pos hblanks, List.takeWhile_cons_of_neg (by simp [hc]),
      List.append_nil]
  simp [firstColumn, hall, htake]

theorem firstVisible_firstColumn (line : List Char) : FirstVisible line (firstColumn line) := by
  by_cases h : ∃ c ∈ line, isBlank c = false
  · obtain ⟨blanks, c, rest, rfl, hblanks, hc⟩ := exists_visible h
    exact .inl ⟨blanks, c, rest, rfl, hblanks, hc, firstColumn_append hblanks hc⟩
  · have hall : ∀ c ∈ line, isBlank c = true := by simpa using h
    exact .inr ⟨hall, if_pos (List.all_eq_true.2 hall)⟩

theorem FirstVisible.le {line : List Char} {column : Nat} (h : FirstVisible line column) :
    column ≤ byteLength line := by
  rcases h with ⟨blanks, c, rest, rfl, -, -, rfl⟩ | ⟨-, rfl⟩
  · rw [byteLength_append]
    exact Nat.le_add_right _ _
  · exact Nat.zero_le _

end FilePosition

open FilePosition Text

variable {id : FileId} {file : SourceFile} {number : Nat}

/-- **A click beside a line** lands on the line's first visible character. -/
theorem Text.IsLine.atLine? {before line after : List Char}
    (h : IsLine file.text.toList number before line after) (id : FileId) :
    FilePosition.atLine? id file number =
      some (atOffset id file (byteLength before + firstColumn line)) := by
  rw [FilePosition.atLine?, SourceFile.lines, h.lineRange?, Option.bind_some, h.slice?]
  rfl

theorem Text.IsLine.line_atLine? {before line after : List Char}
    (h : IsLine file.text.toList number before line after) :
    file.lines.lineOf (byteLength before + firstColumn line) = number % UInt32.size :=
  h.lineOf (Nat.le_add_right _ _)
    (Nat.add_le_add_left (firstVisible_firstColumn line).le _)

namespace FilePosition

/-- **Exactly the lines of a file can be clicked**, whatever its text and its structure. The range
of such a line cuts the text between characters. The position of the click is on the line, whose
number it has if 32 bits hold that, before or at its end, with nothing but blanks in front of it,
and on a character that is not blank if the line has one. -/
theorem click_beside_line (id : FileId) (file : SourceFile) (line : Nat) :
    (atLine? id file line = none ↔ line = 0 ∨ file.lines.lineCount < line) ∧
    (1 ≤ line ∧ line ≤ file.lines.lineCount → ∃ range chars pos,
      file.lines.lineRange? line = some range ∧ slice? file.text.toList range = some chars ∧
      atLine? id file line = some pos ∧ pos.file = id ∧
      (line < UInt32.size → pos.line = line ∧ file.lines.lineOf pos.offset = line) ∧
      range.start ≤ pos.offset ∧ pos.offset ≤ range.stop ∧
      FirstVisible chars (pos.offset - range.start) ∧
      pos.element = file.elementAt pos.offset) := by
  have hline (hcount : 1 ≤ line ∧ line ≤ file.lines.lineCount) :
      ∃ before chars after, IsLine file.text.toList line before chars after := by
    rw [SourceFile.lines, LineTable.lineCount_eq] at hcount
    obtain ⟨k, rfl⟩ := Nat.exists_eq_add_of_le' hcount.1
    exact exists_isLine (by omega)
  refine ⟨⟨fun hnone => ?_, fun hout => ?_⟩, fun hcount => ?_⟩
  · by_contra hout
    obtain ⟨before, chars, after, h⟩ := hline (by omega)
    rw [h.atLine? id] at hnone
    cases hnone
  · have hrange : file.lines.lineRange? line = none := by
      rw [← Option.not_isSome_iff_eq_none, LineTable.lineRange?_isSome]
      omega
    rw [atLine?, hrange]
    rfl
  · obtain ⟨before, chars, after, h⟩ := hline hcount
    have hvisible := firstVisible_firstColumn chars
    refine ⟨_, chars, _, h.lineRange?, h.slice?, h.atLine? id, rfl, fun hlt => ?_,
      Nat.le_add_right _ _, Nat.add_le_add_left hvisible.le _, ?_, rfl⟩
    · have hnumber := h.line_atLine?.trans (Nat.mod_eq_of_lt hlt)
      exact ⟨hnumber, hnumber⟩
    · simpa [atOffset] using hvisible

/-- The second line is indented by a no-break space and a tab and ends with a carriage return; the
third is empty, and so is the fourth, which no newline ends. -/
theorem click_beside_line_blank :
    let file : SourceFile := ⟨"a", "é\n\u00A0\tß\r\n\n", .foreign⟩
    atLine? ⟨7⟩ file 2 = some ⟨⟨7⟩, 6, 2, .file⟩ ∧ atLine? ⟨7⟩ file 3 = some ⟨⟨7⟩, 10, 3, .file⟩ ∧
      (∃ pos, atLine? ⟨7⟩ file 4 = some pos ∧ pos.line = 4 ∧ pos.offset ≤ 11) ∧
      atLine? ⟨7⟩ file 5 = none := by
  refine ⟨by decide +kernel, by decide +kernel, ?_, ?_⟩
  · obtain ⟨range, chars, pos, hrange, -, hpos, -, hnumber, -, hstop, -⟩ :=
      (click_beside_line ⟨7⟩ ⟨"a", "é\n\u00A0\tß\r\n\n", .foreign⟩ 4).2 (by decide +kernel)
    obtain rfl : range = ⟨11, 11⟩ := Option.some.inj (hrange.symm.trans (by decide +kernel))
    exact ⟨pos, hpos, (hnumber (by decide)).1, hstop⟩
  · exact (click_beside_line ⟨7⟩ _ 5).1.2 (.inr (by decide +kernel))

end FilePosition

end DebugMap
