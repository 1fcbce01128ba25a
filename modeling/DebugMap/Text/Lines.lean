import DebugMap.Text.Range

/-!
# Lines and slices of a text

Offsets count UTF-8 bytes. A `LineTable` holds the offsets at which the lines of a text start; a
line ends before its newline, and the last line ends with the text. Main statements:
`utf8ByteSize_eq` (the byte size of a text is the sum over its characters) and
`slice?_append` (a slice between two parts of a text is what stands there).
-/

set_option autoImplicit false

namespace DebugMap

namespace Text

def byteLength : List Char → Nat
  | [] => 0
  | c :: r => c.utf8Size + byteLength r

@[simp] theorem byteLength_append (a b : List Char) :
    byteLength (a ++ b) = byteLength a + byteLength b := by
  induction a with
  | nil => simp [byteLength]
  | cons c r ih => simp [byteLength, ih, Nat.add_assoc]

/-- **The byte size** of a string is the sum over its characters. -/
theorem utf8ByteSize_eq (s : String) : s.utf8ByteSize = byteLength s.toList := by
  have key : ∀ cs : List Char, (String.ofList cs).utf8ByteSize = byteLength cs := by
    intro cs
    induction cs with
    | nil => rfl
    | cons c r ih =>
      rw [String.ofList_cons, String.utf8ByteSize_append, ih, String.utf8ByteSize_singleton]
      rfl
  simpa using key s.toList

/-- Drops exactly `n` bytes; none if that would cut a character or pass the end. -/
def dropBytes? : Nat → List Char → Option (List Char)
  | 0, cs => some cs
  | _ + 1, [] => none
  | n + 1, c :: r => if c.utf8Size ≤ n + 1 then dropBytes? (n + 1 - c.utf8Size) r else none

def takeBytes? : Nat → List Char → Option (List Char)
  | 0, _ => some []
  | _ + 1, [] => none
  | n + 1, c :: r =>
    if c.utf8Size ≤ n + 1 then (takeBytes? (n + 1 - c.utf8Size) r).map (c :: ·) else none

/-- **The characters at a range** of a text; none unless both ends are in order, inside the text
and between characters. -/
def slice? (text : List Char) (range : TextRange) : Option (List Char) :=
  if range.start ≤ range.stop then
    (dropBytes? range.start text).bind (takeBytes? range.length)
  else none

theorem dropBytes?_append (a b : List Char) : dropBytes? (byteLength a) (a ++ b) = some b := by
  induction a with
  | nil => simp [byteLength, dropBytes?]
  | cons c r ih =>
    obtain ⟨k, hk⟩ : ∃ k, c.utf8Size + byteLength r = k + 1 :=
      ⟨c.utf8Size + byteLength r - 1, by have := c.utf8Size_pos; omega⟩
    have hc : c.utf8Size ≤ k + 1 := by omega
    have hr : k + 1 - c.utf8Size = byteLength r := by omega
    rw [byteLength, hk, List.cons_append, dropBytes?, if_pos hc, hr, ih]

theorem takeBytes?_append (a b : List Char) : takeBytes? (byteLength a) (a ++ b) = some a := by
  induction a with
  | nil => simp [byteLength, takeBytes?]
  | cons c r ih =>
    obtain ⟨k, hk⟩ : ∃ k, c.utf8Size + byteLength r = k + 1 :=
      ⟨c.utf8Size + byteLength r - 1, by have := c.utf8Size_pos; omega⟩
    have hc : c.utf8Size ≤ k + 1 := by omega
    have hr : k + 1 - c.utf8Size = byteLength r := by omega
    rw [byteLength, hk, List.cons_append, takeBytes?, if_pos hc, hr, ih]
    rfl

theorem slice?_append (a b c : List Char) :
    slice? (a ++ b ++ c) ⟨byteLength a, byteLength a + byteLength b⟩ = some b := by
  have hle : byteLength a ≤ byteLength a + byteLength b := Nat.le_add_right _ _
  simp only [slice?, if_pos hle, TextRange.length, Nat.add_sub_cancel_left, List.append_assoc,
    dropBytes?_append, Option.bind_some, takeBytes?_append]

/-- The offsets right after each newline of a run of characters that starts at `offset`. -/
def startsAfterNewlines (offset : Nat) : List Char → List Nat
  | [] => []
  | c :: r =>
    let next := offset + c.utf8Size
    if c = '\n' then next :: startsAfterNewlines next r else startsAfterNewlines next r

end Text

/-- **Where the lines of a text start**, and its size in bytes. -/
structure LineTable where
  starts : List Nat
  size : Nat
  deriving DecidableEq, Repr

namespace LineTable

def ofText (text : String) : LineTable where
  starts := 0 :: Text.startsAfterNewlines 0 text.toList
  size := text.utf8ByteSize

def lineCount (t : LineTable) : Nat :=
  t.starts.length

/-- The number, from 1, of the line that holds `offset`: how many lines start at or before it. An
offset past the end belongs to the last line. Numbers are kept in 32 bits. -/
def lineOf (t : LineTable) (offset : Nat) : Nat :=
  max 1 (t.starts.takeWhile (· ≤ offset)).length % UInt32.size

/-- The range of a line, counted from 1, without its newline. -/
def lineRange? (t : LineTable) : Nat → Option TextRange
  | 0 => none
  | k + 1 =>
    t.starts[k]?.map fun start =>
      match t.starts[k + 1]? with
      | some next => ⟨start, next - 1⟩
      | none => ⟨start, t.size⟩

theorem lineRange?_isSome {t : LineTable} {line : Nat} :
    (t.lineRange? line).isSome ↔ 1 ≤ line ∧ line ≤ t.lineCount := by
  cases line with
  | zero => simp [lineRange?]
  | succ k =>
    rw [lineRange?, Option.isSome_map, isSome_getElem?, lineCount]
    omega

end LineTable

end DebugMap
