import DebugMap.Smali.Basic

/-!
# Positions in files

A position names its file by id only. The file may be edited or removed after the position was
taken, so every query checks it against the files as they are then.
-/

set_option autoImplicit false

namespace DebugMap

structure FileId where
  raw : Nat
  deriving DecidableEq, Repr

/-- **A place in a file**, with its line and the smallest node around it at the time it was
taken. -/
structure FilePosition where
  file : FileId
  offset : Nat
  line : Nat
  element : Smali.Node
  deriving DecidableEq, Repr

namespace FilePosition

def atOffset (id : FileId) (file : SourceFile) (offset : Nat) : FilePosition where
  file := id
  offset := offset
  line := file.lines.lineOf offset
  element := file.elementAt offset

/-- The byte column of the first character of a line that is not blank; the start of the line if
there is none. -/
def firstColumn (line : List Char) : Nat :=
  if line.all Text.isBlank then 0 else Text.byteLength (line.takeWhile Text.isBlank)

/-- The position that a click beside a line means: the first character of it that is not
blank. -/
def atLine? (id : FileId) (file : SourceFile) (line : Nat) : Option FilePosition :=
  (file.lines.lineRange? line).bind fun range =>
    (Text.slice? file.text.toList range).map fun chars =>
      atOffset id file (range.start + firstColumn chars)

end FilePosition

end DebugMap
