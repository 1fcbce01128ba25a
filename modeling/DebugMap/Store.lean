import DebugMap.Position

/-!
# The store of source files

Files are known by ids that are never given out twice. Every change that takes effect raises the
revision by one, so two reads at one revision see the same files.
-/

set_option autoImplicit false

namespace DebugMap

/-- **The files of a session**, in the order of their ids, which is the order in which they were
inserted. -/
structure Store where
  files : List (FileId × SourceFile) := []
  nextId : Nat := 0
  revision : Nat := 0
  deriving DecidableEq, Repr

namespace Store

def file? (s : Store) (id : FileId) : Option SourceFile :=
  s.files.lookup id

def ids (s : Store) : List FileId :=
  s.files.map Prod.fst

def insert (s : Store) (file : SourceFile) : FileId × Store :=
  (⟨s.nextId⟩,
    { files := s.files ++ [(⟨s.nextId⟩, file)]
      nextId := s.nextId + 1
      revision := s.revision + 1 })

/-- Replaces the content of a present file; says whether there is one. -/
def set (s : Store) (id : FileId) (file : SourceFile) : Bool × Store :=
  if (s.file? id).isSome then
    (true,
      { s with
        files := s.files.map fun entry => if entry.1 = id then (id, file) else entry
        revision := s.revision + 1 })
  else (false, s)

def remove (s : Store) (id : FileId) : Option SourceFile × Store :=
  match s.file? id with
  | some file =>
    (some file,
      { s with
        files := s.files.filter fun entry => entry.1 ≠ id
        revision := s.revision + 1 })
  | none => (none, s)

end Store

end DebugMap
