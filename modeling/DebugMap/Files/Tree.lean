/-!
# Reading a file by its path

A tree of directories, and what it takes to read a text from it: a path is followed one name at a
time from the working directory or, if it starts with a slash, from the root. Each way to fail has
the message that the operating system gives for it.
-/

set_option autoImplicit false

namespace DebugMap

/-- **Files and directories.** -/
inductive FileTree where
  | file (bytes : ByteArray)
  | directory (entries : List (String × FileTree))

inductive ReadFault where
  | notFound
  | notDirectory
  | isDirectory
  | nameTooLong
  | nulInPath
  | notUtf8
  deriving DecidableEq, Repr

def ReadFault.message : ReadFault → String
  | .notFound => "No such file or directory (os error 2)"
  | .notDirectory => "Not a directory (os error 20)"
  | .isDirectory => "Is a directory (os error 21)"
  | .nameTooLong => "File name too long (os error 36)"
  | .nulInPath => "file name contained an unexpected NUL byte"
  | .notUtf8 => "stream did not contain valid UTF-8"

/-- A place in a tree: the node, below the directories that lead to it. -/
structure TreePlace where
  node : FileTree
  above : List FileTree

namespace TreePlace

def maxName : Nat := 255

/-- The number of bytes from which on a path is too long. -/
def pathLimit : Nat := 4096

/-- Goes on by one name. The root is its own parent. -/
def step (place : TreePlace) (name : String) : Except ReadFault TreePlace :=
  match place.node with
  | .file _ => .error .notDirectory
  | .directory entries =>
    if name = "" ∨ name = "." then .ok place
    else if name = ".." then
      match place.above with
      | [] => .ok place
      | parent :: rest => .ok ⟨parent, rest⟩
    else if maxName < name.utf8ByteSize then .error .nameTooLong
    else
      match entries.lookup name with
      | some node => .ok ⟨node, place.node :: place.above⟩
      | none => .error .notFound

def walk (place : TreePlace) (names : List String) : Except ReadFault TreePlace :=
  names.foldlM step place

def root (place : TreePlace) : TreePlace :=
  ⟨place.above.getLast?.getD place.node, []⟩

/-- The names of a path, with an empty one for a slash at either end or after another slash. -/
def namesOf (path : String) : List String :=
  (path.toList.splitOn '/').map String.ofList

def resolve (cwd : TreePlace) (path : String) : Except ReadFault TreePlace :=
  if '\x00' ∈ path.toList then .error .nulInPath
  else if path = "" then .error .notFound
  else if pathLimit ≤ path.utf8ByteSize then .error .nameTooLong
  else if path.toList.head? = some '/' then cwd.root.walk (namesOf path)
  else cwd.walk (namesOf path)

/-- **The text of the file at a path.** -/
def readText (cwd : TreePlace) (path : String) : Except ReadFault String := do
  let place ← cwd.resolve path
  match place.node with
  | .directory _ => .error .isDirectory
  | .file bytes =>
    match String.fromUTF8? bytes with
    | some text => .ok text
    | none => .error .notUtf8

end TreePlace

end DebugMap
