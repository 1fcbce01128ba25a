import DebugMap.Index.Postings
import DebugMap.Store

/-!
# Looking files up by symbol

An index maps class names and method signatures to the files that declare them. Whoever asks an
index has to check each candidate against the store: an index may be out of date. The `SymbolIndex`
here is exact for the sources it was last given; it answers in increasing order of file and method
position, so that the first candidate is always the same.
-/

set_option autoImplicit false

namespace DebugMap

inductive SearchScope where
  | project
  | file (id : FileId)
  deriving DecidableEq, Repr

def SearchScope.contains : SearchScope → FileId → Bool
  | .project, _ => true
  | .file scope, id => scope = id

structure ClassSymbol where
  file : FileId
  name : String
  deriving DecidableEq, Repr

structure MethodSymbol where
  file : FileId
  method : Nat
  signature : String
  deriving DecidableEq, Repr

instance : LT FileId := ⟨fun a b => a.raw < b.raw⟩

instance : DecidableLT FileId := fun a b => inferInstanceAs (Decidable (a.raw < b.raw))

structure MethodPlace where
  file : FileId
  method : Nat
  deriving DecidableEq, Repr

instance : LT MethodPlace :=
  ⟨fun a b => a.file < b.file ∨ a.file = b.file ∧ a.method < b.method⟩

instance : DecidableLT MethodPlace := fun a b =>
  inferInstanceAs (Decidable (a.file < b.file ∨ a.file = b.file ∧ a.method < b.method))

/-- What the index recorded of a file: the keys under which its entries stand. -/
structure FileKeys where
  className : Option String
  signatures : List String
  deriving DecidableEq, Repr

/-- **The index:** files by class name, methods by signature, and the keys of each indexed
file. -/
structure SymbolIndex where
  classes : Postings FileId := {}
  methods : Postings MethodPlace := {}
  files : List (FileId × FileKeys) := []

namespace SymbolIndex

/-- Takes out every entry of a file, found by the keys recorded for it. -/
def remove (index : SymbolIndex) (id : FileId) : SymbolIndex :=
  match index.files.lookup id with
  | none => index
  | some keys =>
    { classes :=
        match keys.className with
        | some name => index.classes.erase name (· = id)
        | none => index.classes
      methods := keys.signatures.foldl (fun m key => m.erase key (·.file = id)) index.methods
      files := index.files.filter fun entry => entry.1 ≠ id }

/-- Files the methods of a class, the first of them at position `at`. -/
def addMethods (id : FileId) : Nat → List Smali.Method → Postings MethodPlace →
    Postings MethodPlace
  | _, [], p => p
  | position, m :: rest, p =>
    addMethods id (position + 1) rest (p.insert m.signature ⟨id, position⟩)

/-- Adds the entries of a file that has none yet; a foreign file has none to add. -/
def add (index : SymbolIndex) (id : FileId) (source : SourceFile) : SymbolIndex :=
  match source.classDef? with
  | none => index
  | some c =>
    let name := c.qualifiedName?
    { classes :=
        match name with
        | some n => index.classes.insert n id
        | none => index.classes
      methods := addMethods id 0 c.methods index.methods
      files := (id, ⟨name, c.methods.map Smali.Method.signature⟩) :: index.files }

/-- **Indexes a file anew**, or drops it. -/
def update (index : SymbolIndex) (id : FileId) (source : Option SourceFile) : SymbolIndex :=
  match source with
  | some file => (index.remove id).add id file
  | none => index.remove id

def ofStore (store : Store) (ids : List FileId) : SymbolIndex :=
  ids.foldl (fun index id => index.update id (store.file? id)) {}

def isEmpty (index : SymbolIndex) : Bool :=
  index.files.isEmpty

/-- The files that define a class, which may be named in any spelling. -/
def classesByName (index : SymbolIndex) (name : String) (scope : SearchScope) :
    List ClassSymbol :=
  match ClassName.binary? name with
  | none => []
  | some binary =>
    ((index.classes.get binary).filter scope.contains).map fun id => ⟨id, binary⟩

def methodsBySignature (index : SymbolIndex) (signature : String) (scope : SearchScope) :
    List MethodSymbol :=
  ((index.methods.get signature).filter fun place => scope.contains place.file).map
    fun place => ⟨place.file, place.method, signature⟩

end SymbolIndex

end DebugMap
