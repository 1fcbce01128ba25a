import DebugMap.Query.Target

/-!
# From a runtime location to a position

Where the file shows the instruction that runs at a location. The index may be out of date, so its
candidates are checked against the store, and those that fail are passed over. If several are left,
the first is taken and the log is told; that is no error. What was taken is looked up in the same
reading of the store once more.
-/

set_option autoImplicit false

namespace DebugMap

open Smali

def Store.classDef? (store : Store) (id : FileId) : Option ClassDef :=
  (store.file? id).bind SourceFile.classDef?

/-- Whether a class candidate holds: its file is present and defines the class. -/
def Store.definesClass (store : Store) (name : String) (s : ClassSymbol) : Bool :=
  match store.classDef? s.file with
  | some c => c.qualifiedName? == some name
  | none => false

def SourceFile.methodAt? (file : SourceFile) (position : Nat) : Option Method :=
  file.classDef?.bind fun c => c.methods[position]?

/-- Whether a method candidate holds: its file is present, and the method at its position has the
signature. -/
def Store.declaresMethod (store : Store) (signature : String) (s : MethodSymbol) : Bool :=
  match (store.file? s.file).bind fun file => file.methodAt? s.method with
  | some method => method.signature == signature
  | none => false

/-- A method candidate, with the file and the method found there. -/
structure MethodSite where
  symbol : MethodSymbol
  file : SourceFile
  method : Method
  deriving DecidableEq, Repr

def MethodSite.positionAt (site : MethodSite) (config : Config) (codeIndex : UInt64) :
    Except PositionError FilePosition :=
  match config.codeOffset? codeIndex with
  | none =>
    let past := UInt64.ofNat (UInt64.size - 1)
    .error (.noMapping (.noInstruction site.method.signature past))
  | some codeOffset =>
    match site.method.instructionAtCodeOffset? codeOffset with
    | none => .error (.noMapping (.noInstruction site.method.signature codeOffset))
    | some (index, instruction) =>
      .ok
        { file := site.symbol.file
          offset := instruction.range.start
          line := site.file.lines.lineOf instruction.range.start
          element := .instruction site.symbol.method index }

/-- The position of a location in a method candidate of this class. What the candidate names is
looked up in the store. -/
def Store.positionIn (store : Store) (config : Config) (name : String) (location : RuntimeLocation)
    (symbol : MethodSymbol) : Except PositionError FilePosition :=
  match store.file? symbol.file with
  | none => .error (.noMapping (.missingFile symbol.file))
  | some file =>
    match file.methodAt? symbol.method with
    | none => .error (.noMapping (.unknownMethod name location.signature))
    | some method => MethodSite.positionAt ⟨symbol, file, method⟩ config location.codeIndex

namespace Query

/-- Takes the first of some candidates, and tells the log if there are more. -/
def pickFirst {α : Type} (ambiguity : Nat → α → QueryEvent) : List α → Query (Option α)
  | [] => pure none
  | [only] => pure (some only)
  | first :: rest => do
    note (ambiguity (rest.length + 1) first)
    pure (some first)

/-- **The position shown for a runtime location.** -/
def sourcePosition (config : Config) (location : RuntimeLocation) : Query (Outcome FilePosition) :=
  match ClassName.binary? location.declaringType with
  | none => noMapping (.invalidTypeName location.declaringType)
  | some name => do
    let store ← ask .store
    let classes : List ClassSymbol ← ask (.classSymbols name .project)
    match ← pickFirst (.ambiguousClass name) (classes.filter (store.definesClass name)) with
    | none => noMapping (.unknownType name)
    | some chosen =>
      let key := location.signature
      let methods : List MethodSymbol ← ask (.methodSymbols key (.file chosen.file))
      match ← pickFirst (.ambiguousMethod key) (methods.filter (store.declaresMethod key)) with
      | none => noMapping (.unknownMethod name key)
      | some symbol => pure (store.positionIn config name location symbol)

end Query

end DebugMap
