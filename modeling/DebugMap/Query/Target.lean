import DebugMap.Config.Basic
import DebugMap.Query.Basic

/-!
# From a position to code

What a position stands for in the files alone: the class around it, that class's binary name, and
the instruction at which execution can stop for it. All of it is computed from one reading of the
store.
-/

set_option autoImplicit false

namespace DebugMap

open Smali

/-- **The class around a position.** The position is checked in this order: its file is present, is
a smali file, and the offset is inside the class. -/
def Store.classAt (store : Store) (pos : FilePosition) : Except PositionError ClassDef :=
  match store.file? pos.file with
  | none => .error (.noMapping (.missingFile pos.file))
  | some file =>
    match file.classDef? with
    | none => .error (.noMapping .notDisassembly)
    | some c =>
      if c.range.contains pos.offset then .ok c
      else .error (.noMapping (.outsideClass pos.file pos.offset))

def Smali.ClassDef.binaryName (c : ClassDef) : Except PositionError String :=
  match c.qualifiedName? with
  | some name => .ok name
  | none => .error (.noMapping (.invalidTypeName c.name))

def Store.classNameAt (store : Store) (pos : FilePosition) : Except PositionError String :=
  match store.classAt pos with
  | .ok c => c.binaryName
  | .error e => .error e

/-- **Where code for a position starts:** a method of a class and a code index in it. -/
structure CodeTarget where
  className : String
  methodName : String
  methodDescriptor : String
  codeIndex : UInt64
  deriving DecidableEq, Repr

/-- What a position inside a class has to offer: code, or none for a reason worth a note. -/
inductive Coverage where
  | code (target : CodeTarget)
  | gap (event : QueryEvent)
  deriving DecidableEq, Repr

def coverageIn (config : Config) (c : ClassDef) (className : String) (offset : Nat) : Coverage :=
  match c.methodContaining? offset with
  | none => .gap (.outsideMethods className offset)
  | some (_, method) =>
    match method.instructionAtOrAfter? offset with
    | none => .gap (.afterLastInstruction className method.signature offset)
    | some (_, instruction) =>
      .code ⟨className, method.name, method.descriptor, config.codeIndex instruction.codeOffset⟩

def Store.coverage (config : Config) (store : Store) (pos : FilePosition) :
    Except PositionError Coverage :=
  match store.classAt pos with
  | .error e => .error e
  | .ok c =>
    match c.binaryName with
    | .error e => .error e
    | .ok name => .ok (coverageIn config c name pos.offset)

end DebugMap
