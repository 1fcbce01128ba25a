import DebugMap.Position
import DebugMap.Runtime

/-!
# Why a query has no answer

A query that finds no counterpart (`noMapping`) is told apart from a query with an empty answer,
and from one that the process could not take part in (`hostUnavailable`).
-/

set_option autoImplicit false

namespace DebugMap

/-- Why a position or a location has no counterpart on the other side. -/
inductive NoMapping where
  | notDisassembly
  | missingFile (file : FileId)
  | outsideClass (file : FileId) (offset : Nat)
  | invalidTypeName (name : String)
  | unknownType (name : String)
  | unknownMethod (className method : String)
  | noInstruction (method : String) (codeOffset : UInt64)
  deriving DecidableEq, Repr

def NoMapping.message : NoMapping → String
  | .notDisassembly => "position is not inside a smali file"
  | .missingFile file => s!"file {file.raw} no longer exists"
  | .outsideClass file offset =>
    s!"offset {offset} is outside the class defined in file {file.raw}"
  | .invalidTypeName name => "`" ++ name ++ "` is not a class name"
  | .unknownType name => "no smali class named `" ++ name ++ "`"
  | .unknownMethod className method =>
    "no method `" ++ method ++ "` in smali class `" ++ className ++ "`"
  | .noInstruction method codeOffset =>
    s!"no instruction at code offset {codeOffset.toNat} in `" ++ method ++ "`"

/-- **Why a query failed.** -/
inductive PositionError where
  | noMapping (reason : NoMapping)
  | hostUnavailable (error : HostError)
  deriving DecidableEq, Repr

namespace PositionError

def message : PositionError → String
  | .noMapping reason => "no mapping: " ++ reason.message
  | .hostUnavailable error => "host process unavailable: " ++ error.message

def isNoMapping : PositionError → Bool
  | .noMapping _ => true
  | .hostUnavailable _ => false

end PositionError

end DebugMap
