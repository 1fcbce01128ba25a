/-!
# The debugged process, as the debugger sees it

Types the process has loaded, places in its code, and the events it reports when it prepares a
class. Several loaded types may share one name, one for each class loader.
-/

set_option autoImplicit false

namespace DebugMap

structure TypeId where
  raw : Nat
  deriving DecidableEq, Repr

/-- **A loaded type**, under the name the process reports for it. -/
structure RuntimeType where
  id : TypeId
  name : String
  deriving DecidableEq, Repr

/-- **A place in running code.** The code index counts code units from the start of the
method. -/
structure RuntimeLocation where
  typeId : TypeId
  declaringType : String
  methodName : String
  methodDescriptor : String
  codeIndex : UInt64
  deriving DecidableEq, Repr

def RuntimeLocation.signature (l : RuntimeLocation) : String :=
  l.methodName ++ l.methodDescriptor

/-- The process's own number for a request to report the preparation of a class. -/
structure RequestId where
  raw : Int
  deriving DecidableEq, Repr

/-- **The process prepared a class** that a request asked about. -/
structure PrepareEvent where
  request : RequestId
  type : RuntimeType
  deriving DecidableEq, Repr

inductive HostError where
  | terminated
  | notConnected
  | other (text : String)
  deriving DecidableEq, Repr

def HostError.message : HostError → String
  | .terminated => "debugged process has terminated"
  | .notConnected => "debugged process is not connected"
  | .other text => text

end DebugMap
