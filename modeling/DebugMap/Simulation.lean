import DebugMap.ClassName
import DebugMap.Runtime

/-!
# A simulated process

A process without a machine behind it: classes are loaded by hand, and the events that a real
process would send when it prepares a class are handed back to be delivered at will. Once the
process is terminated, it answers nothing any more.

Requests are numbered from one, in 32 bits: a process is asked for fewer than `2 ^ 31` of them.
-/

set_option autoImplicit false

namespace DebugMap

structure LoadedClass where
  type : RuntimeType
  methods : List String
  deriving DecidableEq, Repr

/-- **The state of a simulated process.** -/
structure Simulation where
  classes : List LoadedClass := []
  lastTypeId : Nat := 0
  /-- The live requests with their classes, in the order of the ids. -/
  requests : List (RequestId × String) := []
  /-- It stays below `2 ^ 31` (module doc). -/
  lastRequestId : Int := 0
  cleared : List RequestId := []
  terminated : Bool := false
  deriving DecidableEq, Repr

namespace Simulation

/-- Loads a type. A class name is reported in binary form, any other name as it is. -/
def load (s : Simulation) (name : String) (methods : List String) : RuntimeType × Simulation :=
  let type : RuntimeType := ⟨⟨s.lastTypeId + 1⟩, (ClassName.binary? name).getD name⟩
  (type, { s with classes := s.classes ++ [⟨type, methods⟩], lastTypeId := s.lastTypeId + 1 })

def eventsFor (s : Simulation) (type : RuntimeType) : List PrepareEvent :=
  (s.requests.filter fun request => request.2 = type.name).map fun request => ⟨request.1, type⟩

def prepare (s : Simulation) (name : String) (methods : List String) :
    (RuntimeType × List PrepareEvent) × Simulation :=
  let (type, s') := s.load name methods
  ((type, s'.eventsFor type), s')

def terminate (s : Simulation) : Simulation :=
  { s with terminated := true, requests := [] }

def loadedTypes (s : Simulation) (name : String) : Except HostError (List RuntimeType) :=
  if s.terminated then .error .terminated
  else .ok ((s.classes.filter fun c => c.type.name = name).map LoadedClass.type)

def declares (s : Simulation) (type : RuntimeType) (name descriptor : String) :
    Except HostError Bool :=
  if s.terminated then .error .terminated
  else .ok (s.classes.any fun c => c.type.id = type.id && c.methods.contains (name ++ descriptor))

def request (s : Simulation) (className : String) : Except HostError RequestId × Simulation :=
  if s.terminated then (.error .terminated, s)
  else
    let id : RequestId := ⟨s.lastRequestId + 1⟩
    (.ok id,
      { s with requests := s.requests ++ [(id, className)], lastRequestId := s.lastRequestId + 1 })

/-- Withdraws a request; one that is not live is ignored. -/
def clear (s : Simulation) (id : RequestId) : Simulation :=
  if s.requests.any fun request => request.1 = id then
    { s with
      requests := s.requests.filter fun request => request.1 ≠ id
      cleared := s.cleared ++ [id] }
  else s

end Simulation

end DebugMap
