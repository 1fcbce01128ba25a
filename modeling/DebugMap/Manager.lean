import DebugMap.Query.Locations
import DebugMap.Query.SourcePosition
import DebugMap.Watch.Run

/-!
# The manager of a debug session

The settings of a session, its watches, and the hook that sees a prepared class before whoever asked
for it. A watch made for a position keeps the hook of that moment and the position, and hands both
on when it fires.
-/

set_option autoImplicit false

namespace DebugMap

/-- What is called first when a watch for a position fires: the requestor itself, or a hook of the
debugger's own, which may go on to the requestor as often as it likes. -/
inductive Hook (η : Type) where
  | forward
  | custom (hook : η)
  deriving DecidableEq, Repr

inductive Callback (η ρ : Type) where
  | plain (requestor : ρ)
  | hooked (hook : Hook η) (pos : FilePosition) (requestor : ρ)
  deriving DecidableEq, Repr

/-- A call that leaves the manager: of a requestor, or of a debugger's own hook. -/
inductive Invocation (η ρ : Type) where
  | requestor (requestor : ρ) (type : RuntimeType)
  | hook (hook : η) (type : RuntimeType) (pos : FilePosition) (requestor : ρ)
  deriving DecidableEq, Repr

/-- **What a watch that fires for a type calls.** -/
def Callback.invocation {η ρ : Type} (type : RuntimeType) : Callback η ρ → Invocation η ρ
  | .plain requestor => .requestor requestor type
  | .hooked .forward _ requestor => .requestor requestor type
  | .hooked (.custom hook) pos requestor => .hook hook type pos requestor

/-- **The state of a debug session's manager.** -/
structure Manager (η ρ : Type) where
  config : Config := {}
  hook : Hook η := .forward
  watches : Registry (Callback η ρ) := {}

namespace Manager

variable {η ρ : Type}

/-- The call that arms a watch for the class around a position, through the present hook. -/
def prepareCall (m : Manager η ρ) (store : Store) (pos : FilePosition) (requestor : ρ) :
    Except PositionError (Watch.Call (Callback η ρ) .arm) :=
  match store.classNameAt pos with
  | .error e => .error e
  | .ok name => .ok (.arm name (.hooked m.hook pos requestor))

/-- **Asks for a watch** on the class around a position. The files are read once, at the start. -/
def watchPosition {f : Type → Type} [Monad f] (m : Manager η ρ) (readStore : f Store)
    (around : Watch.Surroundings f (Callback η ρ)) (pos : FilePosition) (requestor : ρ) :
    f (Outcome WatchHandle) := do
  match m.prepareCall (← readStore) pos requestor with
  | .error e => pure (.error e)
  | .ok call => call.run around

def sourcePosition (m : Manager η ρ) (location : RuntimeLocation) :
    Query (Outcome FilePosition) :=
  Query.sourcePosition m.config location

def runtimeLocations (m : Manager η ρ) (pos : FilePosition) :
    Query (Outcome (List RuntimeLocation)) :=
  Query.runtimeLocations m.config pos

def locationsOfLine (m : Manager η ρ) (type : RuntimeType) (pos : FilePosition) :
    Query (Outcome (List RuntimeLocation)) :=
  Query.locationsForType m.config type pos

end Manager

end DebugMap
