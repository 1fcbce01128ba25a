import DebugMap.Error
import DebugMap.Log
import DebugMap.Text.Quoted

/-!
# Watches

A watch waits for the process to prepare a class. It is armed until the first matching event fires
it or somebody cancels it, and then stays as it is. The `Registry` holds every watch ever made,
which of them are armed, and the events that came in before a pending registration knew its request.
-/

set_option autoImplicit false

namespace DebugMap

structure WatchId where
  raw : Nat
  deriving DecidableEq, Repr

def WatchId.text (w : WatchId) : String :=
  "watch#" ++ toString w.raw

inductive WatchState where
  | armed
  | fired
  | cancelled
  deriving DecidableEq, Repr

def WatchState.text : WatchState → String
  | .armed => "Armed"
  | .fired => "Fired"
  | .cancelled => "Cancelled"

/-- What a caller knows of a watch: it never changes. The class is named by its binary name. -/
structure WatchHandle where
  id : WatchId
  className : String
  request : RequestId
  deriving DecidableEq, Repr

def WatchHandle.describe (w : WatchHandle) (state : WatchState) : String :=
  "WatchHandle \x7b id: WatchId(" ++ toString w.id.raw ++ "), class_name: " ++
    Text.quoted w.className ++ ", request_id: ClassPrepareRequestId(" ++
    toString w.request.raw ++ "), state: " ++ state.text ++ " \x7d"

/-- Whether an event is the one a watch waits for: it answers the watch's request, and the prepared
type is of the watched class. -/
def WatchHandle.awaits (w : WatchHandle) (event : PrepareEvent) : Bool :=
  w.request = event.request && ClassName.sameClass event.type.name w.className

/-- The state of a watch; while armed it holds the requestor that is to run. -/
inductive Slot (ρ : Type) where
  | armed (requestor : ρ)
  | fired
  | cancelled
  deriving DecidableEq, Repr

def Slot.state {ρ : Type} : Slot ρ → WatchState
  | .armed _ => .armed
  | .fired => .fired
  | .cancelled => .cancelled

inductive WatchEvent where
  | armed (watch : WatchHandle)
  | fired (watch : WatchHandle)
  | cancelled (watch : WatchHandle)
  | firedWhileArming (watch : WatchHandle)
  | cancelledWhileArming (watch : WatchHandle)
  | held (event : PrepareEvent)
  | unmatched (event : PrepareEvent)
  deriving DecidableEq, Repr

namespace WatchEvent

def watchFields (w : WatchHandle) : List (String × LogValue) :=
  [("watch", .text w.id.text), ("class", .text w.className)]

def eventFields (e : PrepareEvent) : List (String × LogValue) :=
  [("request", .number e.request.raw), ("class", .text e.type.name)]

def record : WatchEvent → LogRecord
  | armed w =>
    ⟨.trace, "armed class-prepare watch", watchFields w ++ [("request", .number w.request.raw)]⟩
  | fired w => ⟨.trace, "class-prepare watch fired", watchFields w⟩
  | cancelled w => ⟨.trace, "cancelled class-prepare watch", watchFields w⟩
  | firedWhileArming w => ⟨.trace, "class prepared while arming; watch fired", watchFields w⟩
  | cancelledWhileArming w =>
    ⟨.trace, "process detached while arming; watch cancelled", watchFields w⟩
  | held e => ⟨.trace, "holding class-prepare event for a pending registration", eventFields e⟩
  | unmatched e => ⟨.debug, "class-prepare event matches no armed watch", eventFields e⟩

end WatchEvent

def swapRemove {α : Type} (xs : List α) (i : Nat) : List α :=
  match xs.getLast? with
  | some last => xs.dropLast.set i last
  | none => []

/-- **The watches of a session.** -/
structure Registry (ρ : Type) where
  /-- Every watch made so far, in the order of the ids. -/
  slots : List (WatchHandle × Slot ρ) := []
  /-- The watches an event can fire, in the order of the ids. -/
  armed : List WatchHandle := []
  nextId : Nat := 1
  inFlight : Nat := 0
  /-- Events that matched no armed watch while a registration was in flight. -/
  held : List PrepareEvent := []
  /-- Counts the detachments, so that a registration can tell whether one happened meanwhile. -/
  detachEpoch : Nat := 0
  deriving DecidableEq, Repr

namespace Registry

variable {ρ : Type}

def armedCount (r : Registry ρ) : Nat :=
  r.armed.length

def slot? (r : Registry ρ) (id : WatchId) : Option (Slot ρ) :=
  (r.slots.find? fun entry => entry.1.id = id).map Prod.snd

def handle? (r : Registry ρ) (id : WatchId) : Option WatchHandle :=
  (r.slots.find? fun entry => entry.1.id = id).map Prod.fst

def state? (r : Registry ρ) (id : WatchId) : Option WatchState :=
  (r.slot? id).map Slot.state

def setSlot (r : Registry ρ) (id : WatchId) (slot : Slot ρ) : Registry ρ :=
  { r with slots := r.slots.map fun entry => if entry.1.id = id then (entry.1, slot) else entry }

/-- **Ends an armed watch** and gives its requestor back; a watch that has ended is left alone. -/
def retire (r : Registry ρ) (id : WatchId) (terminal : Slot ρ) : Option (ρ × Registry ρ) :=
  match r.slot? id with
  | some (.armed requestor) => some (requestor, r.setSlot id terminal)
  | _ => none

def disarm (r : Registry ρ) (id : WatchId) : Registry ρ :=
  { r with armed := r.armed.filter fun w => w.id ≠ id }

def awaiting (r : Registry ρ) (event : PrepareEvent) : List WatchHandle :=
  r.armed.filter fun w => w.awaits event

def takeHeld (r : Registry ρ) (w : WatchHandle) : Option (PrepareEvent × Registry ρ) :=
  (r.held.findIdx? fun event => w.awaits event).bind fun i =>
    r.held[i]?.map fun event => (event, { r with held := swapRemove r.held i })

def addWatch (r : Registry ρ) (w : WatchHandle) (slot : Slot ρ) : Registry ρ :=
  { r with slots := r.slots ++ [(w, slot)], nextId := r.nextId + 1 }

/-- One registration less is in flight. After the last one nobody is left to take a held event. -/
def finishRegistration (r : Registry ρ) : Registry ρ :=
  { r with
    inFlight := r.inFlight - 1
    held := if r.inFlight - 1 = 0 then [] else r.held }

end Registry

end DebugMap
