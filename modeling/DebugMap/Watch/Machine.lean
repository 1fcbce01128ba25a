import DebugMap.Watch.Basic

/-!
# Operations on watches, step by step

Four operations change the registry: arming a watch, cancelling one, dispatching an event and
detaching. Between two changes an operation may wait for the process or for a requestor, and while
it waits any other operation may run. So an operation is a machine: `Call.start` and `Frame.resume`
each make one change to the registry and then either return or wait in a `Frame`, which says what
the operation waits for and all that it remembers. Main statement: `size_resume_lt` (each answer
brings an operation nearer to its end, so every operation returns after finitely many questions).
-/

set_option autoImplicit false

namespace DebugMap.Watch

variable {ρ : Type}

inductive Operation where
  | arm
  | cancel
  | dispatch
  | detach
  deriving DecidableEq, Repr

/-- **What an operation returns:** the new watch's handle, whether a watch was cancelled, how many
requestors ran, how many watches were cancelled. -/
abbrev Operation.Result : Operation → Type
  | .arm => Except PositionError WatchHandle
  | .cancel => Bool
  | .dispatch => Nat
  | .detach => Nat

/-- An operation with its arguments. The class to watch may have any spelling. -/
inductive Call (ρ : Type) : Operation → Type where
  | arm (className : String) (requestor : ρ) : Call ρ .arm
  | cancel (watch : WatchId) : Call ρ .cancel
  | dispatch (event : PrepareEvent) : Call ρ .dispatch
  | detach : Call ρ .detach

inductive Question (ρ : Type) where
  | request (className : String)
  | clear (request : RequestId)
  | run (requestor : ρ) (type : RuntimeType)
  deriving DecidableEq, Repr

abbrev Question.Answer : Question ρ → Type
  | .request _ => Except HostError RequestId
  | .clear _ => Unit
  | .run _ _ => Unit

/-- **An operation that waits.** -/
inductive Frame (ρ : Type) : Operation → Type where
  /-- A registration waits for its request; `epoch` is that of its beginning. -/
  | requesting (className : String) (requestor : ρ) (epoch : Nat) : Frame ρ .arm
  /-- A registration was overtaken by a detachment and clears its request. -/
  | clearingDetached (watch : WatchHandle) : Frame ρ .arm
  /-- A registration took a held event and clears its request. -/
  | clearingEarly (watch : WatchHandle) (requestor : ρ) (type : RuntimeType) : Frame ρ .arm
  | runningEarly (watch : WatchHandle) (requestor : ρ) (type : RuntimeType) : Frame ρ .arm
  | clearingCancelled (watch : WatchHandle) : Frame ρ .cancel
  /-- A fired watch's request is cleared; `rest` is still to be fired. -/
  | clearingFired (watch : WatchHandle) (requestor : ρ) (type : RuntimeType)
      (rest : List WatchHandle) (fired : Nat) : Frame ρ .dispatch
  | runningFired (watch : WatchHandle) (requestor : ρ) (type : RuntimeType)
      (rest : List WatchHandle) (fired : Nat) : Frame ρ .dispatch
  /-- The request of a watch that a detachment cancelled is cleared; `rest` is still to be
  cancelled. -/
  | clearingDrained (watch : WatchHandle) (rest : List WatchHandle) (cancelled : Nat) :
      Frame ρ .detach
  deriving Repr

def Frame.question {op : Operation} : Frame ρ op → Question ρ
  | .requesting className _ _ => .request className
  | .clearingDetached watch => .clear watch.request
  | .clearingEarly watch _ _ => .clear watch.request
  | .runningEarly _ requestor type => .run requestor type
  | .clearingCancelled watch => .clear watch.request
  | .clearingFired watch _ _ _ _ => .clear watch.request
  | .runningFired _ requestor type _ _ => .run requestor type
  | .clearingDrained watch _ _ => .clear watch.request

inductive Next (ρ : Type) (op : Operation) where
  | waits (frame : Frame ρ op)
  | returns (result : op.Result)

/-- **One step** of an operation: the registry after it, what the log is told, and how the
operation goes on. -/
structure Step (ρ : Type) (op : Operation) where
  registry : Registry ρ
  log : List WatchEvent := []
  next : Next ρ op

/-- Fires the first watch of a list that is still armed. -/
def fireNext (type : RuntimeType) (fired : Nat) :
    List WatchHandle → Registry ρ → Step ρ .dispatch
  | [], r => { registry := r, next := .returns fired }
  | w :: rest, r =>
    match r.retire w.id .fired with
    | none => fireNext type fired rest r
    | some (requestor, r') =>
      { registry := r', next := .waits (.clearingFired w requestor type rest fired) }

def drainNext (cancelled : Nat) : List WatchHandle → Registry ρ → Step ρ .detach
  | [], r => { registry := r, next := .returns cancelled }
  | w :: rest, r =>
    match r.retire w.id .cancelled with
    | none => drainNext cancelled rest r
    | some (_, r') => { registry := r', next := .waits (.clearingDrained w rest cancelled) }

/-- Ends a registration whose request the process has named: the watch is cancelled if a detachment
came in between, fired if an event it waits for is held, and armed otherwise. -/
def settle (className : String) (requestor : ρ) (epoch : Nat) (request : RequestId)
    (r : Registry ρ) : Step ρ .arm :=
  let w : WatchHandle := ⟨⟨r.nextId⟩, className, request⟩
  if r.detachEpoch = epoch then
    match r.takeHeld w with
    | some (event, r') =>
      { registry := (r'.addWatch w .fired).finishRegistration
        next := .waits (.clearingEarly w requestor event.type) }
    | none =>
      let added := r.addWatch w (.armed requestor)
      { registry := { added with armed := added.armed ++ [w] }.finishRegistration
        log := [.armed w]
        next := .returns (.ok w) }
  else
    { registry := (r.addWatch w .cancelled).finishRegistration
      next := .waits (.clearingDetached w) }

/-- **The first step** of an operation. -/
def Call.start {op : Operation} : Call ρ op → Registry ρ → Step ρ op
  | .arm className requestor, r =>
    match ClassName.binary? className with
    | none =>
      { registry := r
        next := .returns (.error (.noMapping (.invalidTypeName className))) }
    | some name =>
      { registry := { r with inFlight := r.inFlight + 1 }
        next := .waits (.requesting name requestor r.detachEpoch) }
  | .cancel id, r =>
    match r.handle? id, r.retire id .cancelled with
    | some w, some (_, r') => { registry := r'.disarm id, next := .waits (.clearingCancelled w) }
    | _, _ => { registry := r, next := .returns false }
  | .dispatch event, r =>
    match r.awaiting event with
    | [] =>
      if r.inFlight > 0 then
        { registry := { r with held := r.held ++ [event] }
          log := [.held event]
          next := .returns 0 }
      else { registry := r, log := [.unmatched event], next := .returns 0 }
    | w :: rest =>
      fireNext event.type 0 (w :: rest)
        { r with armed := r.armed.filter fun x => !x.awaits event }
  | .detach, r =>
    drainNext 0 r.armed { r with detachEpoch := r.detachEpoch + 1, held := [], armed := [] }

/-- **The next step** of an operation that has its answer. -/
def Frame.resume {op : Operation} : (frame : Frame ρ op) → frame.question.Answer → Registry ρ →
    Step ρ op
  | .requesting className requestor epoch, answer, r =>
    match answer with
    | Except.error e =>
      { registry := r.finishRegistration, next := .returns (.error (.hostUnavailable e)) }
    | Except.ok request => settle className requestor epoch request r
  | .clearingDetached w, _, r =>
    { registry := r, log := [.cancelledWhileArming w], next := .returns (.ok w) }
  | .clearingEarly w requestor type, _, r =>
    { registry := r
      log := [.firedWhileArming w]
      next := .waits (.runningEarly w requestor type) }
  | .runningEarly w _ _, _, r => { registry := r, next := .returns (.ok w) }
  | .clearingCancelled w, _, r => { registry := r, log := [.cancelled w], next := .returns true }
  | .clearingFired w requestor type rest fired, _, r =>
    { registry := r
      log := [.fired w]
      next := .waits (.runningFired w requestor type rest fired) }
  | .runningFired _ _ type rest fired, _, r => fireNext type (fired + 1) rest r
  | .clearingDrained _ rest cancelled, _, r => drainNext (cancelled + 1) rest r

/-- A bound on the number of questions before a waiting operation returns. -/
def Frame.size {op : Operation} : Frame ρ op → Nat
  | .requesting .. => 3
  | .clearingDetached .. => 1
  | .clearingEarly .. => 2
  | .runningEarly .. => 1
  | .clearingCancelled .. => 1
  | .clearingFired _ _ _ rest _ => 2 * rest.length + 2
  | .runningFired _ _ _ rest _ => 2 * rest.length + 1
  | .clearingDrained _ rest _ => rest.length + 1

def Next.size {op : Operation} : Next ρ op → Nat
  | .waits frame => frame.size
  | .returns _ => 0

theorem size_fireNext_le (type : RuntimeType) (fired : Nat) (ws : List WatchHandle)
    (r : Registry ρ) : (fireNext type fired ws r).next.size ≤ 2 * ws.length := by
  induction ws generalizing r with
  | nil => simp [fireNext, Next.size]
  | cons w rest ih =>
    rw [fireNext]
    split
    · have := ih r
      simp only [List.length_cons]
      omega
    · simp only [Next.size, Frame.size, List.length_cons]
      omega

theorem size_drainNext_le (cancelled : Nat) (ws : List WatchHandle) (r : Registry ρ) :
    (drainNext cancelled ws r).next.size ≤ ws.length := by
  induction ws generalizing r with
  | nil => simp [drainNext, Next.size]
  | cons w rest ih =>
    rw [drainNext]
    split
    · have := ih r
      simp only [List.length_cons]
      omega
    · simp only [Next.size, Frame.size, List.length_cons]
      omega

theorem size_settle_le (className : String) (requestor : ρ) (epoch : Nat) (request : RequestId)
    (r : Registry ρ) : (settle className requestor epoch request r).next.size ≤ 2 := by
  unfold settle
  dsimp only
  split
  · split <;> simp [Next.size, Frame.size]
  · simp [Next.size, Frame.size]

/-- **Each answer brings an operation nearer to its end.** -/
theorem size_resume_lt {op : Operation} (frame : Frame ρ op) (answer : frame.question.Answer)
    (r : Registry ρ) : (frame.resume answer r).next.size < frame.size := by
  cases frame with
  | requesting className requestor epoch =>
    simp only [Frame.resume, Frame.size]
    split
    · simp [Next.size]
    · exact Nat.lt_succ_of_le (size_settle_le ..)
  | runningFired w requestor type rest fired =>
    have := size_fireNext_le type (fired + 1) rest r
    simp only [Frame.resume, Frame.size]
    omega
  | clearingDrained w rest cancelled =>
    have := size_drainNext_le (cancelled + 1) rest r
    simp only [Frame.resume, Frame.size]
    omega
  | clearingFired => simp [Frame.resume, Frame.size, Next.size]
  | clearingDetached => simp [Frame.resume, Frame.size, Next.size]
  | clearingEarly => simp [Frame.resume, Frame.size, Next.size]
  | runningEarly => simp [Frame.resume, Frame.size, Next.size]
  | clearingCancelled => simp [Frame.resume, Frame.size, Next.size]

end DebugMap.Watch
