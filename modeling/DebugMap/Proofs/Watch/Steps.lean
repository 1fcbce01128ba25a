import DebugMap.Proofs.Watch.Session
import DebugMap.Proofs.Watch.Slots

/-!
# What a step can do

Every step of an operation, with all it does to the registry and how the operation goes on. `Ends`
says it of the loops over a list of watches, `Effect` of all steps, and `effect_step` is the
inversion from which everything that holds of runs is derived: nothing else needs to unfold an
operation.
-/

set_option autoImplicit false

namespace DebugMap.Watch

variable {ρ : Type}

/-! ## The loops over lists of watches -/

/-- **Ending watches from a list:** the first watch of the list that is armed is ended and the
operation waits; when there is none, the operation is over. -/
inductive Ends {op : Operation} (x : Slot ρ)
    (wait : WatchHandle → ρ → List WatchHandle → Frame ρ op) (result : op.Result)
    (ws : List WatchHandle) (r : Registry ρ) : Registry ρ → Next ρ op → Prop where
  | done (idle : ∀ w ∈ ws, r.state? w.id ≠ some .armed) : Ends x wait result ws r r (.returns result)
  | next {skipped rest : List WatchHandle} {w : WatchHandle} {requestor : ρ}
      (split : ws = skipped ++ w :: rest) (idle : ∀ v ∈ skipped, r.state? v.id ≠ some .armed)
      (armed : r.slot? w.id = some (.armed requestor)) :
      Ends x wait result ws r (r.setSlot w.id x) (.waits (wait w requestor rest))

/-- A dispatch fires watches and clears their requests. -/
abbrev Fires (type : RuntimeType) (fired : Nat) :
    List WatchHandle → Registry ρ → Registry ρ → Next ρ .dispatch → Prop :=
  Ends .fired (fun w requestor rest => .clearingFired w requestor type rest fired) fired

abbrev Drains (cancelled : Nat) :
    List WatchHandle → Registry ρ → Registry ρ → Next ρ .detach → Prop :=
  Ends .cancelled (fun w _ rest => .clearingDrained w rest cancelled) cancelled

theorem ends_of_loop {op : Operation} {x : Slot ρ}
    {wait : WatchHandle → ρ → List WatchHandle → Frame ρ op} {result : op.Result}
    {loop : List WatchHandle → Registry ρ → Step ρ op}
    (nil : ∀ r, loop [] r = { registry := r, next := .returns result })
    (cons : ∀ w rest r, loop (w :: rest) r =
      match r.retire w.id x with
      | none => loop rest r
      | some (requestor, r') => { registry := r', next := .waits (wait w requestor rest) })
    (ws : List WatchHandle) (r : Registry ρ) :
    Ends x wait result ws r (loop ws r).registry (loop ws r).next := by
  induction ws with
  | nil =>
    rw [nil]
    exact .done (by simp)
  | cons w rest ih =>
    rw [cons]
    split
    · rename_i hw
      rw [Registry.retire_eq_none] at hw
      generalize (loop rest r).registry = r', (loop rest r).next = n at ih
      cases ih with
      | done idle => exact .done (List.forall_mem_cons.2 ⟨hw, idle⟩)
      | @next skipped rest' w' _ hs idle armed =>
        have hsplit : w :: rest = (w :: skipped) ++ w' :: rest' := by rw [hs, List.cons_append]
        exact .next hsplit (List.forall_mem_cons.2 ⟨hw, idle⟩) armed
    · rename_i requestor r' hw
      obtain ⟨hslot, rfl⟩ := Registry.retire_eq_some.1 hw
      exact .next (List.nil_append _).symm (by simp) hslot

theorem fires_fireNext (type : RuntimeType) (fired : Nat) (ws : List WatchHandle)
    (r : Registry ρ) :
    Fires type fired ws r (fireNext type fired ws r).registry (fireNext type fired ws r).next :=
  ends_of_loop (fun _ => rfl) (fun _ _ _ => rfl) ws r

theorem drains_drainNext (cancelled : Nat) (ws : List WatchHandle) (r : Registry ρ) :
    Drains cancelled ws r (drainNext cancelled ws r).registry (drainNext cancelled ws r).next :=
  ends_of_loop (fun _ => rfl) (fun _ _ _ => rfl) ws r

namespace Ends

variable {op : Operation} {x : Slot ρ} {wait : WatchHandle → ρ → List WatchHandle → Frame ρ op}
  {result : op.Result} {ws : List WatchHandle} {r r' : Registry ρ} {next : Next ρ op}

theorem frame_eq (h : Ends x wait result ws r r' next) {f : Frame ρ op}
    (hf : next.frame? = some f) : ∃ w requestor rest, f = wait w requestor rest ∧
      (∀ v ∈ w :: rest, v ∈ ws) ∧ r.slot? w.id = some (.armed requestor) := by
  cases h with
  | done _ => cases hf
  | next split _ armed =>
    cases hf
    exact ⟨_, _, _, rfl, fun v hv => split ▸ List.mem_append_right _ hv, armed⟩

theorem armed_eq (h : Ends x wait result ws r r' next) : r'.armed = r.armed := by
  cases h <;> rfl

theorem slot?_eq (h : Ends x wait result ws r r' next) {w : WatchHandle}
    (hw : ∀ v ∈ ws, v.id ≠ w.id) : r'.slot? w.id = r.slot? w.id := by
  cases h with
  | done _ => rfl
  | next split _ _ =>
    have hne := hw _ (split ▸ List.mem_append_right _ List.mem_cons_self)
    rw [Registry.slot?_setSlot, if_neg (Ne.symm hne)]

end Ends

/-! ## Held events -/

/-- **The event taken** is the first of the held ones that the watch waits for; another one moves
into its place. -/
theorem takeHeld_eq_some {r r' : Registry ρ} {w : WatchHandle} {event : PrepareEvent}
    (h : r.takeHeld w = some (event, r')) :
    ∃ i, r.held.findIdx? (fun e => w.awaits e) = some i ∧ r.held[i]? = some event ∧
      r' = { r with held := swapRemove r.held i } := by
  unfold Registry.takeHeld at h
  obtain ⟨i, hi, h⟩ := Option.bind_eq_some_iff.1 h
  obtain ⟨e, he, h⟩ := Option.map_eq_some_iff.1 h
  obtain ⟨rfl, rfl⟩ := Prod.mk.inj h
  exact ⟨i, hi, he, rfl⟩

def made (r : Registry ρ) (className : String) (request : RequestId) : WatchHandle :=
  ⟨⟨r.nextId⟩, className, request⟩

/-! ## All steps -/

/-- **The effect of a step** in a registry: the registry after it and how the operation goes on. -/
inductive Effect (r : Registry ρ) :
    {op : Operation} → Cause ρ op → Registry ρ → Next ρ op → Prop where
  | refuses {className : String} {requestor : ρ}
      (noName : ClassName.binary? className = none) :
      Effect r (.call (.arm className requestor)) r
        (.returns (.error (.noMapping (.invalidTypeName className))))
  | asks {className name : String} {requestor : ρ}
      (binary : ClassName.binary? className = some name) :
      Effect r (.call (.arm className requestor)) { r with inFlight := r.inFlight + 1 }
        (.waits (.requesting name requestor r.detachEpoch))
  | cancels {id : WatchId} {w : WatchHandle} {requestor : ρ} (handle : r.handle? id = some w)
      (armed : r.slot? id = some (.armed requestor)) :
      Effect r (.call (.cancel id)) ((r.setSlot id .cancelled).disarm id)
        (.waits (.clearingCancelled w))
  | leaves {id : WatchId} (idle : r.state? id ≠ some .armed) :
      Effect r (.call (.cancel id)) r (.returns false)
  | holds {event : PrepareEvent} (unmatched : r.awaiting event = []) (pending : 0 < r.inFlight) :
      Effect r (.call (.dispatch event)) { r with held := r.held ++ [event] } (.returns 0)
  | drops {event : PrepareEvent} (unmatched : r.awaiting event = []) (idle : r.inFlight = 0) :
      Effect r (.call (.dispatch event)) r (.returns 0)
  | offers {event : PrepareEvent} {r' : Registry ρ} {next : Next ρ .dispatch}
      (matched : r.awaiting event ≠ [])
      (fires : Fires event.type 0 (r.awaiting event)
        { r with armed := r.armed.filter fun w => !w.awaits event } r' next) :
      Effect r (.call (.dispatch event)) r' next
  | detaches {r' : Registry ρ} {next : Next ρ .detach}
      (drains : Drains 0 r.armed
        { r with detachEpoch := r.detachEpoch + 1, held := [], armed := [] } r' next) :
      Effect r (.call .detach) r' next
  | fails {className : String} {requestor : ρ} {epoch : Nat} {e : HostError} :
      Effect r (.answer (.requesting className requestor epoch) (Except.error e))
        r.finishRegistration (.returns (.error (.hostUnavailable e)))
  | overtaken {className : String} {requestor : ρ} {epoch : Nat} {request : RequestId}
      (detached : r.detachEpoch ≠ epoch) :
      Effect r (.answer (.requesting className requestor epoch) (Except.ok request))
        (r.addWatch (made r className request) .cancelled).finishRegistration
        (.waits (.clearingDetached (made r className request)))
  | catches {className : String} {requestor : ρ} {epoch : Nat} {request : RequestId}
      {event : PrepareEvent} {held : List PrepareEvent} (attached : r.detachEpoch = epoch)
      (took : r.takeHeld (made r className request) = some (event, { r with held })) :
      Effect r (.answer (.requesting className requestor epoch) (Except.ok request))
        (({ r with held } : Registry ρ).addWatch (made r className request)
          .fired).finishRegistration
        (.waits (.clearingEarly (made r className request) requestor event.type))
  | arms {className : String} {requestor : ρ} {epoch : Nat} {request : RequestId}
      (attached : r.detachEpoch = epoch) (unclaimed : r.takeHeld (made r className request) = none) :
      Effect r (.answer (.requesting className requestor epoch) (Except.ok request))
        ({ r.addWatch (made r className request) (.armed requestor) with
          armed := r.armed ++ [made r className request] } : Registry ρ).finishRegistration
        (.returns (.ok (made r className request)))
  | clearedDetached {w : WatchHandle} {a : Unit} :
      Effect r (.answer (.clearingDetached w) a) r (.returns (.ok w))
  | clearedEarly {w : WatchHandle} {requestor : ρ} {type : RuntimeType} {a : Unit} :
      Effect r (.answer (.clearingEarly w requestor type) a) r
        (.waits (.runningEarly w requestor type))
  | ranEarly {w : WatchHandle} {requestor : ρ} {type : RuntimeType} {a : Unit} :
      Effect r (.answer (.runningEarly w requestor type) a) r (.returns (.ok w))
  | clearedCancelled {w : WatchHandle} {a : Unit} :
      Effect r (.answer (.clearingCancelled w) a) r (.returns true)
  | clearedFired {w : WatchHandle} {requestor : ρ} {type : RuntimeType} {rest : List WatchHandle}
      {fired : Nat} {a : Unit} :
      Effect r (.answer (.clearingFired w requestor type rest fired) a) r
        (.waits (.runningFired w requestor type rest fired))
  | ranFired {w : WatchHandle} {requestor : ρ} {type : RuntimeType} {rest : List WatchHandle}
      {fired : Nat} {a : Unit} {r' : Registry ρ} {next : Next ρ .dispatch}
      (fires : Fires type (fired + 1) rest r r' next) :
      Effect r (.answer (.runningFired w requestor type rest fired) a) r' next
  | clearedDrained {w : WatchHandle} {rest : List WatchHandle} {cancelled : Nat} {a : Unit}
      {r' : Registry ρ} {next : Next ρ .detach} (drains : Drains (cancelled + 1) rest r r' next) :
      Effect r (.answer (.clearingDrained w rest cancelled) a) r' next

theorem effect_settle (className : String) (requestor : ρ) (epoch : Nat) (request : RequestId)
    (r : Registry ρ) :
    Effect r (.answer (.requesting className requestor epoch) (Except.ok request))
      (settle className requestor epoch request r).registry
      (settle className requestor epoch request r).next := by
  unfold settle
  dsimp only
  split
  · rename_i hepoch
    split
    · rename_i event r' htook
      obtain ⟨i, -, -, rfl⟩ := takeHeld_eq_some htook
      exact .catches hepoch htook
    · rename_i hnone
      exact .arms hepoch hnone
  · rename_i hepoch
    exact .overtaken hepoch

theorem effect_start {op : Operation} (c : Call ρ op) (r : Registry ρ) :
    Effect r (.call c) (c.start r).registry (c.start r).next := by
  cases c with
  | arm className requestor =>
    rw [Call.start]
    split
    · exact .refuses ‹_›
    · exact .asks ‹_›
  | cancel id =>
    rw [Call.start]
    split
    · rename_i w requestor r' hhandle hretire
      obtain ⟨harmed, rfl⟩ := Registry.retire_eq_some.1 hretire
      exact .cancels hhandle harmed
    · rename_i hnot
      refine .leaves fun harmed => ?_
      obtain ⟨w, hw⟩ := Registry.handle?_isSome_of_state? harmed
      obtain ⟨requestor, hslot⟩ := Registry.state?_eq_armed.1 harmed
      exact hnot w requestor _ hw (Registry.retire_eq_some.2 ⟨hslot, rfl⟩)
  | dispatch event =>
    rw [Call.start]
    split
    · rename_i hnone
      split
      · exact .holds hnone ‹_›
      · exact .drops hnone (by omega)
    · rename_i w rest hsome
      refine .offers (by simp [hsome]) ?_
      rw [hsome]
      exact fires_fireNext ..
  | detach =>
    rw [Call.start]
    exact .detaches (drains_drainNext ..)

theorem effect_resume {op : Operation} (f : Frame ρ op) (a : f.question.Answer) (r : Registry ρ) :
    Effect r (.answer f a) (f.resume a r).registry (f.resume a r).next := by
  cases f with
  | requesting className requestor epoch =>
    rcases a with e | request
    · exact .fails
    · exact effect_settle ..
  | clearingDetached w => exact .clearedDetached
  | clearingEarly w requestor type => exact .clearedEarly
  | runningEarly w requestor type => exact .ranEarly
  | clearingCancelled w => exact .clearedCancelled
  | clearingFired w requestor type rest fired => exact .clearedFired
  | runningFired w requestor type rest fired => exact .ranFired (fires_fireNext ..)
  | clearingDrained w rest cancelled => exact .clearedDrained (drains_drainNext ..)

/-- **A step has one of the effects listed.** -/
theorem effect_step {op : Operation} (c : Cause ρ op) (r : Registry ρ) :
    Effect r c (c.step r).registry (c.step r).next := by
  cases c with
  | call c => exact effect_start c r
  | answer f a => exact effect_resume f a r

end DebugMap.Watch
