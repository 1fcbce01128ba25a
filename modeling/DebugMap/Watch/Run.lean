import DebugMap.Watch.Machine

/-!
# Running an operation on watches

`Surroundings` say where a monad keeps the registry and how it answers; `Call.run` then carries an
operation through. The registry is read anew after each answer, so whatever an answer did to it,
other operations included, is seen. The run ends because each answer brings the operation nearer to
its end.
-/

set_option autoImplicit false

namespace DebugMap.Watch

variable {ρ : Type} {m : Type → Type}

/-- **What an operation needs** from the monad it runs in. -/
structure Surroundings (m : Type → Type) (ρ : Type) where
  registry : m (Registry ρ)
  setRegistry : Registry ρ → m Unit
  note : WatchEvent → m Unit
  answer : (q : Question ρ) → m q.Answer

def Step.run [Monad m] {op : Operation} (around : Surroundings m ρ) (step : Step ρ op) :
    m op.Result := do
  around.setRegistry step.registry
  step.log.forM around.note
  match h : step.next with
  | .returns result => pure result
  | .waits frame => do
    let answer ← around.answer frame.question
    let registry ← around.registry
    have : (frame.resume answer registry).next.size < step.next.size := by
      rw [h]
      exact size_resume_lt frame answer registry
    (frame.resume answer registry).run around
termination_by step.next.size

/-- **Carries out an operation.** -/
def Call.run [Monad m] {op : Operation} (around : Surroundings m ρ) (call : Call ρ op) :
    m op.Result := do
  (call.start (← around.registry)).run around

end DebugMap.Watch
