import DebugMap.Proofs.Watch.Origin

/-!
# Operations in any surroundings

An operation that is carried out in surroundings of which nothing is known, which may answer as they
like and change anything as they do, still returns what one of its steps returns
(`Call.returns_run`). So what a registration may return can be read off its steps: `registered_run`.
-/

set_option autoImplicit false

namespace DebugMap.Watch

variable {ρ σ : Type} {op : Operation}

/-- **What a call may return:** what its first step returns, or a later one. -/
inductive Call.Returns (c : Call ρ op) (result : op.Result) : Prop where
  | start {r : Registry ρ} (next : (c.start r).next = .returns result)
  | resume {r₀ r : Registry ρ} {f : Frame ρ op} {a : f.question.Answer} (serves : f.Serves c r₀)
      (next : (f.resume a r).next = .returns result)

theorem Step.returns_run (around : Surroundings (StateM σ) ρ) {c : Call ρ op} {step : Step ρ op}
    (hreturns : ∀ result, step.next = .returns result → c.Returns result)
    (hwaits : ∀ f, step.next = .waits f → ∃ r₀, f.Serves c r₀) (x : σ) :
    c.Returns ((step.run around).run x).1 := by
  induction hsize : step.next.size using Nat.strongRecOn generalizing step x with
  | ind size ih =>
    rcases hnext : step.next with f | result
    · obtain ⟨r₀, hserves⟩ := hwaits f hnext
      obtain ⟨⟨a, y⟩, ha⟩ :
          ∃ p, (around.answer f.question).run (step.settled around x) = p := ⟨_, rfl⟩
      obtain ⟨⟨r, y'⟩, hr⟩ : ∃ p, around.registry.run y = p := ⟨_, rfl⟩
      rw [Step.run_of_waits around hnext x ha hr]
      have hlt : (f.resume a r).next.size < size := by
        rw [← hsize, hnext]
        exact size_resume_lt f a r
      refine ih _ hlt (fun result hret => .resume hserves hret) (fun f' hf' => ⟨r₀, ?_⟩) y' rfl
      exact (effect_resume f a r).serves_answer (congrArg Next.frame? hf') hserves
    · rw [Step.run_of_returns around hnext]
      exact hreturns result hnext

/-- **An operation that is carried out** returns what one of its steps returns. -/
theorem Call.returns_run (around : Surroundings (StateM σ) ρ) (c : Call ρ op) (x : σ) :
    c.Returns ((c.run around).run x).1 := by
  obtain ⟨⟨r, y⟩, hr⟩ : ∃ p, around.registry.run x = p := ⟨_, rfl⟩
  have hrun : (c.run around).run x = ((c.start r).run around).run y := by
    change ((c.start (around.registry.run x).1).run around).run (around.registry.run x).2 = _
    rw [hr]
  rw [hrun]
  refine Step.returns_run around (fun _ => .start) (fun f hf => ⟨r, ?_⟩) y
  exact (effect_start c r).serves_call (congrArg Next.frame? hf)

/-- **What a registration comes to:** a watch on the class that it names, or a failure. -/
inductive Registered (className : String) : Except PositionError WatchHandle → Prop where
  | refused (noName : ClassName.binary? className = none) :
      Registered className (.error (.noMapping (.invalidTypeName className)))
  | unavailable (e : HostError) : Registered className (.error (.hostUnavailable e))
  | watching {w : WatchHandle} (name : ClassName.binary? className = some w.className) :
      Registered className (.ok w)

theorem Call.Returns.registered {className : String} {requestor : ρ}
    {outcome : Except PositionError WatchHandle}
    (h : (Call.arm className requestor).Returns outcome) : Registered className outcome := by
  cases h with
  | @start r hnext =>
    have he := effect_start (Call.arm className requestor) r
    rw [hnext] at he
    generalize ((Call.arm className requestor).start r).registry = r' at he
    cases he with
    | refuses noName => exact .refused noName
  | @resume r₀ r f a hserves hnext =>
    have he := effect_resume f a r
    rw [hnext] at he
    generalize (f.resume a r).registry = r' at he
    cases he with
    | fails => exact .unavailable _
    | arms => exact .watching hserves.1
    | clearedDetached => exact .watching hserves
    | ranEarly => exact .watching hserves.1

/-- **A registration that is carried out** comes to one of these, whatever is done meanwhile. -/
theorem registered_run (around : Surroundings (StateM σ) ρ) (className : String) (requestor : ρ)
    (x : σ) : Registered className (((Call.arm className requestor).run around).run x).1 :=
  (Call.returns_run around _ x).registered

end DebugMap.Watch
