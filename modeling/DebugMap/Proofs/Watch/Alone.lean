import DebugMap.Proofs.Watch.Invariant

/-!
# Operations that nobody disturbs

From a move on an operation may go on to its return while nobody else takes a step: `Alone` says so
of a run. Such a run has only one shape (`Alone.cases`), takes the operation off the stack and
leaves the operations around it (`Alone.stack_eq`), and there is always one (`Takes.alone`).
-/

set_option autoImplicit false

namespace DebugMap.Watch

variable {ρ : Type}

/-- **From its move `m` on an operation goes on alone**: `t` are its other moves, with the last of
which it returns. -/
structure Alone (s : Session ρ) (m : Move ρ) (t : List (Move ρ)) (s' : Session ρ) : Prop where
  run : Run s (m :: t) s'
  only : ∀ m' ∈ t, m'.number = m.number
  gone : ∀ p ∈ s'.stack, p.number ≠ m.number

theorem Takes.below {s s' : Session ρ} {m : Move ρ} (h : Takes s m s') (hs : s.Ordered) :
    ∃ rest, s.stack = onStack m.number m.cause.frame? ++ rest ∧
      s'.stack = onStack m.number m.next.frame? ++ rest ∧ (∀ p ∈ rest, p.number < m.number) ∧
      m.number < s'.calls := by
  cases h with
  | call r stack n c => exact ⟨stack, rfl, rfl, hs.lt_calls, Nat.lt_succ_self n⟩
  | answer r stack n k f a =>
    obtain ⟨hlt, hdec⟩ := hs
    exact ⟨stack, rfl, rfl, (List.pairwise_cons.1 hdec).1, hlt _ List.mem_cons_self⟩

/-- A step by the operation that took the last one is the answer to what it waits for. -/
theorem Takes.same {s s₁ s₂ : Session ρ} {m m₁ : Move ρ} (h : Takes s m s₁) (hs : s.Ordered)
    (h₁ : Takes s₁ m₁ s₂) (hn : m₁.number = m.number) :
    ∃ f a, m.next.frame? = some f ∧ m₁ = ⟨m.number, m.op, .answer f a, m.after⟩ := by
  obtain ⟨rest, -, hst, hlt, hcalls⟩ := h.below hs
  obtain ⟨-, -, -, hr, -⟩ := h.shape
  cases h₁ with
  | call r stack n c => exact absurd hn (Nat.ne_of_gt hcalls)
  | answer r stack n k f a =>
    obtain rfl : k = m.number := hn
    obtain rfl : r = m.after := hr
    rcases hf : m.next.frame? with _ | f'
    · rw [hf] at hst
      have hst : ⟨m.number, _, f⟩ :: stack = rest := hst
      exact absurd (hlt _ (hst ▸ List.mem_cons_self)) (Nat.lt_irrefl _)
    · rw [hf] at hst
      obtain ⟨htop, -⟩ := List.cons.inj hst
      cases htop
      exact ⟨_, a, rfl, rfl⟩

section
variable {s s' : Session ρ} {m : Move ρ} {t : List (Move ρ)}

/-- **An operation alone** returns with its move, or it waits and goes on alone from its answer. -/
theorem Alone.cases (h : Alone s m t s') (hs : s.Ordered) :
    (m.next.frame? = none ∧ t = [] ∧ Takes s m s') ∨
      ∃ f a t' s₁, m.next.frame? = some f ∧ t = ⟨m.number, m.op, .answer f a, m.after⟩ :: t' ∧
        Takes s m s₁ ∧ Alone s₁ ⟨m.number, m.op, .answer f a, m.after⟩ t' s' := by
  obtain ⟨s₁, htakes, ht⟩ := run_cons_iff.1 h.run
  cases t with
  | nil =>
    obtain rfl := run_nil_iff.1 ht
    refine .inl ⟨?_, rfl, htakes⟩
    obtain ⟨rest, -, hst, -⟩ := htakes.below hs
    rcases hf : m.next.frame? with _ | f
    · rfl
    · rw [hf] at hst
      exact absurd rfl (h.gone ⟨m.number, m.op, f⟩ (hst ▸ List.mem_cons_self))
  | cons m₁ t' =>
    obtain ⟨s₂, htakes₁, -⟩ := run_cons_iff.1 ht
    obtain ⟨hn, honly⟩ := List.forall_mem_cons.1 h.only
    obtain ⟨f, a, hf, rfl⟩ := htakes.same hs htakes₁ hn
    exact .inr ⟨f, a, t', s₁, hf, rfl, htakes, ht, honly, h.gone⟩

theorem Alone.stack_eq (h : Alone s m t s') (hs : s.Ordered) :
    s.stack = onStack m.number m.cause.frame? ++ s'.stack := by
  induction t generalizing s m with
  | nil =>
    rcases h.cases hs with ⟨hf, -, htakes⟩ | ⟨_, _, _, _, _, ht, _⟩
    · obtain ⟨rest, hst, hst', -⟩ := htakes.below hs
      rw [hf] at hst'
      rw [hst, hst']
      rfl
    · cases ht
  | cons m₁ t ih =>
    rcases h.cases hs with ⟨-, ht, -⟩ | ⟨f, a, t', s₁, hf, ht, htakes, halone⟩
    · cases ht
    · cases ht
      have hst₁ := ih halone (htakes.ordered hs)
      obtain ⟨rest, hst, hst', -⟩ := htakes.below hs
      rw [hf] at hst'
      rw [hst, List.append_cancel_left (hst₁.symm.trans hst')]

theorem Alone.answers (h : Alone s m t s') (hs : s.Ordered) :
    ∀ m' ∈ t, ∃ f a r, m' = ⟨m.number, m.op, .answer f a, r⟩ := by
  induction t generalizing s m with
  | nil => simp
  | cons m₁ t ih =>
    rcases h.cases hs with ⟨-, ht, -⟩ | ⟨f, a, t', s₁, hf, ht, htakes, halone⟩
    · cases ht
    · cases ht
      have hrest := ih halone (htakes.ordered hs)
      exact List.forall_mem_cons.2 ⟨⟨f, a, m.after, rfl⟩, hrest⟩

theorem Alone.returns (h : Alone s m t s') (hs : s.Ordered) :
    ∃ result : m.op.Result, Returned (m :: t) m.number result := by
  induction t generalizing s m with
  | nil =>
    rcases h.cases hs with ⟨hf, -, -⟩ | ⟨_, _, _, _, _, ht, _⟩
    · rcases hnext : m.next with f | result
      · rw [hnext] at hf
        cases hf
      · exact ⟨result, m.cause, m.before, List.mem_cons_self, hnext⟩
    · cases ht
  | cons m₁ t ih =>
    rcases h.cases hs with ⟨-, ht, -⟩ | ⟨f, a, t', s₁, hf, ht, htakes, halone⟩
    · cases ht
    · cases ht
      obtain ⟨result, c, r, hm, hret⟩ := ih halone (htakes.ordered hs)
      exact ⟨result, c, r, List.mem_cons_of_mem _ hm, hret⟩

def Question.anyAnswer : (q : Question ρ) → q.Answer
  | .request _ => Except.ok ⟨0⟩
  | .clear _ => ()
  | .run _ _ => ()

/-- **Every operation can go on alone** to its return. -/
theorem Takes.alone {s₁ : Session ρ} (h : Takes s m s₁) (hs : s.Ordered) :
    ∃ t s', Alone s m t s' := by
  induction hsize : m.next.size using Nat.strongRecOn generalizing s m s₁ with
  | ind size ih =>
    obtain ⟨rest, -, hst, hlt, -⟩ := h.below hs
    obtain ⟨-, -, -, hr, -⟩ := h.shape
    rcases hnext : m.next with f | result
    · rw [hnext] at hst
      have hlt' : ((Cause.answer f f.question.anyAnswer).step m.after).next.size < size := by
        rw [← hsize, hnext]
        exact size_resume_lt f _ m.after
      obtain ⟨r₁, stack₁, n₁⟩ := s₁
      obtain rfl : r₁ = m.after := hr
      obtain rfl : stack₁ = _ := hst
      have htakes := Takes.answer m.after rest n₁ m.number f f.question.anyAnswer
      obtain ⟨t, s', halone⟩ := ih _ hlt' htakes (h.ordered hs) rfl
      exact ⟨_, s', .cons h halone.run, List.forall_mem_cons.2 ⟨rfl, halone.only⟩, halone.gone⟩
    · rw [hnext] at hst
      refine ⟨[], s₁, h.run, by simp, fun p hp => ?_⟩
      rw [hst] at hp
      exact Nat.ne_of_lt (hlt p hp)

end

end DebugMap.Watch
