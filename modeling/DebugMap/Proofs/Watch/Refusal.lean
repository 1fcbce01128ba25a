import DebugMap.Proofs.Watch.Delivery
import Mathlib.Data.List.Forall2

/-!
# Registrations that fail

While a registration waits for its request, events that no watch awaits are held for it. If the
process refuses the request in the end, nothing of that may be left. `Shadow` relates the registry
with the doomed registration in flight to the one that would have come about without it: they differ
in the number of registrations in flight and in what is held while there is no other. Every step of
another operation keeps the relation and goes on in the same way in both (`Shadow.step`), so a run
has its counterpart without the registration (`Beside.run`), and the refusal makes the two
registries equal (`Shadow.finish`).

Main statement: `failed_registration`.
-/

set_option autoImplicit false

namespace DebugMap.Watch

variable {ρ : Type}

/-! ## A registration more in flight -/

/-- **In the second registry one registration more is in flight** than in the first. It holds the
same events, unless that registration is the only one: then the first holds nothing. -/
structure Shadow (r r₁ : Registry ρ) : Prop where
  slots : r₁.slots = r.slots
  armed : r₁.armed = r.armed
  nextId : r₁.nextId = r.nextId
  detachEpoch : r₁.detachEpoch = r.detachEpoch
  inFlight : r₁.inFlight = r.inFlight + 1
  only : r.inFlight = 0 → r.held = []
  held : 0 < r.inFlight → r₁.held = r.held

namespace Shadow

variable {r r₁ : Registry ρ}

/-- **Without the registration** the registries are the same. -/
theorem finish (h : Shadow r r₁) : r₁.finishRegistration = r := by
  obtain ⟨slots, armed, nextId, inFlight, held, epoch⟩ := r
  obtain ⟨slots₁, armed₁, nextId₁, inFlight₁, held₁, epoch₁⟩ := r₁
  obtain ⟨hslots, harmed, hnext, hepoch, hin, honly, hheld⟩ := h
  dsimp only at hslots harmed hnext hepoch hin honly hheld
  subst hslots harmed hnext hepoch hin
  unfold Registry.finishRegistration
  dsimp only
  rw [Nat.add_sub_cancel]
  rcases Nat.eq_zero_or_pos inFlight with hzero | hpos
  · rw [if_pos hzero, honly hzero]
  · rw [if_neg (Nat.ne_of_gt hpos), hheld hpos]

theorem setSlot (h : Shadow r r₁) (id : WatchId) (x : Slot ρ) :
    Shadow (r.setSlot id x) (r₁.setSlot id x) :=
  { h with slots := by unfold Registry.setSlot; rw [h.slots] }

theorem disarm (h : Shadow r r₁) (id : WatchId) : Shadow (r.disarm id) (r₁.disarm id) :=
  { h with armed := by unfold Registry.disarm; rw [h.armed] }

theorem retire (h : Shadow r r₁) (id : WatchId) (x : Slot ρ) :
    r₁.retire id x = (r.retire id x).map fun retired => (retired.1, r₁.setSlot id x) := by
  unfold Registry.retire
  rw [Registry.slot?_congr h.slots]
  rcases r.slot? id with _ | (requestor | _ | _) <;> rfl

theorem loop {op : Operation} {x : Slot ρ} {wait : WatchHandle → ρ → List WatchHandle → Frame ρ op}
    {result : op.Result} {loop : List WatchHandle → Registry ρ → Step ρ op}
    (nil : ∀ r, loop [] r = { registry := r, next := .returns result })
    (cons : ∀ w rest r, loop (w :: rest) r =
      match r.retire w.id x with
      | none => loop rest r
      | some (requestor, r') => { registry := r', next := .waits (wait w requestor rest) })
    (h : Shadow r r₁) (ws : List WatchHandle) :
    (loop ws r₁).next = (loop ws r).next ∧ Shadow (loop ws r).registry (loop ws r₁).registry := by
  induction ws with
  | nil =>
    rw [nil, nil]
    exact ⟨rfl, h⟩
  | cons w rest ih =>
    rw [cons, cons, h.retire]
    rcases hretire : r.retire w.id x with _ | ⟨requestor, r'⟩
    · exact ih
    · obtain ⟨-, rfl⟩ := Registry.retire_eq_some.1 hretire
      exact ⟨rfl, h.setSlot w.id x⟩

theorem fireNext (h : Shadow r r₁) (type : RuntimeType) (fired : Nat) (ws : List WatchHandle) :
    (fireNext type fired ws r₁).next = (fireNext type fired ws r).next ∧
      Shadow (Watch.fireNext type fired ws r).registry
        (Watch.fireNext type fired ws r₁).registry :=
  h.loop (fun _ => rfl) (fun _ _ _ => rfl) ws

theorem drainNext (h : Shadow r r₁) (cancelled : Nat) (ws : List WatchHandle) :
    (drainNext cancelled ws r₁).next = (drainNext cancelled ws r).next ∧
      Shadow (Watch.drainNext cancelled ws r).registry
        (Watch.drainNext cancelled ws r₁).registry :=
  h.loop (fun _ => rfl) (fun _ _ _ => rfl) ws

theorem cancel (h : Shadow r r₁) (id : WatchId) :
    ((Call.cancel id).start r₁).next = ((Call.cancel id).start r).next ∧
      Shadow ((Call.cancel id).start r).registry ((Call.cancel id).start r₁).registry := by
  rw [Call.start, Call.start, Registry.handle?_congr h.slots, h.retire]
  rcases r.handle? id with _ | w
  · exact ⟨rfl, h⟩
  · rcases hretire : r.retire id .cancelled with _ | ⟨requestor, r'⟩
    · exact ⟨rfl, h⟩
    · obtain ⟨-, rfl⟩ := Registry.retire_eq_some.1 hretire
      exact ⟨rfl, (h.setSlot id .cancelled).disarm id⟩

/-- An event that no watch awaits is held for the registration, and without it for the others, if
there are any. -/
theorem dispatch (h : Shadow r r₁) (e : PrepareEvent) :
    ((Call.dispatch e).start r₁).next = ((Call.dispatch e).start r).next ∧
      Shadow ((Call.dispatch e).start r).registry ((Call.dispatch e).start r₁).registry := by
  have hawaiting : r₁.awaiting e = r.awaiting e := by
    unfold Registry.awaiting
    rw [h.armed]
  have hpending : 0 < r₁.inFlight := h.inFlight ▸ Nat.succ_pos _
  rw [Call.start, Call.start, hawaiting]
  rcases r.awaiting e with _ | ⟨w, rest⟩
  · dsimp only
    rw [if_pos hpending]
    rcases Nat.eq_zero_or_pos r.inFlight with hzero | hpos
    · rw [if_neg (Nat.not_lt_of_le (Nat.le_of_eq hzero))]
      exact ⟨rfl, { h with held := fun hpos => absurd hzero (Nat.ne_of_gt hpos) }⟩
    · rw [if_pos hpos]
      exact ⟨rfl, { h with
        only := fun hzero => absurd hzero (Nat.ne_of_gt hpos)
        held := fun _ => congrArg (· ++ [e]) (h.held hpos) }⟩
  · have hbegin : Shadow { r with armed := r.armed.filter fun x => !x.awaits e }
        { r₁ with armed := r₁.armed.filter fun x => !x.awaits e } :=
      { h with armed := by rw [h.armed] }
    exact hbegin.fireNext e.type 0 (w :: rest)

theorem detach (h : Shadow r r₁) :
    (Call.detach.start r₁).next = (Call.detach.start r).next ∧
      Shadow (Call.detach.start r).registry (Call.detach.start r₁).registry := by
  have hbegin : Shadow { r with detachEpoch := r.detachEpoch + 1, held := [], armed := [] }
      { r₁ with detachEpoch := r₁.detachEpoch + 1, held := [], armed := [] } :=
    { h with
      armed := rfl
      detachEpoch := by rw [h.detachEpoch]
      only := fun _ => rfl
      held := fun _ => rfl }
  rw [Call.start, Call.start, h.armed]
  exact hbegin.drainNext 0 r.armed

/-- **A step of any operation but a registration** goes on in the same way with the registration in
flight and without. -/
theorem step (h : Shadow r r₁) {op : Operation} (hop : op ≠ .arm) (c : Cause ρ op) :
    (c.step r₁).next = (c.step r).next ∧ Shadow (c.step r).registry (c.step r₁).registry := by
  cases c with
  | call c =>
    cases c with
    | arm => exact absurd rfl hop
    | cancel id => exact h.cancel id
    | dispatch e => exact h.dispatch e
    | detach => exact h.detach
  | answer f a =>
    cases f with
    | clearingCancelled w => exact ⟨rfl, h⟩
    | clearingFired w requestor type rest fired => exact ⟨rfl, h⟩
    | runningFired w requestor type rest fired => exact h.fireNext type (fired + 1) rest
    | clearingDrained w rest cancelled => exact h.drainNext (cancelled + 1) rest
    | _ => exact absurd rfl hop

end Shadow

/-! ## Runs with and without the registration -/

/-- **The same move:** the same call is made, or the same answer given to it. -/
inductive Alike : Move ρ → Move ρ → Prop where
  | intro {n n' : Nat} {op : Operation} {c : Cause ρ op} {r r' : Registry ρ} :
      Alike ⟨n, op, c, r⟩ ⟨n', op, c, r'⟩

/-- **The same move with the same outcome:** the operation returns the same result, or goes on to
wait for the same. -/
inductive Echoes : Move ρ → Move ρ → Prop where
  | intro {n n' : Nat} {op : Operation} {c : Cause ρ op} {r r' : Registry ρ}
      (next : (c.step r').next = (c.step r).next) : Echoes ⟨n, op, c, r⟩ ⟨n', op, c, r'⟩

def Pending.later (p : Pending ρ) : Pending ρ :=
  { p with number := p.number + 1 }

/-- **In the second session a registration `p` waits** among the operations in progress: above it
are those of the first session that were called since. -/
structure Beside (p : Pending ρ) (below : List (Pending ρ)) (s s₁ : Session ρ) : Prop where
  registry : Shadow s.registry s₁.registry
  stack : ∃ above, s.stack = above ++ below ∧ s₁.stack = above.map Pending.later ++ p :: below
  calls : s₁.calls = s.calls + 1

theorem later_onStack {op : Operation} (n : Nat) (f : Option (Frame ρ op)) :
    (onStack n f).map Pending.later = onStack (n + 1) f := by
  cases f <;> rfl

section
variable {s s' s₁ s₁' : Session ρ} {m m₁ : Move ρ} {t t₁ : List (Move ρ)} {p : Pending ρ}
  {below : List (Pending ρ)}

/-- **A step beside a waiting registration** has its counterpart without it. -/
theorem Beside.takes (h : Beside p below s s₁) (hp : p.op = .arm) (hm : Takes s₁ m₁ s₁')
    (hop : m₁.op ≠ .arm) : ∃ m s', Takes s m s' ∧ Echoes m m₁ ∧ Beside p below s' s₁' := by
  obtain ⟨r, stack, n⟩ := s
  obtain ⟨hreg, ⟨above, rfl, hstack⟩, hcalls⟩ := h
  cases hm with
  | @call r₁ stack₁ n₁ op c =>
    obtain ⟨hnext, hafter⟩ := hreg.step hop (.call c)
    obtain rfl : n₁ = n + 1 := hcalls
    obtain rfl : stack₁ = _ := hstack
    refine ⟨_, _, .call r _ n c, .intro hnext, hafter, ?_, rfl⟩
    refine ⟨onStack n (c.start r).next.frame? ++ above, (List.append_assoc ..).symm, ?_⟩
    rw [List.map_append, later_onStack, List.append_assoc]
    exact congrArg (fun next : Next ρ op => onStack (n + 1) next.frame? ++ _) hnext
  | @answer r₁ stack₁ n₁ k op f a =>
    obtain ⟨hnext, hafter⟩ := hreg.step hop (.answer f a)
    cases above with
    | nil =>
      -- the registration itself gets no answer here
      obtain ⟨rfl, -⟩ := List.cons.inj hstack
      exact absurd hp hop
    | cons q above =>
      obtain ⟨hq, hrest⟩ := List.cons.inj hstack
      obtain ⟨k', op', f'⟩ := q
      cases hq
      obtain rfl : stack₁ = _ := hrest
      refine ⟨_, _, .answer r _ n k' f' a, .intro hnext, hafter, ?_, hcalls⟩
      refine ⟨onStack k' (f'.resume a r).next.frame? ++ above, (List.append_assoc ..).symm, ?_⟩
      rw [List.map_append, later_onStack, List.append_assoc]
      exact congrArg (fun next : Next ρ op' => onStack (k' + 1) next.frame? ++ _) hnext

/-- **A run beside a waiting registration** has its counterpart without it. -/
theorem Beside.run (h : Beside p below s s₁) (hp : p.op = .arm) (ht : Run s₁ t₁ s₁')
    (hop : ∀ m ∈ t₁, m.op ≠ .arm) :
    ∃ t s', Run s t s' ∧ List.Forall₂ Echoes t t₁ ∧ Beside p below s' s₁' := by
  induction ht with
  | nil => exact ⟨[], s, .nil, .nil, h⟩
  | @snoc t₁ s₂ s₃ m₁ _ hm ih =>
    obtain ⟨hops, hlast⟩ := List.forall_mem_append.1 hop
    obtain ⟨t, s', hrun, hechoes, hbeside⟩ := ih hops
    obtain ⟨m, s'', htakes, hecho, hbeside'⟩ :=
      hbeside.takes hp hm (hlast m₁ List.mem_cons_self)
    exact ⟨t ++ [m], s'', .snoc hrun htakes, List.rel_append hechoes (.cons hecho .nil), hbeside'⟩

theorem Takes.unique {m' : Move ρ} (h : Takes s m s') (h₁ : Takes s m₁ s₁') (hm : Alike m m')
    (hm₁ : Alike m₁ m') : m = m₁ ∧ s' = s₁' := by
  obtain @⟨n, n', op, c, r, r'⟩ := hm
  cases hm₁
  cases c with
  | call c =>
    obtain ⟨rfl, rfl, rfl⟩ := h.call_eq
    obtain ⟨rfl, rfl, rfl⟩ := h₁.call_eq
    exact ⟨rfl, rfl⟩
  | answer f a =>
    obtain ⟨stack, hstack, rfl, rfl⟩ := h.answer_eq
    obtain ⟨stack', hstack', rfl, rfl⟩ := h₁.answer_eq
    cases hstack.symm.trans hstack'
    exact ⟨rfl, rfl⟩

/-- **A run is determined by its calls and answers.** -/
theorem Run.unique {t' : List (Move ρ)} (h : Run s t s') (h₁ : Run s t₁ s₁')
    (ht : List.Forall₂ Alike t t') (ht₁ : List.Forall₂ Alike t₁ t') : t = t₁ ∧ s' = s₁' := by
  induction ht generalizing s t₁ with
  | nil =>
    cases ht₁
    exact ⟨rfl, (run_nil_iff.1 h).trans (run_nil_iff.1 h₁).symm⟩
  | cons hfirst _ ih =>
    obtain ⟨m₁, t₁, hfirst₁, hrests, rfl⟩ := List.forall₂_cons_right_iff.1 ht₁
    obtain ⟨s₂, htakes, hrest⟩ := run_cons_iff.1 h
    obtain ⟨s₃, htakes₁, hrest₁⟩ := run_cons_iff.1 h₁
    obtain ⟨rfl, rfl⟩ := htakes.unique htakes₁ hfirst hfirst₁
    obtain ⟨rfl, rfl⟩ := ih hrest hrest₁ hrests
    exact ⟨rfl, rfl⟩

theorem Echoes.alike (h : Echoes m m₁) : Alike m m₁ := by
  cases h with
  | intro _ => exact .intro

theorem Echoes.asks (h : Echoes m m₁) : m₁.starts = m.starts ∧
    (m₁.next.frame?.bind fun f => f.question.cleared?) =
      m.next.frame?.bind fun f => f.question.cleared? := by
  obtain ⟨hnext⟩ := h
  unfold Move.starts Move.next
  rw [hnext]
  exact ⟨rfl, rfl⟩

theorem asked_of_echoes (h : List.Forall₂ Echoes t t₁) : ran t₁ = ran t ∧ cleared t₁ = cleared t := by
  unfold ran cleared
  induction h with
  | nil => exact ⟨rfl, rfl⟩
  | cons hecho _ ih =>
    obtain ⟨hstarts, hcleared⟩ := hecho.asks
    rw [List.filterMap_cons, List.filterMap_cons, List.filterMap_cons, List.filterMap_cons, hstarts,
      hcleared, ih.1, ih.2]
    exact ⟨rfl, rfl⟩

end

/-! ## Refusals -/

/-- **The process refuses a registration:** call number `s.calls` is a registration, the run `t` of
other operations happens while it waits, and the process answers with an error. `u` is the run as a
whole. -/
inductive Refused (className : String) (requestor : ρ) (e : HostError) (s : Session ρ) :
    List (Move ρ) → List (Move ρ) → Session ρ → Prop where
  | intro {name : String} {epoch : Nat} {s₁ s₂ s' : Session ρ} {t : List (Move ρ)}
      (call : Takes s ⟨s.calls, .arm, .call (.arm className requestor), s.registry⟩ s₁)
      (during : Run s₁ t s₂) (others : ∀ m ∈ t, m.op ≠ .arm)
      (refusal : Takes s₂ ⟨s.calls, .arm, .answer (.requesting name requestor epoch)
        (Except.error e), s₂.registry⟩ s') :
      Refused className requestor e s t
        (⟨s.calls, .arm, .call (.arm className requestor), s.registry⟩ :: t ++
          [⟨s.calls, .arm, .answer (.requesting name requestor epoch) (Except.error e),
            s₂.registry⟩]) s'

/-- **A refused registration leaves no trace:** `t₀` is the run that would have happened without
it. -/
structure Traceless (s : Session ρ) (e : HostError) (t u : List (Move ρ)) (s' : Session ρ)
    (t₀ : List (Move ρ)) (s₀ : Session ρ) : Prop where
  returned : @Returned ρ u s.calls .arm (.error (.hostUnavailable e))
  run : Run s t₀ s₀
  /-- Its calls and answers are those made during the registration, and each has the same
  outcome. -/
  echoes : List.Forall₂ Echoes t₀ t
  /-- There is no other run with these calls and answers. -/
  only : ∀ t' s'', Run s t' s'' → List.Forall₂ Alike t' t → t' = t₀ ∧ s'' = s₀
  registry : s'.registry = s₀.registry
  stack : s'.stack = s₀.stack
  ran : ran u = Watch.ran t₀
  cleared : cleared u = Watch.cleared t₀

section
variable {s s' : Session ρ} {t t₀ u : List (Move ρ)} {className name : String} {requestor : ρ}
  {e : HostError}

theorem takes_arm_of_noName (hname : ClassName.binary? className = none) :
    Takes s ⟨s.calls, .arm, .call (.arm className requestor), s.registry⟩ s' ↔
      s' = { s with calls := s.calls + 1 } := by
  have hstart : (Call.arm className requestor).start s.registry =
      { registry := s.registry
        next := .returns (.error (.noMapping (.invalidTypeName className))) } := by
    rw [Call.start, hname]
  constructor
  · intro h
    obtain ⟨-, -, rfl⟩ := h.call_eq
    rw [hstart]
    rfl
  · rintro rfl
    have hcall := Takes.call s.registry s.stack s.calls (.arm className requestor)
    rw [hstart] at hcall
    exact hcall

theorem Refused.named (h : Refused className requestor e s t u s') (h₀ : Run {} t₀ s) :
    ∃ name, ClassName.binary? className = some name := by
  obtain ⟨call, during, -, refusal⟩ := h
  rcases hname : ClassName.binary? className with _ | name
  · obtain ⟨stack, hstack, -⟩ := refusal.answer_eq
    have hret : @Returned ρ (t₀ ++ [⟨s.calls, .arm, .call (.arm className requestor), s.registry⟩])
        s.calls .arm (.error (.noMapping (.invalidTypeName className))) :=
      returned_concat_self t₀ (by rw [Cause.step, Call.start, hname])
    have hgone := ((h₀.append call.run).append during).gone (hret.mono t)
    exact absurd rfl (hgone _ (hstack ▸ List.mem_cons_self))
  · exact ⟨name, rfl⟩

theorem Session.beside_registering (hr : s.Sound) (name : String) (requestor : ρ) :
    Beside ⟨s.calls, .arm, .requesting name requestor s.registry.detachEpoch⟩ s.stack s
      (s.registering name requestor) where
  registry := ⟨rfl, rfl, rfl, rfl, rfl, hr.held_eq_nil, fun _ => rfl⟩
  stack := ⟨[], rfl, rfl⟩
  calls := rfl

theorem Beside.stack_eq {p : Pending ρ} {below : List (Pending ρ)} {s₁ : Session ρ}
    (h : Beside p below s s₁) (hs : s₁.Ordered) {q : Pending ρ} {stack : List (Pending ρ)}
    (hstack : s₁.stack = q :: stack) (hq : q.number = p.number) :
    s.stack = below ∧ stack = below := by
  obtain ⟨-, ⟨above, habove, habove₁⟩, -⟩ := h
  rw [hstack] at habove₁
  cases above with
  | nil => exact ⟨habove, (List.cons.inj habove₁).2⟩
  | cons v above =>
    have hdec := hs.decreasing
    rw [hstack, (List.cons.inj habove₁).2] at hdec
    have hlt := (List.pairwise_cons.1 hdec).1 p (List.mem_append_right _ List.mem_cons_self)
    exact absurd hlt (hq ▸ Nat.lt_irrefl _)

/-- **What a refusal comes to.** -/
theorem Refused.traceless (h : Refused className requestor e s t u s') (h₀ : Run {} t₀ s) :
    ∃ t₁ s₁, Traceless s e t u s' t₁ s₁ := by
  obtain ⟨name, hname⟩ := h.named h₀
  obtain ⟨call, during, others, refusal⟩ := h
  have hwaits := asks_of_waits (m := ⟨s.calls, .arm, .call (.arm className requestor), s.registry⟩)
    (congrArg (fun step => step.next.frame?) (start_arm hname requestor _)) rfl rfl
  have hordered := (call.run.append during).numbers h₀.ordered
  obtain rfl := (takes_arm_iff hname).1 call
  have hbegin := Session.beside_registering (h₀.sound .empty) name requestor
  obtain ⟨t₁, s₁, hrun, hechoes, hbeside⟩ := hbegin.run rfl during others
  obtain ⟨stack, hstack, -, rfl⟩ := refusal.answer_eq
  obtain ⟨hstack₁, hbelow⟩ := hbeside.stack_eq hordered hstack rfl
  obtain ⟨hran, hcleared⟩ := asked_of_echoes hechoes
  refine ⟨t₁, s₁, ⟨?_, hrun, hechoes, fun t' s'' hrun' halike => ?_, hbeside.registry.finish,
    hbelow.trans hstack₁.symm, ?_, ?_⟩⟩
  · exact returned_concat_self _ rfl
  · exact hrun'.unique hrun halike (hechoes.imp fun _ _ => Echoes.alike)
  · rw [ran_append, ← List.singleton_append, ran_append, hwaits.ran, hran]
    exact List.append_nil _
  · rw [cleared_append, ← List.singleton_append, cleared_append, hwaits.cleared, hcleared]
    exact List.append_nil _

theorem refused_exists (hname : ClassName.binary? className = some name) (requestor : ρ)
    (e : HostError) (s : Session ρ) : ∃ u s', Refused className requestor e s [] u s' :=
  ⟨_, _, .intro ((takes_arm_iff hname).2 rfl) .nil (by simp)
    (.answer (s.registering name requestor).registry s.stack (s.calls + 1) s.calls
      (.requesting name requestor s.registry.detachEpoch) (Except.error e))⟩

end

/-- **A registration that fails leaves no trace**, in any reachable session. If its name is no class
name, it asks nothing and nothing changes. If the process refuses it at once, nothing is cleared, no
requestor runs and the registry is as it was. If the process lets other operations run before it
refuses, whatever they are and however they are nested, then all outcomes are those of the run with
the same calls and answers in which there is no registration. -/
theorem failed_registration {s : Session ρ} (hs : Reachable s) (className : String)
    (requestor : ρ) :
    (ClassName.binary? className = none → ∀ s',
      Takes s ⟨s.calls, .arm, .call (.arm className requestor), s.registry⟩ s' →
        ((Call.arm className requestor).start s.registry).next =
            .returns (.error (.noMapping (.invalidTypeName className))) ∧
          s' = { s with calls := s.calls + 1 }) ∧
    (∀ name e, ClassName.binary? className = some name →
      (∃ u s', Refused className requestor e s [] u s') ∧
      ∀ u s', Refused className requestor e s [] u s' →
        @Returned ρ u s.calls .arm (.error (.hostUnavailable e)) ∧ s'.registry = s.registry ∧
          s'.stack = s.stack ∧ ran u = [] ∧ cleared u = []) ∧
    ∀ e t u s', Refused className requestor e s t u s' →
      ∃ t₀ s₀, Traceless s e t u s' t₀ s₀ := by
  obtain ⟨t₀, h₀⟩ := hs
  refine ⟨fun hname s' h => ⟨?_, (takes_arm_of_noName hname).1 h⟩, fun name e hname =>
    ⟨refused_exists hname requestor e s, fun u s' h => ?_⟩, fun e t u s' h => h.traceless h₀⟩
  · rw [Call.start, hname]
  · obtain ⟨t₁, s₁, htrace⟩ := h.traceless h₀
    obtain rfl := List.forall₂_nil_right_iff.1 htrace.echoes
    obtain rfl := run_nil_iff.1 htrace.run
    exact ⟨htrace.returned, htrace.registry, htrace.stack, htrace.ran, htrace.cleared⟩

/-- A watch for A is armed, a registration for B is in flight and an event for B is held. While a
registration for C waits, an event for C and one for A are dispatched; then it is refused. The watch
for A has fired, and the event for C is held for the registration for B. -/
theorem failed_registration_nested : ∃ (s : Session Nat) (t u : List (Move Nat)) (s' : Session Nat)
    (t₀ : List (Move Nat)) (s₀ : Session Nat), Reachable s ∧ s.registry.inFlight = 1 ∧
      Refused "LC;" 2 .terminated s t u s' ∧ Traceless s .terminated t u s' t₀ s₀ ∧
      ran t₀ = [(⟨⟨1⟩, "A", ⟨3⟩⟩, ⟨⟨9⟩, "A"⟩)] ∧
      s'.registry.held = [⟨⟨7⟩, ⟨⟨8⟩, "B"⟩⟩, ⟨⟨9⟩, ⟨⟨10⟩, "C"⟩⟩] := by
  let s : Session Nat :=
    { registry :=
        { slots := [(⟨⟨1⟩, "A", ⟨3⟩⟩, .armed 0)], armed := [⟨⟨1⟩, "A", ⟨3⟩⟩], nextId := 2
          inFlight := 1, held := [⟨⟨7⟩, ⟨⟨8⟩, "B"⟩⟩] }
      stack := [⟨1, .arm, .requesting "B" 1 0⟩], calls := 3 }
  have hrun := ((((Run.nil (s := ({} : Session Nat))).call (.arm "A" 0)).answer
    (Except.ok ⟨3⟩)).call (.arm "B" 1)).call (.dispatch ⟨⟨7⟩, ⟨⟨8⟩, "B"⟩⟩)
  have hs : Reachable s := ⟨_, hrun⟩
  have hname : ClassName.binary? "LC;" = some "C" := rfl
  have hcall := (takes_arm_iff hname).2 (Eq.refl (s.registering "C" 2))
  have hduring := (((Run.nil (s := s.registering "C" 2)).call
    (.dispatch ⟨⟨9⟩, ⟨⟨10⟩, "C"⟩⟩)).call (.dispatch ⟨⟨3⟩, ⟨⟨9⟩, "A"⟩⟩)).answer ()
  have h := Refused.intro hcall (hduring.answer ()) (by decide)
    (.answer _ s.stack _ s.calls (.requesting "C" 2 0) (Except.error .terminated))
  obtain ⟨-, -, hall⟩ := failed_registration hs "LC;" 2
  obtain ⟨t₀, s₀, htrace⟩ := hall _ _ _ _ h
  exact ⟨s, _, _, _, t₀, s₀, hs, rfl, h, htrace, htrace.ran.symm, rfl⟩

end DebugMap.Watch
