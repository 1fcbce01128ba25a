import DebugMap.Watch.Run
import Mathlib.Data.List.Induction

/-!
# Sessions: operations nested in operations

While an operation waits for the process or for a requestor, whoever it waits for may call any
operation, and that one may wait in turn. A `Session` is a registry with the stack of the operations
in progress; `Takes` is one step of the innermost of them, or of a new one, and `Run` is a finite
run with the list of its moves. Answers and calls are left open, so the runs from the empty session
are those of every process and every requestor.

Main statements: `Run.split` (a run passes through a session at each of its moves), `Run.numbers`
(the stack holds calls made so far, the innermost made last), `Run.calls_unique` (no two calls have
one number), and `Call.run_isRun`: to carry out a call with `Call.run` is a run, in all surroundings
whose answers are runs. So what holds of runs holds of the operations as they are carried out.
-/

set_option autoImplicit false

namespace DebugMap.Watch

variable {ρ : Type}

/-- What makes an operation take a step: its call, or the answer to what it waits for. -/
inductive Cause (ρ : Type) (op : Operation) where
  | call (call : Call ρ op)
  | answer (frame : Frame ρ op) (answer : frame.question.Answer)

def Cause.step {op : Operation} : Cause ρ op → Registry ρ → Step ρ op
  | .call c, r => c.start r
  | .answer f a, r => f.resume a r

/-- **An operation in progress.** Calls are numbered in the order in which they are made. -/
structure Pending (ρ : Type) where
  number : Nat
  op : Operation
  frame : Frame ρ op

def Next.frame? {op : Operation} : Next ρ op → Option (Frame ρ op)
  | .waits f => some f
  | .returns _ => none

def Cause.frame? {op : Operation} : Cause ρ op → Option (Frame ρ op)
  | .call _ => none
  | .answer f _ => some f

/-- What call number `number` has on the stack while it waits in a frame, or in none. -/
def onStack {op : Operation} (number : Nat) : Option (Frame ρ op) → List (Pending ρ)
  | some f => [⟨number, op, f⟩]
  | none => []

/-- **A registry in use.** -/
structure Session (ρ : Type) where
  registry : Registry ρ := {}
  /-- The operations in progress, the innermost first. -/
  stack : List (Pending ρ) := []
  calls : Nat := 0

/-- **One step of a run:** which call takes it, why, and in which registry. -/
structure Move (ρ : Type) where
  number : Nat
  op : Operation
  cause : Cause ρ op
  before : Registry ρ

namespace Move

def after (m : Move ρ) : Registry ρ :=
  (m.cause.step m.before).registry

def next (m : Move ρ) : Next ρ m.op :=
  (m.cause.step m.before).next

end Move

/-- **A step of a session:** somebody calls an operation, or the innermost operation gets its
answer. -/
inductive Takes : Session ρ → Move ρ → Session ρ → Prop where
  | call (r : Registry ρ) (stack : List (Pending ρ)) (n : Nat) {op : Operation} (c : Call ρ op) :
      Takes ⟨r, stack, n⟩ ⟨n, op, .call c, r⟩
        ⟨(c.start r).registry, onStack n (c.start r).next.frame? ++ stack, n + 1⟩
  | answer (r : Registry ρ) (stack : List (Pending ρ)) (n k : Nat) {op : Operation}
      (f : Frame ρ op) (a : f.question.Answer) :
      Takes ⟨r, ⟨k, op, f⟩ :: stack, n⟩ ⟨k, op, .answer f a, r⟩
        ⟨(f.resume a r).registry, onStack k (f.resume a r).next.frame? ++ stack, n⟩

/-- **A finite run** from a session, with its moves in order. -/
inductive Run (s : Session ρ) : List (Move ρ) → Session ρ → Prop where
  | nil : Run s [] s
  | snoc {t : List (Move ρ)} {s' s'' : Session ρ} {m : Move ρ} :
      Run s t s' → Takes s' m s'' → Run s (t ++ [m]) s''

/-- **The sessions that come about.** -/
def Reachable (s : Session ρ) : Prop :=
  ∃ t, Run {} t s

/-! ## Runs -/

theorem run_nil_iff {s s' : Session ρ} : Run s [] s' ↔ s' = s := by
  refine ⟨fun h => ?_, fun h => h ▸ .nil⟩
  generalize ht : ([] : List (Move ρ)) = t at h
  cases h with
  | nil => rfl
  | snoc _ _ => simp at ht

theorem run_concat_iff {s s'' : Session ρ} {t : List (Move ρ)} {m : Move ρ} :
    Run s (t ++ [m]) s'' ↔ ∃ s', Run s t s' ∧ Takes s' m s'' := by
  refine ⟨fun h => ?_, fun ⟨_, h, hm⟩ => .snoc h hm⟩
  generalize ht : t ++ [m] = t' at h
  cases h with
  | nil => simp at ht
  | @snoc t' s' _ m' h hm =>
    obtain ⟨rfl, hm'⟩ := List.append_inj' ht rfl
    cases hm'
    exact ⟨s', h, hm⟩

theorem run_append_iff {s s'' : Session ρ} {t₁ t₂ : List (Move ρ)} :
    Run s (t₁ ++ t₂) s'' ↔ ∃ s', Run s t₁ s' ∧ Run s' t₂ s'' := by
  induction t₂ using List.reverseRecOn generalizing s'' with
  | nil => simp [run_nil_iff]
  | append_singleton t₂ m ih =>
    rw [← List.append_assoc, run_concat_iff]
    constructor
    · rintro ⟨s₁, h, hm⟩
      obtain ⟨s', h₁, h₂⟩ := ih.1 h
      exact ⟨s', h₁, .snoc h₂ hm⟩
    · rintro ⟨s', h₁, h₂⟩
      obtain ⟨s₁, h₂, hm⟩ := run_concat_iff.1 h₂
      exact ⟨s₁, ih.2 ⟨s', h₁, h₂⟩, hm⟩

theorem Run.append {s s' s'' : Session ρ} {t₁ t₂ : List (Move ρ)} (h₁ : Run s t₁ s')
    (h₂ : Run s' t₂ s'') : Run s (t₁ ++ t₂) s'' :=
  run_append_iff.2 ⟨s', h₁, h₂⟩

theorem Takes.run {s s' : Session ρ} {m : Move ρ} (h : Takes s m s') : Run s [m] s' :=
  .snoc .nil h

theorem Run.cons {s s' s'' : Session ρ} {m : Move ρ} {t : List (Move ρ)} (h : Takes s m s')
    (ht : Run s' t s'') : Run s (m :: t) s'' :=
  h.run.append ht

theorem run_cons_iff {s s'' : Session ρ} {m : Move ρ} {t : List (Move ρ)} :
    Run s (m :: t) s'' ↔ ∃ s', Takes s m s' ∧ Run s' t s'' := by
  rw [← List.singleton_append, run_append_iff]
  constructor
  · rintro ⟨s', h, ht⟩
    obtain ⟨s₁, h₁, hm⟩ := (run_concat_iff (t := [])).1 h
    rw [run_nil_iff.1 h₁] at hm
    exact ⟨s', hm, ht⟩
  · rintro ⟨s', h, ht⟩
    exact ⟨s', h.run, ht⟩

theorem Run.call {s s' : Session ρ} {t : List (Move ρ)} (h : Run s t s') {op : Operation}
    (c : Call ρ op) : Run s (t ++ [⟨s'.calls, op, .call c, s'.registry⟩])
      ⟨(c.start s'.registry).registry,
        onStack s'.calls (c.start s'.registry).next.frame? ++ s'.stack, s'.calls + 1⟩ :=
  .snoc h (.call ..)

theorem Run.answer {s : Session ρ} {t : List (Move ρ)} {r : Registry ρ} {stack : List (Pending ρ)}
    {k n : Nat} {op : Operation} {f : Frame ρ op} (h : Run s t ⟨r, ⟨k, op, f⟩ :: stack, n⟩)
    (a : f.question.Answer) : Run s (t ++ [⟨k, op, .answer f a, r⟩])
      ⟨(f.resume a r).registry, onStack k (f.resume a r).next.frame? ++ stack, n⟩ :=
  .snoc h (.answer ..)

/-- **A run passes through a session before and after each of its moves.** -/
theorem Run.split {s s' : Session ρ} {t : List (Move ρ)} {m : Move ρ} (h : Run s t s')
    (hm : m ∈ t) : ∃ t₁ t₂ s₁ s₂,
      t = t₁ ++ m :: t₂ ∧ Run s t₁ s₁ ∧ Takes s₁ m s₂ ∧ Run s₂ t₂ s' := by
  obtain ⟨t₁, t₂, rfl⟩ := List.append_of_mem hm
  obtain ⟨s₁, h₁, h₂⟩ := run_append_iff.1 h
  obtain ⟨s₂, hm, h₂⟩ := run_cons_iff.1 h₂
  exact ⟨t₁, t₂, s₁, s₂, rfl, h₁, hm, h₂⟩

/-- What a step does to a session: `rest` are the operations around the one that takes it. -/
theorem Takes.shape {s s' : Session ρ} {m : Move ρ} (h : Takes s m s') :
    ∃ rest, s.registry = m.before ∧ s.stack = onStack m.number m.cause.frame? ++ rest ∧
      s'.registry = m.after ∧ s'.stack = onStack m.number m.next.frame? ++ rest := by
  cases h with
  | call r stack n c => exact ⟨stack, rfl, rfl, rfl, rfl⟩
  | answer r stack n k f a => exact ⟨stack, rfl, rfl, rfl, rfl⟩

theorem Takes.call_eq {s s₁ : Session ρ} {n : Nat} {op : Operation} {c : Call ρ op} {r : Registry ρ}
    (h : Takes s ⟨n, op, .call c, r⟩ s₁) : n = s.calls ∧ r = s.registry ∧
      s₁ = ⟨(c.start r).registry, onStack n (c.start r).next.frame? ++ s.stack, n + 1⟩ := by
  generalize hm : (⟨n, op, .call c, r⟩ : Move ρ) = m at h
  cases h with
  | call r' stack n' c' =>
    cases hm
    exact ⟨rfl, rfl, rfl⟩
  | answer r' stack n' k f a =>
    simp only [Move.mk.injEq] at hm
    obtain ⟨-, rfl, hm, -⟩ := hm
    cases hm

theorem Takes.calls_eq {s s₁ : Session ρ} {n : Nat} {op : Operation} {c : Call ρ op}
    {r : Registry ρ} (h : Takes s ⟨n, op, .call c, r⟩ s₁) : s₁.calls = n + 1 := by
  obtain ⟨-, -, rfl⟩ := h.call_eq
  rfl

theorem Takes.answer_eq {s s₁ : Session ρ} {n : Nat} {op : Operation} {f : Frame ρ op}
    {a : f.question.Answer} {r : Registry ρ} (h : Takes s ⟨n, op, .answer f a, r⟩ s₁) :
    ∃ stack, s.stack = ⟨n, op, f⟩ :: stack ∧ r = s.registry ∧
      s₁ = ⟨(f.resume a r).registry, onStack n (f.resume a r).next.frame? ++ stack, s.calls⟩ := by
  generalize hm : (⟨n, op, .answer f a, r⟩ : Move ρ) = m at h
  cases h with
  | call r' stack n' c' =>
    simp only [Move.mk.injEq] at hm
    obtain ⟨-, rfl, hm, -⟩ := hm
    cases hm
  | answer r' stack n' k f' a' =>
    cases hm
    exact ⟨stack, rfl, rfl, rfl⟩

/-- **What each step keeps** of moves so far, registry and stack holds after a run. -/
theorem Run.keeps {s s' : Session ρ} {t : List (Move ρ)} (h : Run s t s')
    {P : List (Move ρ) → Registry ρ → List (Pending ρ) → Prop}
    (step : ∀ {op : Operation} (t : List (Move ρ)) (c : Cause ρ op) (r : Registry ρ) (n : Nat)
      (rest : List (Pending ρ)), P t r (onStack n c.frame? ++ rest) →
        P (t ++ [⟨n, op, c, r⟩]) (c.step r).registry (onStack n (c.step r).next.frame? ++ rest))
    (init : P [] s.registry s.stack) : P t s'.registry s'.stack := by
  induction h with
  | nil => exact init
  | @snoc t s' s'' m _ hm ih =>
    obtain ⟨rest, hr, hst, hr', hst'⟩ := hm.shape
    rw [hr, hst] at ih
    rw [hr', hst']
    exact step t m.cause m.before m.number rest ih

/-! ## Calls and results -/

def Called (t : List (Move ρ)) (n : Nat) {op : Operation} (c : Call ρ op) : Prop :=
  ∃ r, (⟨n, op, .call c, r⟩ : Move ρ) ∈ t

def Returned (t : List (Move ρ)) (n : Nat) {op : Operation} (result : op.Result) : Prop :=
  ∃ (c : Cause ρ op) (r : Registry ρ), ⟨n, op, c, r⟩ ∈ t ∧ (c.step r).next = .returns result

theorem Returned.mono {t : List (Move ρ)} {n : Nat} {op : Operation} {result : op.Result}
    (h : Returned t n result) (t' : List (Move ρ)) : Returned (t ++ t') n result := by
  obtain ⟨c, r, hm, hret⟩ := h
  exact ⟨c, r, List.mem_append_left _ hm, hret⟩

theorem returned_concat_self (t : List (Move ρ)) {n : Nat} {op : Operation} {c : Cause ρ op}
    {r : Registry ρ} {result : op.Result} (h : (c.step r).next = .returns result) :
    Returned (t ++ [⟨n, op, c, r⟩]) n result :=
  ⟨c, r, List.mem_append_right _ (List.mem_singleton.2 rfl), h⟩

/-! ## Numbers of calls -/

/-- The stack holds calls made so far, the innermost made last. -/
structure Session.Ordered (s : Session ρ) : Prop where
  lt_calls : ∀ p ∈ s.stack, p.number < s.calls
  decreasing : s.stack.Pairwise fun p q => q.number < p.number

theorem mem_onStack {op : Operation} {f? : Option (Frame ρ op)} {n : Nat} {p : Pending ρ} :
    p ∈ onStack n f? ↔ ∃ f, f? = some f ∧ p = ⟨n, op, f⟩ := by
  cases f? <;> simp [onStack]

theorem mem_elim {op : Operation} {α : Type} {f? : Option (Frame ρ op)} {g : Frame ρ op → List α}
    {x : α} : x ∈ f?.elim [] g ↔ ∃ f, f? = some f ∧ x ∈ g f := by
  cases f? <;> simp

theorem number_of_mem_onStack {op : Operation} {f : Option (Frame ρ op)} {n : Nat} {p : Pending ρ}
    (h : p ∈ onStack n f) : p.number = n := by
  obtain ⟨f, -, rfl⟩ := mem_onStack.1 h
  rfl

theorem onStack_append_decreasing {op : Operation} (f : Option (Frame ρ op)) {n : Nat}
    {stack : List (Pending ρ)} (h : stack.Pairwise fun p q => q.number < p.number)
    (hn : ∀ p ∈ stack, p.number < n) :
    (onStack n f ++ stack).Pairwise fun p q => q.number < p.number := by
  cases f with
  | none => exact h
  | some f => exact List.pairwise_cons.2 ⟨hn, h⟩

theorem Takes.ordered {s s' : Session ρ} {m : Move ρ} (h : Takes s m s') (hs : s.Ordered) :
    s'.Ordered := by
  cases h with
  | call r stack n c =>
    refine ⟨fun p hp => ?_, onStack_append_decreasing _ hs.decreasing hs.lt_calls⟩
    rcases List.mem_append.1 hp with hp | hp
    · rw [number_of_mem_onStack hp]
      exact Nat.lt_succ_self n
    · exact Nat.lt_succ_of_lt (hs.lt_calls p hp)
  | answer r stack n k f a =>
    obtain ⟨hlt, hdec⟩ := hs
    obtain ⟨hk, hdec⟩ := List.pairwise_cons.1 hdec
    refine ⟨fun p hp => ?_, onStack_append_decreasing _ hdec hk⟩
    rcases List.mem_append.1 hp with hp | hp
    · rw [number_of_mem_onStack hp]
      exact hlt _ List.mem_cons_self
    · exact hlt p (List.mem_cons_of_mem _ hp)

theorem Run.numbers {s s' : Session ρ} {t : List (Move ρ)} (h : Run s t s') (hs : s.Ordered) :
    s'.Ordered := by
  induction h with
  | nil => exact hs
  | snoc _ hm ih => exact hm.ordered ih

theorem Run.ordered {s : Session ρ} {t : List (Move ρ)} (h : Run {} t s) : s.Ordered :=
  h.numbers ⟨by simp, .nil⟩

theorem Run.number_lt {s s' : Session ρ} {t : List (Move ρ)} (h : Run s t s') :
    s.calls ≤ s'.calls ∧ ∀ {n : Nat} {op : Operation} {c : Call ρ op} {r : Registry ρ},
      ⟨n, op, .call c, r⟩ ∈ t → s.calls ≤ n ∧ n < s'.calls := by
  induction h with
  | nil => exact ⟨Nat.le_refl _, by simp⟩
  | @snoc t s₁ s₂ m _ hm ih =>
    obtain ⟨hle, hlt⟩ := ih
    cases hm with
    | call r stack k c =>
      refine ⟨Nat.le_succ_of_le hle, fun hmem => ?_⟩
      rcases List.mem_append.1 hmem with hmem | hmem
      · have := hlt hmem
        exact ⟨this.1, Nat.lt_succ_of_lt this.2⟩
      · obtain ⟨rfl, -⟩ := Move.mk.inj (List.mem_singleton.1 hmem)
        exact ⟨hle, Nat.lt_succ_self _⟩
    | answer r stack k i f a =>
      refine ⟨hle, fun hmem => ?_⟩
      rcases List.mem_append.1 hmem with hmem | hmem
      · exact hlt hmem
      · have := List.mem_singleton.1 hmem
        simp only [Move.mk.injEq] at this
        obtain ⟨-, rfl, this, -⟩ := this
        cases this

/-- **No two calls have one number.** -/
theorem Run.calls_unique {s s' : Session ρ} {t : List (Move ρ)} (h : Run s t s') {n : Nat}
    {op op' : Operation} {c : Call ρ op} {c' : Call ρ op'} {r r' : Registry ρ}
    (hc : ⟨n, op, .call c, r⟩ ∈ t) (hc' : ⟨n, op', .call c', r'⟩ ∈ t) :
    (⟨n, op, .call c, r⟩ : Move ρ) = ⟨n, op', .call c', r'⟩ := by
  induction h with
  | nil => cases hc
  | @snoc t s₁ s₂ m h hm ih =>
    rcases List.mem_append.1 hc with hc | hc <;> rcases List.mem_append.1 hc' with hc' | hc'
    · exact ih hc hc'
    · rw [← List.mem_singleton.1 hc'] at hm
      cases hm
      exact absurd (h.number_lt.2 hc).2 (Nat.lt_irrefl _)
    · rw [← List.mem_singleton.1 hc] at hm
      cases hm
      exact absurd (h.number_lt.2 hc').2 (Nat.lt_irrefl _)
    · rw [List.mem_singleton.1 hc, List.mem_singleton.1 hc']

theorem Run.number_of_mem {s s' : Session ρ} {t : List (Move ρ)} (h : Run s t s') {p : Pending ρ}
    (hp : p ∈ s'.stack) : (∃ q ∈ s.stack, q.number = p.number) ∨ s.calls ≤ p.number := by
  induction h generalizing p with
  | nil => exact .inl ⟨p, hp, rfl⟩
  | @snoc t s₁ s₂ m h hm ih =>
    cases hm with
    | call r stack n c =>
      rcases List.mem_append.1 hp with hp | hp
      · rw [number_of_mem_onStack hp]
        exact .inr h.number_lt.1
      · exact ih hp
    | answer r stack n k f a =>
      rcases List.mem_append.1 hp with hp | hp
      · rw [number_of_mem_onStack hp]
        exact ih (p := ⟨k, _, f⟩) List.mem_cons_self
      · exact ih (List.mem_cons_of_mem _ hp)

/-- **An operation that has returned** is in progress no longer. -/
theorem Run.gone {s : Session ρ} {t : List (Move ρ)} (h : Run {} t s) {n : Nat} {op : Operation}
    {result : op.Result} (hret : Returned t n result) : ∀ p ∈ s.stack, p.number ≠ n := by
  obtain ⟨c, r, hm, hnext⟩ := hret
  obtain ⟨t₁, t₂, s₁, s₂, -, h₁, htakes, h₂⟩ := h.split hm
  have hreturned : ∀ p ∈ s₂.stack, p.number < n := by
    have hs₁ := h₁.ordered
    intro p hp
    cases htakes with
    | call r stack n c =>
      change p ∈ onStack _ ((Cause.call c).step r).next.frame? ++ _ at hp
      rw [hnext] at hp
      exact hs₁.lt_calls p hp
    | answer r stack n k f a =>
      change p ∈ onStack _ ((Cause.answer f a).step r).next.frame? ++ _ at hp
      rw [hnext] at hp
      exact (List.pairwise_cons.1 hs₁.decreasing).1 p hp
  have hcalls : n < s₂.calls := by
    cases htakes with
    | call r stack n c => exact Nat.lt_succ_self n
    | answer r stack n k f a => exact h₁.ordered.lt_calls _ List.mem_cons_self
  intro p hp hn
  rcases h₂.number_of_mem hp with ⟨q, hq, hqp⟩ | hle
  · have := hreturned q hq
    omega
  · omega

/-! ## Operations as they are carried out -/

/-- **Surroundings that use nothing but the operations:** they keep the registry in their state, and
whatever they do to answer a question is a run that leaves the stack as it was. -/
structure Surroundings.Faithful {σ : Type} (around : Surroundings (StateM σ) ρ)
    (view : σ → Registry ρ) : Prop where
  registry : ∀ x, around.registry.run x = (view x, x)
  setRegistry : ∀ r x, view ((around.setRegistry r).run x).2 = r
  note : ∀ e x, view ((around.note e).run x).2 = view x
  answer : ∀ q x stack n,
    ∃ t n', Run ⟨view x, stack, n⟩ t ⟨view ((around.answer q).run x).2, stack, n'⟩

theorem Surroundings.Faithful.notes {σ : Type} {around : Surroundings (StateM σ) ρ}
    {view : σ → Registry ρ} (h : around.Faithful view) (log : List WatchEvent) (x : σ) :
    view ((log.forM around.note).run x).2 = view x := by
  induction log generalizing x with
  | nil => rfl
  | cons e log ih =>
    change view ((log.forM around.note).run ((around.note e).run x).2).2 = view x
    rw [ih, h.note]

def Step.settled {σ : Type} (around : Surroundings (StateM σ) ρ) {op : Operation} (step : Step ρ op)
    (x : σ) : σ :=
  ((step.log.forM around.note).run ((around.setRegistry step.registry).run x).2).2

theorem Step.run_of_returns {σ : Type} (around : Surroundings (StateM σ) ρ) {op : Operation}
    {step : Step ρ op} {result : op.Result} (h : step.next = .returns result) (x : σ) :
    (step.run around).run x = (result, step.settled around x) := by
  obtain ⟨r, log, next⟩ := step
  subst h
  rw [Step.run]
  rfl

theorem Step.run_of_waits {σ : Type} (around : Surroundings (StateM σ) ρ) {op : Operation}
    {step : Step ρ op} {f : Frame ρ op} (h : step.next = .waits f) (x : σ) {a : f.question.Answer}
    {y y' : σ} {r : Registry ρ} (ha : (around.answer f.question).run (step.settled around x) = (a, y))
    (hr : around.registry.run y = (r, y')) :
    (step.run around).run x = ((f.resume a r).run around).run y' := by
  obtain ⟨r₀, log, next⟩ := step
  subst h
  rw [Step.run]
  generalize hs : Step.settled around ⟨r₀, log, .waits f⟩ x = s at ha
  have key : ∀ p, (around.answer f.question).run s = p → ∀ q, around.registry.run p.2 = q →
      (do
        let answer ← around.answer f.question
        let registry ← around.registry
        (f.resume answer registry).run around : StateM σ op.Result).run s =
      ((f.resume p.1 q.1).run around).run q.2 := by
    rintro p rfl q rfl
    rfl
  have := key _ ha _ hr
  rw [← this, ← hs]
  rfl

/-- **A step that is carried out**, with those that follow from it, is a run that ends with the
move in which its operation returns. -/
theorem Step.run_isRun {σ : Type} {around : Surroundings (StateM σ) ρ} {view : σ → Registry ρ}
    (h : around.Faithful view) {op : Operation} {c : Cause ρ op} {r : Registry ρ}
    {stack : List (Pending ρ)} {k n : Nat} {s : Session ρ}
    (hs : Takes s ⟨k, op, c, r⟩ ⟨(c.step r).registry, onStack k (c.step r).next.frame? ++ stack, n⟩)
    (x : σ) : ∃ t c' r' n',
      Run s (t ++ [⟨k, op, c', r'⟩]) ⟨view (((c.step r).run around).run x).2, stack, n'⟩ ∧
        (c'.step r').next = .returns (((c.step r).run around).run x).1 := by
  induction hsize : (c.step r).next.size using Nat.strongRecOn generalizing c r x n s with
  | ind size ih =>
    have hview : view ((c.step r).settled around x) = (c.step r).registry := by
      rw [Step.settled, h.notes, h.setRegistry]
    rcases hnext : (c.step r).next with f | result
    · obtain ⟨⟨a, y⟩, ha⟩ :
          ∃ p, (around.answer f.question).run ((c.step r).settled around x) = p := ⟨_, rfl⟩
      obtain ⟨t₁, n₁, h₁⟩ := h.answer f.question ((c.step r).settled around x)
        (⟨k, op, f⟩ :: stack) n
      rw [ha, hview] at h₁
      have hlt : ((Cause.answer f a).step (view y)).next.size < size := by
        rw [← hsize, hnext]
        exact size_resume_lt f a (view y)
      obtain ⟨t₂, c', r', n', h₂, hret⟩ := ih _ hlt (.answer _ stack n₁ k f a) y rfl
      rw [Step.run_of_waits around hnext x ha (h.registry y)]
      rw [hnext] at hs
      refine ⟨⟨k, op, c, r⟩ :: (t₁ ++ t₂), c', r', n', ?_, hret⟩
      rw [List.cons_append, List.append_assoc]
      exact .cons hs (h₁.append h₂)
    · rw [Step.run_of_returns around hnext, hview]
      rw [hnext] at hs
      exact ⟨[], c, r, n, hs.run, hnext⟩

/-- **To carry out a call is a run** of the session, in which the call returns the same result. -/
theorem Call.run_isRun {σ : Type} {around : Surroundings (StateM σ) ρ} {view : σ → Registry ρ}
    (h : around.Faithful view) {op : Operation} (c : Call ρ op) (x : σ) (stack : List (Pending ρ))
    (n : Nat) : ∃ t c' r' n',
      Run ⟨view x, stack, n⟩ (t ++ [⟨n, op, c', r'⟩]) ⟨view ((c.run around).run x).2, stack, n'⟩ ∧
        (c'.step r').next = .returns ((c.run around).run x).1 := by
  have hrun : (c.run around).run x = ((c.start (view x)).run around).run x := by
    change ((c.start (around.registry.run x).1).run around).run (around.registry.run x).2 = _
    rw [h.registry]
  rw [hrun]
  exact Step.run_isRun h (.call (view x) stack n c) x

end DebugMap.Watch
