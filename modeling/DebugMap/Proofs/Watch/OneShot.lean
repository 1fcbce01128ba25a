import DebugMap.Proofs.Watch.Origin
import Mathlib.Algebra.GroupWithZero.Nat

/-!
# A watch fires at most once

Each watch's requestor starts as often as the watch has fired, at once or as soon as its request is
cleared: `Run.starts_eq` counts the starts so far and those that are due against the state of the
watch. `Run.tally` does the same for what the operations report. Both counts are kept by each step,
over the stack of operations in progress.

Main statement: `one_shot`, all that a run does with a watch.
-/

set_option autoImplicit false

namespace DebugMap.Watch

variable {ρ : Type}

/-! ## Starts -/

def Frame.running? {op : Operation} : Frame ρ op → Option (WatchHandle × ρ × RuntimeType)
  | .runningEarly w requestor type => some (w, requestor, type)
  | .runningFired w requestor type _ _ => some (w, requestor, type)
  | _ => none

theorem Frame.question_eq_run {op : Operation} (f : Frame ρ op) (requestor : ρ)
    (type : RuntimeType) :
    f.question = .run requestor type ↔ ∃ w, f.running? = some (w, requestor, type) := by
  cases f <;> simp [Frame.question, Frame.running?, eq_comm]

def Next.starts {op : Operation} (next : Next ρ op) : Option (WatchHandle × ρ × RuntimeType) :=
  next.frame?.bind Frame.running?

/-- **The requestor that a step starts**, with its watch and the type it runs for. -/
def Move.starts (m : Move ρ) : Option (WatchHandle × ρ × RuntimeType) :=
  m.next.starts

/-- How often a run has started the requestor of a watch. -/
def starts (t : List (Move ρ)) (id : WatchId) : Nat :=
  t.countP fun m => m.starts.any fun e => e.1.id = id

/-- How often the requestor of a watch is due. -/
def dueCount (id : WatchId) (es : List (WatchHandle × ρ)) : Nat :=
  es.countP fun e => e.1.id = id

def firedAt (r : Registry ρ) (id : WatchId) : Nat :=
  if r.state? id = some .fired then 1 else 0

theorem starts_append (t t' : List (Move ρ)) (id : WatchId) :
    starts (t ++ t') id = starts t id + starts t' id :=
  List.countP_append

theorem starts_concat (t : List (Move ρ)) (m : Move ρ) (id : WatchId) :
    starts (t ++ [m]) id = starts t id + (m.starts.any fun e => e.1.id = id).toNat := by
  rw [starts, List.countP_append, List.countP_singleton]
  cases m.starts.any fun e => e.1.id = id <;> rfl

section
variable {r r' : Registry ρ} {ws : List WatchHandle} (id : WatchId)

theorem firedAt_fire {w : WatchHandle} {requestor : ρ}
    (armed : r.slot? w.id = some (.armed requestor)) :
    firedAt (r.setSlot w.id .fired) id = dueCount id [(w, requestor)] + firedAt r id := by
  unfold firedAt dueCount
  rw [Registry.state?_setSlot armed, List.countP_singleton]
  by_cases hid : id = w.id
  · subst hid
    rw [Registry.state?_of_slot? armed]
    simp [Slot.state]
  · simp [hid, Ne.symm hid]

theorem firedAt_cancel {w : WatchId} {requestor : ρ} (armed : r.slot? w = some (.armed requestor)) :
    firedAt (r.setSlot w .cancelled) id = firedAt r id := by
  unfold firedAt
  rw [Registry.state?_setSlot armed]
  by_cases hid : id = w
  · subst hid
    rw [Registry.state?_of_slot? armed]
    simp [Slot.state]
  · simp [hid]

theorem firedAt_addWatch {w : WatchHandle} (h : r.slot? w.id = none) (x : Slot ρ) :
    firedAt (r.addWatch w x) id =
      (if w.id = id ∧ x.state = .fired then 1 else 0) + firedAt r id := by
  unfold firedAt
  rw [Registry.state?_addWatch h]
  by_cases hid : id = w.id
  · subst hid
    rw [Registry.state?_eq, h]
    simp
  · simp [hid, Ne.symm hid]

theorem Fires.firedAt {type : RuntimeType} {fired : Nat} {next : Next ρ .dispatch}
    (hf : Fires type fired ws r r' next) :
    Watch.firedAt r' id = dueCount id (next.frame?.elim [] Frame.due) + Watch.firedAt r id := by
  cases hf with
  | done _ => exact (Nat.zero_add _).symm
  | next _ _ armed => exact firedAt_fire id armed

theorem Drains.firedAt {cancelled : Nat} {next : Next ρ .detach}
    (hd : Drains cancelled ws r r' next) : Watch.firedAt r' id = Watch.firedAt r id := by
  cases hd with
  | done _ => rfl
  | next _ _ armed => exact firedAt_cancel id armed

theorem Fires.starts {type : RuntimeType} {fired : Nat} {next : Next ρ .dispatch}
    (hf : Fires type fired ws r r' next) : next.starts = none := by
  cases hf <;> rfl

theorem Drains.starts {cancelled : Nat} {next : Next ρ .detach}
    (hd : Drains cancelled ws r r' next) : next.starts = none := by
  cases hd <;> rfl

/-- **A step makes a requestor due as it fires the watch**, and starts one that was due. -/
theorem Effect.firedAt {op : Operation} {c : Cause ρ op} {next : Next ρ op}
    (he : Effect r c r' next) (hr : r.Numbered) :
    (next.starts.any fun e => e.1.id = id).toNat + dueCount id (next.frame?.elim [] Frame.due) +
        Watch.firedAt r id =
      dueCount id (c.frame?.elim [] Frame.due) + Watch.firedAt r' id := by
  cases he with
  | cancels _ armed =>
    change 0 + 0 + _ = 0 + Watch.firedAt (r.setSlot _ .cancelled) id
    rw [firedAt_cancel id armed]
  | offers _ fires =>
    have hf := fires.firedAt id
    rw [fires.starts, hf]
    exact Nat.add_assoc ..
  | detaches drains => rw [drains.starts, drains.firedAt id]; cases drains <;> rfl
  | @overtaken className _ _ request _ =>
    change 0 + 0 + _ = 0 + Watch.firedAt (r.addWatch (made r className request) .cancelled) id
    rw [firedAt_addWatch id (Sound.slot?_made hr rfl)]
    simp [Slot.state]
  | @catches className requestor _ request event held _ _ =>
    change 0 + dueCount id [(made r className request, requestor)] + _ =
      0 + Watch.firedAt (r.addWatch (made r className request) .fired) id
    rw [firedAt_addWatch id (Sound.slot?_made hr rfl)]
    simp [Slot.state, dueCount, List.countP_singleton]
  | @arms className requestor _ request _ _ =>
    change 0 + 0 + _ =
      0 + Watch.firedAt (r.addWatch (made r className request) (.armed requestor)) id
    rw [firedAt_addWatch id (Sound.slot?_made hr rfl)]
    simp [Slot.state]
  | @clearedEarly w requestor type _ =>
    change (decide (w.id = id)).toNat + 0 + _ = dueCount id [(w, requestor)] + _
    by_cases hid : w.id = id <;> simp [dueCount, hid]
  | @clearedFired w requestor type rest fired _ =>
    change (decide (w.id = id)).toNat + 0 + _ = dueCount id [(w, requestor)] + _
    by_cases hid : w.id = id <;> simp [dueCount, hid]
  | ranFired fires =>
    have hf := fires.firedAt id
    rw [fires.starts, hf]
    exact Nat.add_assoc ..
  | clearedDrained drains => rw [drains.starts, drains.firedAt id]; cases drains <;> rfl
  | _ => rfl

end

/-- **Starts and requestors that are due together count the watch as fired.** -/
theorem Run.starts_eq {s : Session ρ} {t : List (Move ρ)} (h : Run {} t s) (id : WatchId) :
    starts t id + dueCount id (due s.stack) = firedAt s.registry id := by
  refine (h.keeps_sound .empty
    (P := fun t r stack => starts t id + dueCount id (due stack) = firedAt r id)
    (fun {op} t c r n rest he hr hs => ?_) rfl).2
  have hstep := he.firedAt id hr.numbered
  rw [due_onStack, dueCount, List.countP_append, ← dueCount, ← dueCount] at hs ⊢
  rw [starts_concat]
  change starts t id + ((c.step r).next.starts.any fun e => e.1.id = id).toNat + _ = _
  omega

theorem Effect.starts {r r' : Registry ρ} {op : Operation} {c : Cause ρ op} {next : Next ρ op}
    (he : Effect r c r' next) {w : WatchHandle} {requestor : ρ} {type : RuntimeType}
    (hst : next.starts = some (w, requestor, type)) :
    (w, requestor) ∈ c.frame?.elim [] Frame.due ∧
      (w, .fired) ∈ next.frame?.elim [] Frame.ended := by
  cases he with
  | offers _ fires => cases fires.starts.symm.trans hst
  | detaches drains => cases drains.starts.symm.trans hst
  | ranFired fires => cases fires.starts.symm.trans hst
  | clearedDrained drains => cases drains.starts.symm.trans hst
  | clearedEarly =>
    cases hst
    exact ⟨List.mem_cons_self, List.mem_cons_self⟩
  | clearedFired =>
    cases hst
    exact ⟨List.mem_cons_self, List.mem_cons_self⟩
  | _ => cases hst

/-! ## What the operations report -/

def Next.fired : {op : Operation} → Next ρ op → Nat
  | .dispatch, .returns n => n
  | _, _ => 0

def Next.watch? : {op : Operation} → Next ρ op → Option WatchHandle
  | .arm, .returns (Except.ok w) => some w
  | _, _ => none

def Next.returnsFired {op : Operation} (next : Next ρ op) (r : Registry ρ) : Bool :=
  next.watch?.any fun w => r.state? w.id = some .fired

/-- How many fired watches an operation in progress has yet to report. -/
def Frame.unreported {op : Operation} : Frame ρ op → Nat
  | .clearingEarly .. => 1
  | .runningEarly .. => 1
  | .clearingFired _ _ _ _ fired => fired + 1
  | .runningFired _ _ _ _ fired => fired + 1
  | _ => 0

def unreported (stack : List (Pending ρ)) : Nat :=
  (stack.map fun p => p.frame.unreported).sum

/-- **How many fired watches a run has reported**: those its dispatches have counted and those its
registrations have returned. -/
def reported (t : List (Move ρ)) : Nat :=
  (t.map fun m => m.next.fired).sum + t.countP fun m => m.next.returnsFired m.after

theorem unreported_onStack {op : Operation} (n : Nat) (f : Option (Frame ρ op))
    (stack : List (Pending ρ)) :
    unreported (onStack n f ++ stack) = f.elim 0 Frame.unreported + unreported stack := by
  cases f with
  | none => exact (Nat.zero_add _).symm
  | some f => rfl

theorem reported_concat (t : List (Move ρ)) (m : Move ρ) :
    reported (t ++ [m]) = reported t + (m.next.fired + (m.next.returnsFired m.after).toNat) := by
  unfold reported
  rw [List.map_append, List.sum_append, List.countP_append, List.countP_singleton]
  cases m.next.returnsFired m.after <;> simp <;> omega

section
variable {r r' : Registry ρ} {ws : List WatchHandle}

theorem Fires.tally {type : RuntimeType} {fired : Nat} {next : Next ρ .dispatch}
    (hf : Fires type fired ws r r' next) (hr : r.Numbered) :
    next.fired + (next.returnsFired r').toNat + next.frame?.elim 0 Frame.unreported +
      r.count .fired = fired + r'.count .fired := by
  cases hf with
  | done _ => rfl
  | @next _ _ w requestor _ _ armed =>
    have := hr.count_setSlot armed .fired .fired
    simp only [Slot.state, reduceCtorEq, if_false, if_true] at this
    change 0 + 0 + (fired + 1) + _ = _
    omega

theorem Drains.tally {cancelled : Nat} {next : Next ρ .detach}
    (hd : Drains cancelled ws r r' next) (hr : r.Numbered) :
    next.fired + (next.returnsFired r').toNat + next.frame?.elim 0 Frame.unreported +
      r.count .fired = r'.count .fired := by
  cases hd with
  | done _ => exact Nat.zero_add _
  | @next _ _ w requestor _ _ armed =>
    have := hr.count_setSlot armed .cancelled .fired
    simp only [Slot.state, reduceCtorEq, if_false] at this
    change 0 + 0 + 0 + _ = _
    omega

/-- **A step reports what was fired** or leaves it to be reported. -/
theorem Effect.tally {op : Operation} {c : Cause ρ op} {next : Next ρ op}
    (he : Effect r c r' next) {q : Nat} {vs : List WatchHandle}
    {es : List (WatchHandle × WatchState)} (hr : Sound r q vs (c.frame?.elim [] Frame.ended ++ es)) :
    next.fired + (next.returnsFired r').toNat + next.frame?.elim 0 Frame.unreported +
      r.count .fired = c.frame?.elim 0 Frame.unreported + r'.count .fired := by
  cases he with
  | @cancels id w requestor _ armed =>
    have := hr.numbered.count_setSlot armed .cancelled .fired
    simp only [Slot.state, reduceCtorEq, if_false] at this
    change 0 + 0 + 0 + _ = 0 + (r.setSlot id .cancelled).count .fired
    omega
  | offers _ fires => exact fires.tally ⟨hr.numbered.ids, hr.numbered.next⟩
  | detaches drains =>
    change _ = 0 + _
    rw [Nat.zero_add]
    exact drains.tally ⟨hr.numbered.ids, hr.numbered.next⟩
  | @overtaken className _ _ request _ =>
    change 0 + 0 + 0 + _ = 0 + (r.addWatch (made r className request) .cancelled).count .fired
    rw [Registry.count_addWatch]
    simp [Slot.state]
  | @catches className _ _ request _ held _ _ =>
    change 0 + 0 + 1 + _ = 0 + (r.addWatch (made r className request) .fired).count .fired
    rw [Registry.count_addWatch]
    simp only [Slot.state, if_true]
    omega
  | @arms className requestor _ request _ _ =>
    have hid : (r.addWatch (made r className request) (.armed requestor)).state? ⟨r.nextId⟩ =
        some .armed :=
      (Registry.state?_addWatch (Sound.slot?_made hr.numbered rfl) _ _).trans (if_pos rfl)
    change 0 + (decide ((r.addWatch (made r className request) (.armed requestor)).state?
      ⟨r.nextId⟩ = some .fired)).toNat + 0 + _ =
        0 + (r.addWatch (made r className request) (.armed requestor)).count .fired
    rw [Registry.count_addWatch, hid]
    simp [Slot.state]
  | @clearedDetached w _ =>
    obtain ⟨-, -, hst⟩ := hr.ended (w, .cancelled) List.mem_cons_self
    change 0 + (decide (r.state? w.id = some .fired)).toNat + 0 + _ = 0 + _
    rw [hst]
    simp
  | @ranEarly w requestor type _ =>
    obtain ⟨-, -, hst⟩ := hr.ended (w, .fired) List.mem_cons_self
    change 0 + (decide (r.state? w.id = some .fired)).toNat + 0 + _ = 1 + _
    rw [hst]
    simp
  | ranFired fires => exact fires.tally hr.numbered
  | clearedDrained drains =>
    change _ = 0 + _
    rw [Nat.zero_add]
    exact drains.tally hr.numbered
  | clearedEarly => change 0 + 0 + 1 + _ = 1 + _; omega
  | @clearedFired w requestor type rest fired _ =>
    change 0 + 0 + (fired + 1) + _ = fired + 1 + _
    omega
  | _ => rfl

end

/-- **All fired watches are reported**, at once or by an operation in progress. -/
theorem Run.tally {s : Session ρ} {t : List (Move ρ)} (h : Run {} t s) :
    reported t + unreported s.stack = s.registry.count .fired := by
  refine (h.keeps_sound .empty
    (P := fun t r stack => reported t + unreported stack = r.count .fired)
    (fun {op} t c r n rest he hr hs => ?_) rfl).2
  have hstep := he.tally hr
  rw [unreported_onStack] at hs ⊢
  rw [reported_concat]
  change reported t + ((c.step r).next.fired +
    ((c.step r).next.returnsFired (c.step r).registry).toNat) + _ = _
  omega

/-! ## States along a run -/

theorem Run.sound_before {s : Session ρ} {t : List (Move ρ)} (h : Run {} t s) {m : Move ρ}
    (hm : m ∈ t) : ∃ q ws es, Sound m.before q (m.cause.frame?.elim [] Frame.rest ++ ws)
      (m.cause.frame?.elim [] Frame.ended ++ es) := by
  obtain ⟨t₁, t₂, s₁, s₂, -, h₁, htakes, -⟩ := h.split hm
  obtain ⟨rest, hr, hst, -⟩ := htakes.shape
  have hs := h₁.invariant
  rw [hr, hst, loose_onStack, ended_onStack] at hs
  exact ⟨_, _, _, hs⟩

theorem Run.state? {s s' : Session ρ} {t : List (Move ρ)} (h : Run s t s') (hs : s.Sound)
    {id : WatchId} {x : WatchState} (hx : s.registry.state? id = some x) :
    s'.registry.state? id = some x ∨ x = .armed ∧
      (s'.registry.state? id = some .fired ∨ s'.registry.state? id = some .cancelled) := by
  refine (h.keeps_sound hs (P := fun _ r _ => r.state? id = some x ∨
      x = .armed ∧ (r.state? id = some .fired ∨ r.state? id = some .cancelled))
    (fun {op} _ c r n rest he hr ho => ?_) (.inl hx)).2
  have hstep : ∀ {y}, r.state? id = some y → _ := fun hy => he.slots.state? hr.numbered hy
  rcases ho with ho | ⟨rfl, ho | ho⟩
  · exact hstep ho
  · exact .inr ⟨rfl, .inl ((hstep ho).resolve_right (fun hne => nomatch hne.1))⟩
  · exact .inr ⟨rfl, .inr ((hstep ho).resolve_right (fun hne => nomatch hne.1))⟩

/-- **A watch that has ended stays as it is.** -/
theorem Run.state?_ended {s s' : Session ρ} {t : List (Move ρ)} (h : Run s t s') (hs : s.Sound)
    {id : WatchId} {x : WatchState} (hx : s.registry.state? id = some x) (hne : x ≠ .armed) :
    s'.registry.state? id = some x :=
  (h.state? hs hx).resolve_right fun hh => hne hh.1

/-- **What a move has ended stays so** to the end of the run. -/
theorem Run.final {s : Session ρ} {t : List (Move ρ)} (h : Run {} t s) {m : Move ρ} (hm : m ∈ t)
    {id : WatchId} {x : WatchState} (hx : m.after.state? id = some x) (hne : x ≠ .armed) :
    s.registry.state? id = some x := by
  obtain ⟨t₁, t₂, s₁, s₂, -, h₁, htakes, h₂⟩ := h.split hm
  obtain ⟨-, -, -, hr, -⟩ := htakes.shape
  rw [← hr] at hx
  exact h₂.state?_ended ((h₁.append htakes.run).sound .empty) hx hne

theorem Run.not_armed_after {s : Session ρ} {t t₁ t₂ : List (Move ρ)} {m m' : Move ρ}
    (h : Run {} t s) (ht : t = t₁ ++ m :: t₂) (hm' : m' ∈ t₂) {id : WatchId}
    (hb : m.before.state? id = some .armed) (ha : m.after.state? id ≠ some .armed) :
    m'.before.state? id ≠ some .armed := by
  rw [ht] at h
  obtain ⟨s₁, h₁, h₂⟩ := run_append_iff.1 h
  obtain ⟨s₂, htakes, h₂⟩ := run_cons_iff.1 h₂
  obtain ⟨rest, hr, -, hr', -⟩ := htakes.shape
  have hs₁ : s₁.Sound := h₁.sound .empty
  rw [← hr] at hb
  rw [← hr'] at ha
  -- after the move the watch has ended for good
  obtain ⟨x, hne, hx⟩ : ∃ x, x ≠ .armed ∧ s₂.registry.state? id = some x := by
    rcases htakes.run.state? hs₁ hb with hx | ⟨-, hx | hx⟩
    · exact absurd hx ha
    · exact ⟨_, by decide, hx⟩
    · exact ⟨_, by decide, hx⟩
  obtain ⟨u₁, u₂, s₃, s₄, -, h₃, htakes', -⟩ := h₂.split hm'
  obtain ⟨rest', hr₃, -⟩ := htakes'.shape
  have := h₃.state?_ended (htakes.run.sound hs₁) hx hne
  rw [hr₃] at this
  rw [this]
  exact fun hh => hne (Option.some.inj hh)

/-- **Each watch is ended by one move.** -/
theorem Run.ends_once {s : Session ρ} {t : List (Move ρ)} (h : Run {} t s) {m m' : Move ρ}
    (hm : m ∈ t) (hm' : m' ∈ t) {id : WatchId} (hb : m.before.state? id = some .armed)
    (ha : m.after.state? id ≠ some .armed) (hb' : m'.before.state? id = some .armed)
    (ha' : m'.after.state? id ≠ some .armed) : m = m' := by
  obtain ⟨t₁, t₂, rfl⟩ := List.append_of_mem hm
  rcases List.mem_append.1 hm' with hin | hin
  · obtain ⟨u₁, u₂, rfl⟩ := List.append_of_mem hin
    have ht : (u₁ ++ m' :: u₂) ++ m :: t₂ = u₁ ++ m' :: (u₂ ++ m :: t₂) := by
      rw [List.append_assoc, List.cons_append]
    exact absurd hb (h.not_armed_after ht (List.mem_append_right _ List.mem_cons_self) hb' ha')
  · rcases List.mem_cons.1 hin with rfl | hin
    · rfl
    · exact absurd hb' (h.not_armed_after rfl hin hb ha)

/-- **A requestor that starts** was due: it is the one its watch was made with, and the watch has
fired. -/
theorem Run.starts_owned {s : Session ρ} {t : List (Move ρ)} (h : Run {} t s) {m : Move ρ}
    (hm : m ∈ t) {w : WatchHandle} {requestor : ρ} {type : RuntimeType}
    (hst : m.starts = some (w, requestor, type)) :
    Made t w requestor ∧ m.after.state? w.id = some .fired ∧ ∀ v ∈ m.after.armed, v.id ≠ w.id := by
  obtain ⟨t₁, t₂, s₁, s₂, rfl, h₁, htakes, -⟩ := h.split hm
  obtain ⟨rest, hr, hst₁, hr', hst₂⟩ := htakes.shape
  have howned := h₁.owned
  have hs₂ := (h₁.append htakes.run).invariant
  rw [hst₁, due_onStack] at howned
  rw [hr', hst₂, ended_onStack] at hs₂
  have hstep := effect_step m.cause m.before
  have hdue : (w, requestor) ∈ m.cause.frame?.elim [] Frame.due ∧
      (w, .fired) ∈ m.next.frame?.elim [] Frame.ended := hstep.starts hst
  obtain ⟨hdue, hended⟩ := hdue
  obtain ⟨-, -, hfired⟩ := hs₂.ended _ (List.mem_append_left _ hended)
  refine ⟨(howned.due _ (List.mem_append_left _ hdue)).mono _, hfired, fun v hv hid => ?_⟩
  have harmed := hs₂.armed v hv
  rw [hid, hfired] at harmed
  cases harmed

/-! ## Cancelling -/

/-- The moves of a call that cancels a watch: the call itself and, if the watch was armed then, the
return. -/
theorem Run.moves_of_cancel {s : Session ρ} {t : List (Move ρ)} (h : Run {} t s) {n : Nat}
    {id : WatchId} {r : Registry ρ} (hc : ⟨n, .cancel, .call (.cancel id), r⟩ ∈ t) {m : Move ρ}
    (hm : m ∈ t) (hn : m.number = n) : m = ⟨n, .cancel, .call (.cancel id), r⟩ ∨
      r.state? id = some .armed ∧
        ∃ w a, m = ⟨n, .cancel, .answer (.clearingCancelled w) a, m.before⟩ := by
  obtain ⟨k, op, c, r'⟩ := m
  subst hn
  cases c with
  | call c' => exact .inl (h.calls_unique hm hc)
  | answer f a =>
    obtain ⟨c', r₀, hc', hserves⟩ := h.told_answer hm
    cases h.calls_unique hc hc'
    cases f with
    | clearingCancelled w => exact .inr ⟨hserves.2, w, a, rfl⟩

theorem start_cancel (id : WatchId) (r : Registry ρ) :
    (r.state? id = some .armed ∧ ((Call.cancel id).start r).registry.state? id = some .cancelled ∧
      ∃ w, ((Call.cancel id).start r).next = .waits (.clearingCancelled w)) ∨
    (r.state? id ≠ some .armed ∧ ((Call.cancel id).start r).registry = r ∧
      ((Call.cancel id).start r).next = .returns false) := by
  have he := effect_start (Call.cancel id) r
  generalize ((Call.cancel id).start r).registry = r', ((Call.cancel id).start r).next = next at he
  cases he with
  | cancels _ armed =>
    exact .inl ⟨Registry.state?_of_slot? armed, Registry.state?_setSlot_self armed, _, rfl⟩
  | leaves idle => exact .inr ⟨idle, rfl, rfl⟩

/-- **A cancel returns true exactly when the watch was armed** at the call. -/
theorem Run.cancel_returns {s : Session ρ} {t : List (Move ρ)} (h : Run {} t s) {n : Nat}
    {id : WatchId} {r : Registry ρ} (hc : ⟨n, .cancel, .call (.cancel id), r⟩ ∈ t)
    {b : Operation.Result .cancel} (hb : Returned t n b) :
    b = true ↔ r.state? id = some .armed := by
  obtain ⟨c, r', hm, hret⟩ := hb
  rcases h.moves_of_cancel hc hm rfl with hm | ⟨harmed, w, a, hm⟩
  · cases hm
    rcases start_cancel id r with ⟨-, -, w, hw⟩ | ⟨hidle, -, hw⟩
    · cases hw.symm.trans hret
    · cases hw.symm.trans hret
      exact ⟨fun hh => absurd hh Bool.false_ne_true, fun hh => absurd hh hidle⟩
  · cases hm
    cases hret
    exact ⟨fun _ => harmed, fun _ => rfl⟩

theorem Run.cancel_moves {s : Session ρ} {t : List (Move ρ)} (h : Run {} t s) {n : Nat}
    {id : WatchId} {r : Registry ρ} (hc : ⟨n, .cancel, .call (.cancel id), r⟩ ∈ t) :
    (∃ m ∈ t, m.number = n ∧ m.before.state? id = some .armed ∧
      m.after.state? id = some .cancelled) ↔ r.state? id = some .armed := by
  constructor
  · rintro ⟨m, hm, hn, hb, ha⟩
    rcases h.moves_of_cancel hc hm hn with rfl | ⟨harmed, -⟩
    · exact hb
    · exact harmed
  · intro hr
    refine ⟨_, hc, rfl, hr, ?_⟩
    rcases start_cancel id r with ⟨-, ha, -⟩ | ⟨hidle, -⟩
    · exact ha
    · exact absurd hr hidle

/-! ## The main statement -/

/-- **What a run does with a watch.** -/
structure OneShot (t : List (Move ρ)) (s : Session ρ) : Prop where
  moves : ∀ m ∈ t, ∀ id x, m.before.state? id = some x → m.after.state? id = some x ∨
    x = .armed ∧ (m.after.state? id = some .fired ∨ m.after.state? id = some .cancelled)
  final : ∀ m ∈ t, ∀ id x, m.after.state? id = some x → x ≠ .armed → s.registry.state? id = some x
  /-- A requestor that starts is the one its watch was made with; the watch has fired and is off
  the armed list. -/
  start : ∀ m ∈ t, ∀ w requestor type, m.starts = some (w, requestor, type) →
    Made t w requestor ∧ m.after.state? w.id = some .fired ∧ ∀ v ∈ m.after.armed, v.id ≠ w.id
  once : ∀ id, starts t id ≤ 1
  never : ∀ id, s.registry.state? id = some .cancelled → starts t id = 0
  settled : s.stack = [] →
    ∀ id, starts t id = if s.registry.state? id = some .fired then 1 else 0
  /-- A cancel returns true when its call has taken the watch from armed to cancelled. -/
  cancel : ∀ n id (b : Operation.Result .cancel), Called t n (.cancel id) → Returned t n b →
    (b = true ↔ ∃ m ∈ t, m.number = n ∧ m.before.state? id = some .armed ∧
      m.after.state? id = some .cancelled)
  cancelOnce : ∀ n n' id, Called t n (.cancel id) → Called t n' (.cancel id) →
    @Returned ρ t n .cancel true → @Returned ρ t n' .cancel true → n = n'
  /-- A cancel of a watch that is not armed returns false at once: it asks nothing and changes
  nothing. -/
  cancelEnded : ∀ n id r, ⟨n, .cancel, .call (.cancel id), r⟩ ∈ t → r.state? id ≠ some .armed →
    @Returned ρ t n .cancel false ∧
      ∀ m ∈ t, m.number = n → m.next.frame? = none ∧ m.after = m.before
  /-- While nothing is in progress, all fired watches have been reported. -/
  tally : s.stack = [] →
    (t.map fun m => m.next.fired).sum + (t.countP fun m => m.next.returnsFired m.after) =
      s.registry.count .fired

/-- **Watches are one-shot** in every run. -/
theorem one_shot {s : Session ρ} {t : List (Move ρ)} (h : Run {} t s) : OneShot t s := by
  have hone : ∀ id, firedAt s.registry id ≤ 1 := fun id => by
    unfold firedAt
    split <;> omega
  refine ⟨fun m hm id x hx => ?_, fun m hm id x hx hne => ?_, fun m hm w requestor type hst => ?_,
    fun id => ?_, fun id hid => ?_, fun hst id => ?_, fun n id b ⟨r, hc⟩ hb => ?_,
    fun n n' id ⟨r, hc⟩ ⟨r', hc'⟩ hb hb' => ?_, fun n id r hc hne => ?_, fun hst => ?_⟩
  · obtain ⟨q, ws, es, hr⟩ := h.sound_before hm
    exact (effect_step m.cause m.before).slots.state? hr.numbered hx
  · exact h.final hm hx hne
  · exact h.starts_owned hm hst
  · have := h.starts_eq id
    have := hone id
    omega
  · have := h.starts_eq id
    rw [firedAt, hid, if_neg (by simp)] at this
    omega
  · have := h.starts_eq id
    rw [hst] at this
    exact this
  · rw [h.cancel_returns hc hb, h.cancel_moves hc]
  · have harmed := (h.cancel_returns hc hb).1 rfl
    have harmed' := (h.cancel_returns hc' hb').1 rfl
    obtain ⟨m, hm, rfl, hmb, hma⟩ := (h.cancel_moves hc).2 harmed
    obtain ⟨m', hm', rfl, hmb', hma'⟩ := (h.cancel_moves hc').2 harmed'
    rw [h.ends_once hm hm' hmb (by simp [hma]) hmb' (by simp [hma'])]
  · rcases start_cancel id r with ⟨harmed, -⟩ | ⟨-, hafter, hnext⟩
    · exact absurd harmed hne
    · refine ⟨⟨_, _, hc, hnext⟩, fun m hm hn => ?_⟩
      rcases h.moves_of_cancel hc hm hn with rfl | ⟨harmed, -⟩
      · refine ⟨?_, hafter⟩
        change ((Call.cancel id).start r).next.frame? = none
        rw [hnext]
        rfl
      · exact absurd harmed hne
  · have := h.tally
    rw [hst] at this
    exact this

/-- Two watches wait for one request. The requestor of the first cancels the second, which is on the
list of the dispatch by then and is passed over. -/
theorem one_shot_nested : ∃ (t : List (Move Nat)) (s : Session Nat), Run {} t s ∧ s.stack = [] ∧
    s.registry.state? ⟨1⟩ = some .fired ∧ starts t ⟨1⟩ = 1 ∧
    s.registry.state? ⟨2⟩ = some .cancelled ∧ starts t ⟨2⟩ = 0 ∧ reported t = 1 ∧ OneShot t s := by
  have harm := (((Run.nil (s := ({} : Session Nat))).call (.arm "A" 0)).answer
    (Except.ok ⟨5⟩)).call (.arm "LA;" 1)
  have hfire := ((harm.answer (Except.ok ⟨5⟩)).call (.dispatch ⟨⟨5⟩, ⟨⟨9⟩, "A"⟩⟩)).answer ()
  have h := ((hfire.call (.cancel ⟨2⟩)).answer ()).answer ()
  exact ⟨_, _, h, rfl, rfl, rfl, rfl, rfl, rfl, one_shot h⟩

end DebugMap.Watch
