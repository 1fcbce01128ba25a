import DebugMap.Proofs.Watch.Causes
import DebugMap.Proofs.Watch.Ledger

/-!
# Detaching while registrations are in flight

A registration remembers how many detachments there were when it was called, and compares when its
request is named. The counter of the registry is the number of detachments called so far
(`Run.detachEpoch_eq`), so the two differ just if one was called in between (`Run.epoch_eq_iff`).

Main statement: `detach_while_arming`. The registrations that a detachment finds in flight make
cancelled watches; those that are called later are none of its business, and what was dispatched
before it does not fire their watches.
-/

set_option autoImplicit false

namespace DebugMap

theorem eq_of_not_later {α : Type} {xs : List α} {P : α → Prop}
    (h : ∀ ys x zs, xs = ys ++ x :: zs → P x → ∀ y ∈ ys, ¬ P y) {x y : α} (hx : x ∈ xs) (hy : y ∈ xs)
    (px : P x) (py : P y) : x = y := by
  obtain ⟨ys, zs, rfl⟩ := List.append_of_mem hx
  rcases List.mem_append.1 hy with hy | hy
  · exact absurd py (h ys x zs rfl px y hy)
  · rcases List.mem_cons.1 hy with rfl | hy
    · rfl
    · obtain ⟨us, vs, rfl⟩ := List.append_of_mem hy
      have hsplit : ys ++ x :: (us ++ y :: vs) = (ys ++ x :: us) ++ y :: vs := by
        rw [List.append_assoc, List.cons_append]
      have hmem : x ∈ ys ++ x :: us := List.mem_append_right _ List.mem_cons_self
      exact absurd px (h _ y vs hsplit py x hmem)

end DebugMap

namespace DebugMap.Watch

variable {ρ : Type}

/-! ## Counting detachments -/

def Cause.detaches : {op : Operation} → Cause ρ op → Bool
  | _, .call .detach => true
  | _, _ => false

def detachments (t : List (Move ρ)) : Nat :=
  t.countP fun m => m.cause.detaches

theorem Move.eq_of_detaches {m : Move ρ} (h : m.cause.detaches = true) :
    m = ⟨m.number, .detach, .call .detach, m.before⟩ := by
  obtain ⟨n, op, c, r⟩ := m
  cases c with
  | call c =>
    cases c with
    | detach => rfl
    | _ => cases h
  | answer f a => cases h

theorem detachments_pos {t : List (Move ρ)} : 0 < detachments t ↔ ∃ n, Called t n .detach := by
  rw [detachments, List.countP_pos_iff]
  constructor
  · rintro ⟨m, hm, hd⟩
    rw [Move.eq_of_detaches hd] at hm
    exact ⟨m.number, m.before, hm⟩
  · rintro ⟨n, r, hm⟩
    exact ⟨_, hm, rfl⟩

section
variable {r r' : Registry ρ} {op : Operation} {c : Cause ρ op} {next : Next ρ op}

theorem Ends.detachEpoch_eq {x : Slot ρ} {wait : WatchHandle → ρ → List WatchHandle → Frame ρ op}
    {result : op.Result} {ws : List WatchHandle} (he : Ends x wait result ws r r' next) :
    r'.detachEpoch = r.detachEpoch := by
  cases he <;> rfl

theorem Effect.detachEpoch_eq (he : Effect r c r' next) :
    r'.detachEpoch = r.detachEpoch + c.detaches.toNat := by
  cases he with
  | offers _ fires => exact fires.detachEpoch_eq
  | detaches drains => exact drains.detachEpoch_eq
  | ranFired fires => exact fires.detachEpoch_eq
  | clearedDrained drains => exact drains.detachEpoch_eq
  | _ => rfl

end

/-- **The registry counts the detachments.** -/
theorem Run.detachEpoch_eq {s s' : Session ρ} {t : List (Move ρ)} (h : Run s t s') :
    s'.registry.detachEpoch = s.registry.detachEpoch + detachments t := by
  refine h.keeps (P := fun t r _ => r.detachEpoch = s.registry.detachEpoch + detachments t)
    (fun t c r n rest ih => ?_) rfl
  have hstep := (effect_step c r).detachEpoch_eq
  rw [detachments, List.countP_append, ← detachments, List.countP_singleton]
  change (c.step r).registry.detachEpoch = _ + (detachments t + if c.detaches then 1 else 0)
  cases hd : c.detaches with
  | false =>
    rw [hd] at hstep
    exact hstep.trans ih
  | true =>
    rw [hd] at hstep
    exact hstep.trans (congrArg (· + 1) ih)

/-! ## Registrations and the watches they make -/

theorem Run.handle? {s s' : Session ρ} {t : List (Move ρ)} (h : Run s t s') (hs : s.Sound)
    {id : WatchId} {w : WatchHandle} (hw : s.registry.handle? id = some w) :
    s'.registry.handle? id = some w :=
  (h.keeps_sound hs (P := fun _ r _ => r.handle? id = some w)
    (fun _ _ _ _ _ he hr hw => he.slots.handle? hr.numbered hw) hw).2

section
variable {s : Session ρ} {t : List (Move ρ)}

/-- A detachment has been called since call number `k`. -/
def Detached (t : List (Move ρ)) (k : Nat) : Prop :=
  ∃ n, k < n ∧ Called t n .detach

theorem not_detached (h : detachments t = 0) (k : Nat) : ¬ Detached t k :=
  fun ⟨n, _, hc⟩ => Nat.ne_of_gt (detachments_pos.2 ⟨n, hc⟩) h

/-- **The epoch of a registration** is the registry's just if no detachment was called since. -/
theorem Run.epoch_eq_iff (h : Run {} t s) {k : Nat} {className : String} {requestor : ρ}
    {epoch : Nat} (hp : ⟨k, .arm, .requesting className requestor epoch⟩ ∈ s.stack) :
    s.registry.detachEpoch = epoch ↔ ¬ Detached t k := by
  obtain ⟨c, r, hc, hserves⟩ := h.told _ hp
  obtain ⟨t₁, t₂, s₁, s₂, rfl, h₁, htakes, h₂⟩ := h.split hc
  obtain ⟨rfl, rfl, -⟩ := htakes.call_eq
  have hepoch : epoch = s₁.registry.detachEpoch := by
    cases c
    exact hserves.2.2
  have hcall : s₂.registry.detachEpoch = s₁.registry.detachEpoch := by
    rw [htakes.run.detachEpoch_eq]
    cases c
    rfl
  have hcalls : s₂.calls = s₁.calls + 1 := htakes.calls_eq
  rw [hepoch, h₂.detachEpoch_eq, hcall]
  -- the detachments with larger numbers are those called since
  have hsince : Detached (t₁ ++ ⟨s₁.calls, .arm, .call c, s₁.registry⟩ :: t₂) s₁.calls ↔
      0 < detachments t₂ := by
    rw [detachments_pos]
    constructor
    · rintro ⟨n, hn, r, hm⟩
      refine ⟨n, r, ?_⟩
      rcases List.mem_append.1 hm with hm | hm
      · have := (h₁.number_lt.2 hm).2
        omega
      · rcases List.mem_cons.1 hm with hm | hm
        · cases hm
        · exact hm
    · rintro ⟨n, r, hm⟩
      have := (h₂.number_lt.2 hm).1
      exact ⟨n, by omega, r, List.mem_append_right _ (List.mem_cons_of_mem _ hm)⟩
  rw [hsince]
  omega

theorem Run.not_requesting (h : Run {} t s) {m : Move ρ} (hm : m ∈ t)
    (hf : m.cause.frame?.any Frame.isRequesting = true) : ∀ p ∈ s.stack,
      p.frame.isRequesting = true → p.number ≠ m.number := by
  obtain ⟨t₁, t₂, s₁, s₂, -, h₁, htakes, h₂⟩ := h.split hm
  obtain ⟨rest, -, -, -, hcalls⟩ := htakes.below h₁.ordered
  intro p hp hreq hn
  rcases h₂.requesting hp hreq with hp | hle
  · exact htakes.not_requesting h₁.ordered hf hp hreq hn
  · omega

/-- **The request of a registration is answered once.** -/
theorem Run.named_once (h : Run {} t s) {m m' : Move ρ} (hm : m ∈ t) (hm' : m' ∈ t)
    (hf : m.cause.frame?.any Frame.isRequesting = true)
    (hf' : m'.cause.frame?.any Frame.isRequesting = true) (hn : m.number = m'.number) : m = m' := by
  refine eq_of_not_later (P := fun x => x.cause.frame?.any Frame.isRequesting = true ∧
    x.number = m.number) (fun t₁ m t₂ ht ⟨hf, hn⟩ m' hm' ⟨hf', hn'⟩ => ?_) hm hm' ⟨hf, rfl⟩
      ⟨hf', hn.symm⟩
  -- the later answer would find the registration over
  rw [ht] at h
  obtain ⟨s₁, h₁, h₂⟩ := run_append_iff.1 h
  obtain ⟨s₂, htakes, -⟩ := run_cons_iff.1 h₂
  obtain ⟨rest, -, hst, -⟩ := htakes.shape
  obtain ⟨f, hc, hreq⟩ := (Option.any_eq_true _ _).1 hf
  have hp : (⟨m.number, m.op, f⟩ : Pending ρ) ∈ s₁.stack := by
    rw [hst]
    exact List.mem_append_left _ (mem_onStack.2 ⟨f, hc, rfl⟩)
  exact h₁.not_requesting hm' hf' _ hp hreq (hn.trans hn'.symm)

theorem Move.requesting_of_makes {m : Move ρ} {w : WatchHandle} {requestor : ρ}
    (h : m.cause.makes m.before = some (w, requestor)) :
    m.cause.frame?.any Frame.isRequesting = true := by
  obtain ⟨epoch, hmove, -⟩ := Move.eq_of_makes h
  rw [hmove]
  rfl

theorem Run.fresh_made (h : Run {} t s) : ∀ p ∈ s.stack, ∀ w ∈ p.frame.fresh,
    ∃ m ∈ t, m.number = p.number ∧ ∃ requestor, m.cause.makes m.before = some (w, requestor) := by
  refine h.keeps (P := fun t _ stack => ∀ p ∈ stack, ∀ w ∈ p.frame.fresh, ∃ m ∈ t,
    m.number = p.number ∧ ∃ requestor, m.cause.makes m.before = some (w, requestor))
    (fun {op} t c r n rest ih p hp w hw => ?_) (by simp)
  have hkeep : (∃ m ∈ t, m.number = p.number ∧ ∃ requestor,
      m.cause.makes m.before = some (w, requestor)) → ∃ m ∈ t ++ [⟨n, op, c, r⟩],
        m.number = p.number ∧ ∃ requestor, m.cause.makes m.before = some (w, requestor) := by
    rintro ⟨m, hm, hmade⟩
    exact ⟨m, List.mem_append_left _ hm, hmade⟩
  rcases List.mem_append.1 hp with hp | hp
  · obtain ⟨f, hn, rfl⟩ := mem_onStack.1 hp
    have hin : w ∈ c.frame?.elim [] Frame.fresh ++ (c.makes r).toList.map Prod.fst := by
      rw [← (effect_step c r).fresh]
      exact List.mem_append_right _ (mem_elim.2 ⟨f, hn, hw⟩)
    rcases List.mem_append.1 hin with hin | hin
    · obtain ⟨f₀, hc, hin⟩ := mem_elim.1 hin
      rw [hc] at ih
      exact hkeep (ih ⟨n, op, f₀⟩ List.mem_cons_self w hin)
    · obtain ⟨e, he, rfl⟩ := List.mem_map.1 hin
      exact ⟨_, List.mem_append_right _ List.mem_cons_self, rfl, e.2, Option.mem_toList.1 he⟩
  · exact hkeep (ih p (List.mem_append_right _ hp) w hw)

/-- **A registration returns the watch that it has made**, whatever it returns. -/
theorem Run.returns_made (h : Run {} t s) {m : Move ρ} (hm : m ∈ t) {w : WatchHandle} {requestor : ρ}
    (hmade : m.cause.makes m.before = some (w, requestor)) {result : Operation.Result .arm}
    (hret : Returned t m.number result) : result = .ok w := by
  have hreq := Move.requesting_of_makes hmade
  -- the request is answered once, so what the registration has made is this watch
  have hsame : ∀ {v : WatchHandle}, (∃ m' ∈ t, m'.number = m.number ∧ ∃ requestor',
      m'.cause.makes m'.before = some (v, requestor')) → v = w := by
    rintro v ⟨m', hm', hn, requestor', hmade'⟩
    obtain rfl := h.named_once hm' hm (Move.requesting_of_makes hmade') hreq hn
    exact congrArg Prod.fst (Option.some.inj (hmade'.symm.trans hmade))
  obtain ⟨c, r, hmem, hnext⟩ := hret
  obtain ⟨t₁, t₂, s₁, s₂, ht, h₁, htakes, -⟩ := h.split hmem
  have hfresh : ∀ {f : Frame ρ .arm} {a : f.question.Answer} {v : WatchHandle},
      c = .answer f a → v ∈ f.fresh → v = w := by
    rintro f a v rfl hv
    obtain ⟨stack, hst, -⟩ := htakes.answer_eq
    obtain ⟨m', hm', hmade'⟩ := h₁.fresh_made ⟨m.number, .arm, f⟩ (hst ▸ List.mem_cons_self) v hv
    exact hsame ⟨m', ht ▸ List.mem_append_left _ hm', hmade'⟩
  have he := effect_step c r
  rw [hnext] at he
  generalize (c.step r).registry = r' at he
  cases he with
  | refuses noName =>
    obtain ⟨className, ⟨r', hc⟩, hname⟩ := h.called_of_makes hm hmade
    cases h.calls_unique hmem hc
    rw [noName] at hname
    cases hname
  | fails =>
    rw [h.named_once hm hmem hreq rfl rfl] at hmade
    cases hmade
  | arms attached unclaimed =>
    rw [hsame ⟨_, hmem, rfl, _, rfl⟩]
  | clearedDetached => rw [hfresh rfl List.mem_cons_self]
  | ranEarly => rw [hfresh rfl List.mem_cons_self]

theorem Run.handle?_of_makes (h : Run {} t s) {m : Move ρ} (hm : m ∈ t) {w : WatchHandle}
    {requestor : ρ} (hmade : m.cause.makes m.before = some (w, requestor)) :
    s.registry.handle? w.id = some w := by
  obtain ⟨t₁, t₂, s₁, s₂, -, h₁, htakes, h₂⟩ := h.split hm
  obtain ⟨-, hr, -, hr', -⟩ := htakes.shape
  have hs₁ := h₁.invariant
  rw [hr] at hs₁
  refine h₂.handle? ((h₁.append htakes.run).sound .empty) ?_
  rw [hr']
  exact (effect_step m.cause m.before).handle_made hs₁.numbered hmade

theorem Run.handle?_before (h : Run {} t s) {m : Move ρ} {s' : Session ρ} (hm : Takes s m s')
    {w v : WatchHandle} {requestor : ρ} (hmade : m.cause.makes m.before = some (w, requestor))
    (hv : s.registry.handle? v.id = some v) : v.id ≠ w.id := by
  obtain ⟨-, hr, -⟩ := hm.shape
  have hs := h.invariant
  rw [hr] at hs hv
  exact Sound.id_ne_made hs.numbered (Cause.id_of_makes hmade) hv

/-- **A watch is made once.** -/
theorem Run.made_once (h : Run {} t s) {m m' : Move ρ} (hm : m ∈ t) (hm' : m' ∈ t) {w : WatchHandle}
    {requestor requestor' : ρ} (hmade : m.cause.makes m.before = some (w, requestor))
    (hmade' : m'.cause.makes m'.before = some (w, requestor')) : m = m' := by
  refine eq_of_not_later (P := fun x => ∃ requestor, x.cause.makes x.before = some (w, requestor))
    (fun t₁ m t₂ ht ⟨_, hmade⟩ m' hm' ⟨_, hmade'⟩ => ?_) hm hm' ⟨_, hmade⟩ ⟨_, hmade'⟩
  rw [ht] at h
  obtain ⟨s₁, h₁, h₂⟩ := run_append_iff.1 h
  obtain ⟨s₂, htakes, -⟩ := run_cons_iff.1 h₂
  exact h₁.handle?_before htakes hmade (h₁.handle?_of_makes hm' hmade') rfl

end

/-! ## What becomes of the watch -/

section
variable {s s' : Session ρ} {t : List (Move ρ)} {m : Move ρ} {w : WatchHandle} {requestor : ρ}

/-- **A registration ends in one of three ways:** the watch is cancelled if there was a detachment
since the call, fired if an event that it awaits is held, and armed otherwise, in which case the
registration returns at once. -/
theorem Run.outcome (h : Run {} t s) (hm : Takes s m s')
    (hmade : m.cause.makes m.before = some (w, requestor)) :
    (Detached t m.number → m.after.state? w.id = some .cancelled) ∧
      (¬ Detached t m.number → (∃ d ∈ (custody t).held, w.awaits d.event = true) →
        m.after.state? w.id = some .fired) ∧
      (¬ Detached t m.number → (∀ d ∈ (custody t).held, w.awaits d.event = false) →
        m.after.state? w.id = some .armed ∧ w ∈ m.after.armed ∧ m.next.frame? = none) := by
  have hr := h.invariant
  obtain ⟨epoch, hmove, hw⟩ := Move.eq_of_makes hmade
  have he : Effect m.before m.cause m.after m.next := effect_step m.cause m.before
  generalize m.after = r', m.next = next at he ⊢
  obtain ⟨k, op, c, r⟩ := m
  cases hmove
  obtain ⟨stack, hst, rfl, -⟩ := hm.answer_eq
  have hepoch := h.epoch_eq_iff (hst ▸ List.mem_cons_self)
  have hheld : ∀ e, e ∈ s.registry.held ↔ ∃ d ∈ (custody t).held, d.event = e := by
    intro e
    rw [h.held_eq, List.mem_map]
  have hadd : ∀ x, (s.registry.addWatch w x).state? w.id = some x.state := by
    intro x
    have hid : w.id = ⟨s.registry.nextId⟩ := congrArg WatchHandle.id hw
    exact (Registry.state?_addWatch (Sound.slot?_made hr.numbered hid) x w.id).trans (if_pos rfl)
  cases he with
  | overtaken detached =>
    rw [← hw]
    exact ⟨fun _ => hadd .cancelled, fun hnot => absurd (hepoch.2 hnot) detached,
      fun hnot => absurd (hepoch.2 hnot) detached⟩
  | @catches _ _ _ _ event held attached took =>
    rw [← hw] at took ⊢
    refine ⟨fun hd => absurd hd (hepoch.1 attached), fun _ _ => hadd .fired, fun _ hnone => ?_⟩
    obtain ⟨i, hi, hevent, -⟩ := takeHeld_eq_some took
    obtain ⟨hlt, hawaits, -⟩ := List.findIdx?_eq_some_iff_getElem.1 hi
    obtain ⟨d, hd, hde⟩ := (hheld _).1 (List.getElem_mem hlt)
    rw [← hde, hnone d hd] at hawaits
    cases hawaits
  | arms attached unclaimed =>
    rw [← hw] at unclaimed ⊢
    refine ⟨fun hd => absurd hd (hepoch.1 attached), fun _ ⟨d, hd, hawaits⟩ => ?_,
      fun _ _ => ⟨hadd (.armed requestor), List.mem_append_right _ List.mem_cons_self, rfl⟩⟩
    have hnone := List.findIdx?_eq_none_iff.1 (takeHeld_eq_none.1 unclaimed)
    rw [hnone d.event ((hheld _).2 ⟨d, hd, rfl⟩)] at hawaits
    cases hawaits

theorem Run.ended_of_waits (h : Run {} t s) (hm : Takes s m s')
    (hmade : m.cause.makes m.before = some (w, requestor)) (hwaits : m.next.frame? ≠ none) :
    ∃ x, m.after.state? w.id = some x ∧ x ≠ .armed := by
  obtain ⟨hcancelled, hfired, harmed⟩ := h.outcome hm hmade
  by_cases hd : Detached t m.number
  · exact ⟨_, hcancelled hd, by decide⟩
  · by_cases hheld : ∃ d ∈ (custody t).held, w.awaits d.event = true
    · exact ⟨_, hfired hd hheld, by decide⟩
    · refine absurd (harmed hd fun d hin => ?_).2.2 hwaits
      simpa using fun hw => hheld ⟨d, hin, hw⟩

/-- **A detachment ends only watches that were armed** when it was called. -/
theorem Run.slot?_of_detach (h : Run {} t s) {n : Nat} {r : Registry ρ}
    (hd : ⟨n, .detach, .call .detach, r⟩ ∈ t) (hw : ∀ v ∈ r.armed, v.id ≠ w.id) (hm : m ∈ t)
    (hn : m.number = n) : m.after.slot? w.id = m.before.slot? w.id := by
  have he : Effect m.before m.cause m.after m.next := effect_step m.cause m.before
  generalize m.after = r', m.next = next at he ⊢
  obtain ⟨k, op, c, r₁⟩ := m
  subst hn
  cases c with
  | call c =>
    cases h.calls_unique hd hm
    cases he with
    | detaches drains => exact drains.slot?_eq hw
  | answer f a =>
    obtain ⟨c, r₀, hc, hserves⟩ := h.told_answer hm
    cases h.calls_unique hd hc
    cases he with
    | clearedDrained drains =>
      exact drains.slot?_eq fun v hv => hw v (hserves v (List.mem_cons_of_mem _ hv))

end

section
variable {s : Session ρ} {u v t : List (Move ρ)} {m m' : Move ρ} {w : WatchHandle} {requestor : ρ}
  {r : Registry ρ}

theorem Run.unlisted_before {s₁ : Session ρ} (h₁ : Run {} t s₁) (h₂ : Run s₁ (u ++ m :: v) s)
    (hmade : m.cause.makes m.before = some (w, requestor)) : w ∉ s₁.registry.armed := by
  intro hin
  have hs₁ := h₁.invariant
  obtain ⟨s₂, hu, hv⟩ := run_append_iff.1 h₂
  obtain ⟨s₃, htakes, -⟩ := run_cons_iff.1 hv
  have hknown := hu.handle? (h₁.sound .empty) (hs₁.handle_armed hin)
  exact (h₁.append hu).handle?_before htakes hmade hknown rfl

theorem Run.unlisted_after (h : Run {} (u ++ m :: v) s) {x : WatchState}
    (hx : m.after.state? w.id = some x) (hne : x ≠ .armed) : w ∉ s.registry.armed := by
  intro hin
  have hs := h.invariant
  obtain ⟨s₁, h₁, h₂⟩ := run_append_iff.1 h
  obtain ⟨s₂, htakes, h₃⟩ := run_cons_iff.1 h₂
  obtain ⟨-, -, -, hr, -⟩ := htakes.shape
  have hstate := h₃.state?_ended ((h₁.append htakes.run).sound .empty) (hr ▸ hx) hne
  rw [hs.armed w hin] at hstate
  exact hne (Option.some.inj hstate).symm

/-- **A watch that has ended from the start** is never on the armed list. -/
theorem Run.unlisted (h : Run {} (u ++ m :: v) s)
    (hmade : m.cause.makes m.before = some (w, requestor)) {x : WatchState}
    (hx : m.after.state? w.id = some x) (hne : x ≠ .armed) :
    ∀ m' ∈ u ++ m :: v, w ∉ m'.before.armed ∧ w ∉ m'.after.armed := by
  obtain ⟨s₁, h₁, h₂⟩ := run_append_iff.1 h
  obtain ⟨s₂, htakes, h₃⟩ := run_cons_iff.1 h₂
  obtain ⟨-, hr, -, hr', -⟩ := htakes.shape
  have hbefore : ∀ {t₁ t₂ s'}, Run {} t₁ s' → Run s' t₂ s₁ → w ∉ s'.registry.armed :=
    fun ht₁ ht₂ => ht₁.unlisted_before (ht₂.append h₂) hmade
  have hafter : ∀ {t s'}, Run s₂ t s' → w ∉ s'.registry.armed :=
    fun ht => (h₁.append (.cons htakes ht)).unlisted_after hx hne
  intro m' hm'
  rcases List.mem_append.1 hm' with hm' | hm'
  · obtain ⟨u₁, u₂, s₃, s₄, -, h₄, htakes', h₅⟩ := h₁.split hm'
    obtain ⟨-, hr₃, -, hr₄, -⟩ := htakes'.shape
    rw [← hr₃, ← hr₄]
    exact ⟨hbefore h₄ (.cons htakes' h₅), hbefore (h₄.append htakes'.run) h₅⟩
  · rcases List.mem_cons.1 hm' with rfl | hm'
    · rw [← hr, ← hr']
      exact ⟨hbefore h₁ .nil, hafter .nil⟩
    · obtain ⟨v₁, v₂, s₃, s₄, -, h₄, htakes', -⟩ := h₃.split hm'
      obtain ⟨-, hr₃, -, hr₄, -⟩ := htakes'.shape
      rw [← hr₃, ← hr₄]
      exact ⟨hafter h₄, hafter (h₄.append htakes'.run)⟩

theorem Run.number_of_early (h : Run {} t s) (hm : m ∈ t)
    (hmade : m.cause.makes m.before = some (w, requestor)) {n : Nat} {requestor' : ρ}
    {type : RuntimeType} {a : Unit}
    (hm' : ⟨n, .arm, .answer (.clearingEarly w requestor' type) a, r⟩ ∈ t) : n = m.number := by
  obtain ⟨t₁, t₂, s₁, s₂, ht, h₁, htakes, -⟩ := h.split hm'
  obtain ⟨stack, hst, -⟩ := htakes.answer_eq
  obtain ⟨m₁, hm₁, hn, requestor₁, hmade₁⟩ := h₁.fresh_made _ (hst ▸ List.mem_cons_self) w
    List.mem_cons_self
  rw [← h.made_once (ht ▸ List.mem_append_left _ hm₁) hm hmade₁ hmade]
  exact hn.symm

end

/-! ## The main statement -/

/-- **A registration whose request is named after a detachment found it in flight**, in the move `m`
between `u` and `v`: its watch `w` is cancelled from the start. -/
structure Swept (u : List (Move ρ)) (m : Move ρ) (v : List (Move ρ)) (s : Session ρ)
    (w : WatchHandle) : Prop where
  state : m.after.state? w.id = some .cancelled
  stays : s.registry.state? w.id = some .cancelled
  unlisted : ∀ m' ∈ u ++ m :: v, w ∉ m'.after.armed
  starts : starts (u ++ m :: v) w.id = 0
  cleared : (clearedFor (u ++ m :: v)).count w = 1
  returns : ∀ result : Operation.Result .arm, Returned (u ++ m :: v) m.number result →
    result = .ok w

/-- **A registration that was called after detachment number `n`** and whose request is named in the
move `m` between `u` and `v`: the detachment does nothing to its watch `w`. -/
structure Unswept (n : Nat) (u : List (Move ρ)) (m : Move ρ) (v : List (Move ρ))
    (w : WatchHandle) : Prop where
  /-- It takes another detachment, after the call, to cancel the watch from the start. -/
  cancelled : Detached u m.number → m.after.state? w.id = some .cancelled
  fired : ¬ Detached u m.number → (∃ d ∈ (custody u).held, w.awaits d.event = true) →
    m.after.state? w.id = some .fired
  armed : ¬ Detached u m.number → (∀ d ∈ (custody u).held, w.awaits d.event = false) →
    m.after.state? w.id = some .armed ∧ w ∈ m.after.armed ∧ m.next.frame? = none
  held : m.before.held = (custody u).held.map Delivery.event ∧ ∀ d ∈ (custody u).held, n < d.number
  spared : ∀ m' ∈ u ++ m :: v, m'.number = n → m'.after.state? w.id = m'.before.state? w.id
  /-- The requestor starts for events that were dispatched after the detachment. -/
  starts : ∀ m' ∈ u ++ m :: v, ∀ requestor type, m'.starts = some (w, requestor, type) →
    ∀ d, Feeds (u ++ m :: v) d m'.number → n < d.number
  returns : ∀ result : Operation.Result .arm, Returned (u ++ m :: v) m.number result →
    result = .ok w

section
variable {s : Session ρ} {u v : List (Move ρ)} {m : Move ρ} {w : WatchHandle} {requestor : ρ}
  {n : Nat} {r : Registry ρ}

theorem Run.swept (h : Run {} (u ++ m :: v) s) (hd : ⟨n, .detach, .call .detach, r⟩ ∈ u)
    (hlt : m.number < n) (hmade : m.cause.makes m.before = some (w, requestor)) :
    Swept u m v s w := by
  obtain ⟨s₁, h₁, h₂⟩ := run_append_iff.1 h
  obtain ⟨s₂, htakes, h₃⟩ := run_cons_iff.1 h₂
  have hm : m ∈ u ++ m :: v := List.mem_append_right _ List.mem_cons_self
  obtain ⟨-, -, -, hr, -⟩ := htakes.shape
  have hstate : m.after.state? w.id = some .cancelled :=
    (h₁.outcome htakes hmade).1 ⟨n, hlt, r, hd⟩
  have hafter : s.registry.state? w.id = some .cancelled := by
    refine h₃.state?_ended ((h₁.append htakes.run).sound .empty) ?_ (by decide)
    rw [hr]
    exact hstate
  refine ⟨hstate, hafter, fun m' hm' => (h.unlisted hmade hstate (by decide) m' hm').2,
    (one_shot h).never _ hafter, ?_, fun result hret => h.returns_made hm hmade hret⟩
  have hcount := h.ledger.count w (h.handle?_of_makes hm hmade)
  rw [hafter] at hcount
  simpa using hcount

theorem Run.number_lt_of_armed (h : Run {} (u ++ m :: v) s)
    (hmade : m.cause.makes m.before = some (w, requestor)) {k : Nat} {op : Operation}
    {c : Call ρ op} (hc : ⟨k, op, .call c, r⟩ ∈ u ++ m :: v) (hw : w ∈ r.armed) : m.number < k := by
  obtain ⟨s₁, h₁, h₂⟩ := run_append_iff.1 h
  obtain ⟨s₂, htakes, h₃⟩ := run_cons_iff.1 h₂
  rcases List.mem_append.1 hc with hc | hc
  · obtain ⟨u₁, u₂, s₃, s₄, -, h₄, htakes', h₅⟩ := h₁.split hc
    obtain ⟨-, rfl, -⟩ := htakes'.call_eq
    exact absurd hw (h₄.unlisted_before (.append (.cons htakes' h₅) h₂) hmade)
  · rcases List.mem_cons.1 hc with rfl | hc
    · cases hmade
    · obtain ⟨rest, -, -, -, hlt⟩ := htakes.below h₁.ordered
      have := (h₃.number_lt.2 hc).1
      omega

theorem Run.feeds_after (h : Run {} (u ++ m :: v) s) (hd : ⟨n, .detach, .call .detach, r⟩ ∈ u)
    (hlt : n < m.number) (hmade : m.cause.makes m.before = some (w, requestor)) {m' : Move ρ}
    (hm' : m' ∈ u ++ m :: v) {requestor' : ρ} {type : RuntimeType}
    (hst : m'.starts = some (w, requestor', type)) {d : Delivery}
    (hfeeds : Feeds (u ++ m :: v) d m'.number) : n < d.number := by
  have hm : m ∈ u ++ m :: v := List.mem_append_right _ List.mem_cons_self
  rcases h.starts_cases hm' hst with ⟨a, hmove⟩ | ⟨e, r', hc, hw, -⟩
  · -- the registration that made the watch has taken the event
    rw [hmove] at hm'
    obtain ⟨className, ⟨r', hc⟩, -⟩ := h.called_of_makes hm hmade
    rw [h.number_of_early hm hmade hm'] at hfeeds
    rcases hfeeds with ⟨-, r'', hc'⟩ | hx
    · cases h.calls_unique hc hc'
    · obtain ⟨u₁, u₂, rfl⟩ := List.append_of_mem hd
      rw [List.append_assoc, List.cons_append] at h hx
      rcases h.claims_of_detach _ hx with hx | hlt
      · obtain ⟨s₁, h₁, h₂⟩ := run_append_iff.1 h
        obtain ⟨s₂, htakes, -⟩ := run_cons_iff.1 h₂
        obtain ⟨hn, -⟩ := htakes.call_eq
        obtain ⟨className', requestor', hc'⟩ := h₁.claims_called _ hx
        have : m.number < s₁.calls := h₁.called_lt hc'
        omega
      · exact hlt
  · -- a dispatch has fired the watch from the armed list
    have hfeeds' : Feeds (u ++ m :: v) ⟨m'.number, e⟩ m'.number := .inl ⟨rfl, r', hc⟩
    rw [h.feeds_unique hfeeds hfeeds']
    have := h.number_lt_of_armed hmade hc (List.mem_filter.1 hw).1
    change n < m'.number
    omega

theorem Run.unswept (h : Run {} (u ++ m :: v) s) (hd : ⟨n, .detach, .call .detach, r⟩ ∈ u)
    (hlt : n < m.number) (hmade : m.cause.makes m.before = some (w, requestor)) :
    Unswept n u m v w := by
  obtain ⟨s₁, h₁, h₂⟩ := run_append_iff.1 h
  obtain ⟨s₂, htakes, h₃⟩ := run_cons_iff.1 h₂
  have hm : m ∈ u ++ m :: v := List.mem_append_right _ List.mem_cons_self
  obtain ⟨-, hr, -⟩ := htakes.shape
  obtain ⟨hcancelled, hfired, harmed⟩ := h₁.outcome htakes hmade
  obtain ⟨u₁, u₂, s₃, s₄, hu, h₄, htakes', h₅⟩ := h₁.split hd
  obtain ⟨rfl, rfl, -⟩ := htakes'.call_eq
  have hcalls : s₄.calls = s₃.calls + 1 := htakes'.calls_eq
  have hs₃ := h₄.invariant
  refine ⟨hcancelled, hfired, harmed, ⟨by rw [← hr, h₁.held_eq], fun d hin => ?_⟩,
    fun m' hm' hn => ?_, fun m' hm' requestor' type hst d hfeeds =>
      h.feeds_after hd hlt hmade hm' hst hfeeds, fun result hret => h.returns_made hm hmade hret⟩
  · rw [hu, List.append_cons] at hin
    rcases (h₅.since _).1 d hin with hin | hle
    · rw [(custody_detach u₁ s₃.calls s₃.registry).1] at hin
      cases hin
    · omega
  · have hw : ∀ x ∈ s₃.registry.armed, x.id ≠ w.id := by
      intro x hx
      have hknown := (Run.cons htakes' h₅).handle? (h₄.sound .empty) (hs₃.handle_armed hx)
      exact h₁.handle?_before htakes hmade hknown
    have hslot := h.slot?_of_detach (List.mem_append_left _ hd) hw hm' hn
    rw [Registry.state?_eq, hslot, Registry.state?_eq]

end

/-- **A detachment cancels the registrations that it finds in flight**, as soon as their requests
are named, **and none that are called later**. -/
theorem detach_while_arming {t₁ t₂ u v : List (Move ρ)} {n : Nat} {r : Registry ρ}
    {s₁ s : Session ρ} {m : Move ρ} {w : WatchHandle} {requestor : ρ} (h₁ : Run {} t₁ s₁)
    (h₂ : Run s₁ (⟨n, .detach, .call .detach, r⟩ :: t₂) s)
    (ht : t₁ ++ ⟨n, .detach, .call .detach, r⟩ :: t₂ = u ++ m :: v)
    (hmade : m.cause.makes m.before = some (w, requestor)) :
    ((∃ p ∈ s₁.stack, p.frame.isRequesting = true ∧ p.number = m.number) → Swept u m v s w) ∧
      ((∃ className, Called t₂ m.number (.arm className requestor)) → Unswept n u m v w) := by
  have h := h₁.append h₂
  obtain ⟨s₂, htakes, h₃⟩ := run_cons_iff.1 h₂
  obtain ⟨hn, -, -⟩ := htakes.call_eq
  have hcalls : s₂.calls = n + 1 := htakes.calls_eq
  rw [ht] at h
  -- the request is named before the detachment, or after it
  have hsplit : m ∈ t₁ ∨ ⟨n, .detach, .call .detach, r⟩ ∈ u := by
    rcases List.append_eq_append_iff.1 ht with ⟨a, rfl, ha⟩ | ⟨b, rfl, hb⟩
    · rcases List.cons_eq_append_iff.1 ha with ⟨rfl, hm⟩ | ⟨a', rfl, -⟩
      · obtain ⟨rfl, -⟩ := List.cons.inj hm
        cases hmade
      · exact .inr (List.mem_append_right _ List.mem_cons_self)
    · rcases List.cons_eq_append_iff.1 hb with ⟨rfl, hm⟩ | ⟨b', rfl, -⟩
      · obtain ⟨rfl, -⟩ := List.cons.inj hm
        cases hmade
      · exact .inl (List.mem_append_right _ List.mem_cons_self)
  constructor
  · rintro ⟨p, hp, hreq, hpn⟩
    have hlt := h₁.ordered.lt_calls p hp
    rcases hsplit with hm | hd
    · exact absurd hpn (h₁.not_requesting hm (Move.requesting_of_makes hmade) p hp hreq)
    · exact h.swept hd (by omega) hmade
  · rintro ⟨className, r', hc⟩
    have hle := (h₃.number_lt.2 hc).1
    rcases hsplit with hm | hd
    · obtain ⟨_, hc', -⟩ := h₁.called_of_makes hm hmade
      have := h₁.called_lt hc'
      omega
    · exact h.unswept hd (by omega) hmade

/-- A registration for class A is in flight and an event for A is held when a detachment comes.
Another one for A, called thereafter, takes the event that was dispatched after the detachment, and
only then is the request of the first named. -/
theorem detach_while_arming_nested : ∃ (s : Session Nat) (u v u' v' : List (Move Nat))
    (m m' : Move Nat), Run {} (u ++ m :: v) s ∧ u ++ m :: v = u' ++ m' :: v' ∧
      Swept u m v s ⟨⟨2⟩, "A", ⟨6⟩⟩ ∧ Unswept 2 u' m' v' ⟨⟨1⟩, "A", ⟨5⟩⟩ ∧
      s.registry.state? ⟨1⟩ = some .fired ∧
      ran (u ++ m :: v) = [(⟨⟨1⟩, "A", ⟨5⟩⟩, ⟨⟨10⟩, "A"⟩)] := by
  have hold := ((Run.nil (s := ({} : Session Nat))).call (.arm "A" 0)).call
    (.dispatch ⟨⟨5⟩, ⟨⟨9⟩, "A"⟩⟩)
  have hstay : ∀ {t : List (Move Nat)} {s : Session Nat}, Run {} t s → Run s [] s := fun _ => .nil
  have hnew := ((((hstay hold).call .detach).call (.arm "LA;" 1)).call
    (.dispatch ⟨⟨5⟩, ⟨⟨10⟩, "A"⟩⟩)).answer (Except.ok ⟨5⟩)
  have h := (((hnew.answer ()).answer ()).answer (Except.ok ⟨6⟩)).answer ()
  obtain ⟨u, v, -, -, ht, -⟩ := (hold.append h).split (List.mem_append_right _
    (List.mem_append_left _ (List.mem_append_right _ List.mem_cons_self)))
  obtain ⟨u', v', -, -, ht', -⟩ := (hold.append h).split (List.mem_append_right _
    (List.mem_append_left _ (List.mem_append_left _ (List.mem_append_left _
      (List.mem_append_left _ (List.mem_append_right _ List.mem_cons_self))))))
  have hswept := (detach_while_arming hold h ht rfl).1 ⟨_, List.mem_cons_self, rfl, rfl⟩
  have hunswept := (detach_while_arming hold h ht' rfl).2 ⟨"LA;", _, List.mem_cons_self⟩
  refine ⟨_, u, v, u', v', _, _, ht ▸ hold.append h, ht.symm.trans ht', hswept, hunswept, rfl, ?_⟩
  rw [← ht]
  rfl

end DebugMap.Watch
