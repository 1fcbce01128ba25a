import DebugMap.Proofs.Watch.Custody
import DebugMap.Proofs.Watch.Detach

/-!
# What a requestor starts for

A requestor starts for an event that was dispatched: a dispatch starts requestors for its own event,
and a registration for the held one that it took. A call works on one event at most
(`Run.feeds_unique`), and a dispatch's event goes one way: it is offered to the armed watches that
await it, it is held for the registrations in flight, or it is dropped. Each watch that it is
offered to is fired by that dispatch, or a cancel comes first (`Run.offered`).

Main statement: `starts_caused`, by which each start has one cause, and each event one way to go.
-/

set_option autoImplicit false

namespace DebugMap.Watch

variable {ρ : Type}

/-! ## The event that a call works on -/

theorem binary?_of_awaits {w : WatchHandle} {e : PrepareEvent} (h : w.awaits e = true) :
    ClassName.binary? e.type.name = some w.className := by
  simp only [WatchHandle.awaits, Bool.and_eq_true, ClassName.sameClass_iff] at h
  exact h.2

theorem request_of_awaits {w : WatchHandle} {e : PrepareEvent} (h : w.awaits e = true) :
    e.request = w.request := by
  simp only [WatchHandle.awaits, Bool.and_eq_true, decide_eq_true_eq] at h
  exact h.1.symm

/-- **An event that a call works on:** a dispatch works on its own, and a registration on a held one
that it took. -/
def Feeds (t : List (Move ρ)) (d : Delivery) (k : Nat) : Prop :=
  d.number = k ∧ Called t k (.dispatch d.event) ∨ ⟨k, d⟩ ∈ (custody t).claims

def EverHeld (t : List (Move ρ)) (n : Nat) : Prop :=
  ∃ t₁ t₂, t = t₁ ++ t₂ ∧ n ∈ (custody t₁).held.map Delivery.number

theorem Move.eq_of_starts {m : Move ρ} {w : WatchHandle} {requestor : ρ} {type : RuntimeType}
    (hst : m.starts = some (w, requestor, type)) :
    (∃ a, m = ⟨m.number, .arm, .answer (.clearingEarly w requestor type) a, m.before⟩) ∨
      ∃ rest fired a, m = ⟨m.number, .dispatch,
        .answer (.clearingFired w requestor type rest fired) a, m.before⟩ := by
  obtain ⟨n, op, c, r⟩ := m
  have he : Effect r c (c.step r).registry (c.step r).next := effect_step c r
  change (c.step r).next.starts = _ at hst
  generalize (c.step r).registry = r', (c.step r).next = next at he hst
  cases he with
  | offers _ fires => cases fires.starts.symm.trans hst
  | detaches drains => cases drains.starts.symm.trans hst
  | ranFired fires => cases fires.starts.symm.trans hst
  | clearedDrained drains => cases drains.starts.symm.trans hst
  | clearedEarly =>
    cases hst
    exact .inl ⟨_, rfl⟩
  | clearedFired =>
    cases hst
    exact .inr ⟨_, _, _, rfl⟩
  | _ => cases hst

section
variable {s : Session ρ} {t : List (Move ρ)}

theorem Feeds.called (h : Run {} t s) {d : Delivery} {k : Nat} (hd : Feeds t d k) :
    Called t d.number (.dispatch d.event) := by
  rcases hd with ⟨hn, hc⟩ | hx
  · rw [hn]
    exact hc
  · exact h.deliveries_called d (List.mem_append_right _ (List.mem_map_of_mem hx))

/-- **A call works on one event** at most. -/
theorem Run.feeds_unique (h : Run {} t s) {d d' : Delivery} {k : Nat} (hd : Feeds t d k)
    (hd' : Feeds t d' k) : d = d' := by
  -- a registration is no dispatch
  have hapart : ∀ {e : PrepareEvent} {x : Delivery}, Called t k (.dispatch e) →
      ⟨k, x⟩ ∉ (custody t).claims := by
    intro e x ⟨r, hc⟩ hx
    obtain ⟨className, requestor, r', hc'⟩ := h.claims_called _ hx
    cases h.calls_unique hc hc'
  obtain ⟨n, e⟩ := d
  obtain ⟨n', e'⟩ := d'
  rcases hd with ⟨rfl, r, hc⟩ | hx <;> rcases hd' with ⟨rfl, r', hc'⟩ | hx'
  · cases h.calls_unique hc hc'
    rfl
  · exact absurd hx' (hapart ⟨r, hc⟩)
  · exact absurd hx (hapart ⟨r', hc'⟩)
  · have := List.inj_on_of_nodup_map h.claims_nodup.1 hx hx' rfl
    exact congrArg Claim.delivery this

theorem Run.starts_awaiting (h : Run {} t s) {n : Nat} {e : PrepareEvent} {r : Registry ρ}
    (hc : ⟨n, .dispatch, .call (.dispatch e), r⟩ ∈ t) {m : Move ρ} (hm : m ∈ t) (hn : m.number = n)
    {w : WatchHandle} {requestor : ρ} {type : RuntimeType}
    (hst : m.starts = some (w, requestor, type)) : w ∈ r.awaiting e ∧ e.type = type := by
  subst hn
  rcases Move.eq_of_starts hst with ⟨a, hmove⟩ | ⟨rest, fired, a, hmove⟩
  · rw [hmove] at hm
    obtain ⟨c, r', hc', -⟩ := h.told_answer hm
    cases h.calls_unique hc hc'
  · rw [hmove] at hm
    obtain ⟨c, r', hc', hserves⟩ := h.told_answer hm
    cases h.calls_unique hc hc'
    exact ⟨hserves.2 w List.mem_cons_self, hserves.1.symm⟩

/-- **A requestor is started** by a registration, which has cleared the request of the new watch, or
by a dispatch whose event the watch awaited on the armed list. -/
theorem Run.starts_cases (h : Run {} t s) {m : Move ρ} (hm : m ∈ t) {w : WatchHandle}
    {requestor : ρ} {type : RuntimeType} (hst : m.starts = some (w, requestor, type)) :
    (∃ a, m = ⟨m.number, .arm, .answer (.clearingEarly w requestor type) a, m.before⟩) ∨
      ∃ e r, ⟨m.number, .dispatch, .call (.dispatch e), r⟩ ∈ t ∧ w ∈ r.awaiting e ∧
        e.type = type := by
  rcases Move.eq_of_starts hst with hearly | ⟨rest, fired, a, hmove⟩
  · exact .inl hearly
  · have hmem := hm
    rw [hmove] at hmem
    obtain ⟨c, r, hc, -⟩ := h.told_answer hmem
    cases c with
    | dispatch e => exact .inr ⟨e, r, hc, h.starts_awaiting hc hm rfl hst⟩

/-- **A requestor starts for the event that its call works on**, which the watch awaits. -/
theorem Run.fed (h : Run {} t s) {m : Move ρ} (hm : m ∈ t) {w : WatchHandle} {requestor : ρ}
    {type : RuntimeType} (hst : m.starts = some (w, requestor, type)) :
    ∃ d, Feeds t d m.number ∧ w.awaits d.event = true ∧ d.event.type = type := by
  rcases h.starts_cases hm hst with ⟨a, hmove⟩ | ⟨e, r, hc, hw, htype⟩
  · -- a registration has taken the event
    obtain ⟨t₁, t₂, s₁, s₂, ht, h₁, htakes, -⟩ := h.split hm
    rw [hmove] at htakes
    obtain ⟨stack, hstack, -⟩ := htakes.answer_eq
    have hp : (⟨m.number, .arm, .clearingEarly w requestor type⟩ : Pending ρ) ∈ s₁.stack := by
      rw [hstack]
      exact List.mem_cons_self
    obtain ⟨d, hd, hw, htype⟩ := h₁.early_claimed _ hp w type rfl
    refine ⟨d, .inr ?_, hw, htype⟩
    rw [ht]
    exact claims_subset t₁ _ hd
  · exact ⟨⟨m.number, e⟩, .inl ⟨rfl, r, hc⟩, (List.mem_filter.1 hw).2, htype⟩

/-! ## Where an event goes -/

theorem Run.everHeld_iff (h : Run {} t s) {n : Nat} {e : PrepareEvent} {r : Registry ρ}
    (hm : ⟨n, .dispatch, .call (.dispatch e), r⟩ ∈ t) :
    EverHeld t n ↔ r.awaiting e = [] ∧ 0 < r.inFlight := by
  constructor
  · rintro ⟨t₁, t₂, rfl, hn⟩
    obtain ⟨s₁, h₁, -⟩ := run_append_iff.1 h
    obtain ⟨d, hd, rfl⟩ := List.mem_map.1 hn
    obtain ⟨m, hm', hn, he⟩ := h₁.deliveries_held d (List.mem_append_left _ hd)
    obtain ⟨hmove, hheld⟩ := Move.eq_of_holds he
    rw [hmove, hn] at hm'
    cases h.calls_unique hm (List.mem_append_left _ hm')
    exact hheld
  · intro hheld
    obtain ⟨t₁, t₂, rfl⟩ := List.append_of_mem hm
    refine ⟨t₁ ++ [⟨n, .dispatch, .call (.dispatch e), r⟩], t₂, by simp, ?_⟩
    have hholds : (Cause.call (ρ := ρ) (.dispatch e)).holds? r = some e := if_pos hheld
    refine List.mem_map.2 ⟨⟨n, e⟩, ?_, rfl⟩
    rw [custody_concat]
    show _ ∈ (Cause.call (ρ := ρ) (.dispatch e)).keep r (Delivery.mk n) (custody t₁).held
    rw [Cause.keep, hholds]
    exact List.mem_append_right _ List.mem_cons_self

theorem Run.everHeld_of_claim (h : Run {} t s) {x : Claim} (hx : x ∈ (custody t).claims) :
    EverHeld t x.delivery.number := by
  have hd : x.delivery ∈ (custody t).deliveries := List.mem_append_right _ (List.mem_map_of_mem hx)
  obtain ⟨m, hm, hn, he⟩ := h.deliveries_held _ hd
  obtain ⟨hmove, hheld⟩ := Move.eq_of_holds he
  rw [hmove, hn] at hm
  exact (h.everHeld_iff hm).2 hheld

end

section
variable {s : Session ρ} {t : List (Move ρ)} {n : Nat} {e : PrepareEvent} {r : Registry ρ}
  {w : WatchHandle}

theorem mayRun_start (s : Session ρ) (hs : s.Sound) (hw : w ∈ s.registry.awaiting e) :
    ∃ f, ((Call.dispatch e).start s.registry).next = .waits f ∧
      f.mayRun ((Call.dispatch e).start s.registry).registry w := by
  have he := effect_start (Call.dispatch e) s.registry
  generalize ((Call.dispatch e).start s.registry).registry = r',
    ((Call.dispatch e).start s.registry).next = next at he
  cases he with
  | holds unmatched _ | drops unmatched _ =>
    rw [unmatched] at hw
    cases hw
  | offers _ fires =>
    exact fires.mayRun (fun v hv => hs.handle_armed (List.mem_filter.1 hv).1) hw
      (hs.armed w (List.mem_filter.1 hw).1)

/-- **What becomes of a watch that an event is offered to:** the dispatch has started its requestor,
a cancel called since has found it armed, or the dispatch is yet to run it. -/
theorem Run.offered (h : Run {} t s) (hm : ⟨n, .dispatch, .call (.dispatch e), r⟩ ∈ t)
    (hw : w ∈ r.awaiting e) :
    (∃ m ∈ t, m.number = n ∧ ∃ requestor type, m.starts = some (w, requestor, type)) ∨
      (∃ k r', n < k ∧ ⟨k, .cancel, .call (.cancel w.id), r'⟩ ∈ t ∧
        r'.state? w.id = some .armed) ∨
      ∃ p ∈ s.stack, p.number = n ∧ p.frame.mayRun s.registry w := by
  obtain ⟨t₁, t₂, s₁, s₂, rfl, h₁, htakes, h₂⟩ := h.split hm
  have hcalls := htakes.calls_eq
  obtain ⟨-, rfl, hs₂⟩ := htakes.call_eq
  have hsound : s₁.Sound := h₁.sound .empty
  -- a step that takes the dispatch nearer to the watch is one of the first two, or keeps the third
  have hkeeps := h₂.keeps_sound (htakes.run.sound hsound) (P := fun t r stack =>
      (∃ m ∈ t, m.number = n ∧ ∃ requestor type, m.starts = some (w, requestor, type)) ∨
        (∃ k r', ⟨k, .cancel, .call (.cancel w.id), r'⟩ ∈ t ∧ r'.state? w.id = some .armed) ∨
        ∃ p ∈ stack, p.number = n ∧ p.frame.mayRun r w)
    (fun {op} t c r k rest he hr hw => ?_) ?_
  · rcases hkeeps.2 with ⟨m, hm, hst⟩ | ⟨k, r', hm, ha⟩ | hmay
    · exact .inl ⟨m, List.mem_append_right _ (List.mem_cons_of_mem _ hm), hst⟩
    · have hlt := (h₂.number_lt.2 hm).1
      rw [hcalls] at hlt
      exact .inr (.inl ⟨k, r', hlt, List.mem_append_right _ (List.mem_cons_of_mem _ hm), ha⟩)
    · exact .inr (.inr hmay)
  · rcases hw with ⟨m, hm, hst⟩ | ⟨k', r', hm, ha⟩ | ⟨p, hp, hn, hmay⟩
    · exact .inl ⟨m, List.mem_append_left _ hm, hst⟩
    · exact .inr (.inl ⟨k', r', List.mem_append_left _ hm, ha⟩)
    · rcases List.mem_append.1 hp with hp | hp
      · -- the dispatch itself takes the step
        obtain ⟨f, hf, rfl⟩ := mem_onStack.1 hp
        cases c with
        | call => cases hf
        | answer f' a =>
          cases hf
          have hmay : f.mayRun r w := hmay
          rcases Frame.mayRun_step a hr hmay with hst | ⟨f', hnext, hmay⟩
          · exact .inl ⟨_, List.mem_append_right _ List.mem_cons_self, hn, hst⟩
          · refine .inr (.inr ⟨_, List.mem_append_left _ (mem_onStack.2 ⟨f', ?_, rfl⟩), hn, hmay⟩)
            exact congrArg Next.frame? hnext
      · rcases Frame.mayRun_or_ended hmay (c.step r).registry with hmay | ⟨hin, ha, hne⟩
        · exact .inr (.inr ⟨p, List.mem_append_right _ hp, hn, hmay⟩)
        · rcases he.state?_loose hr (mem_loose.2 ⟨p, hp, hin⟩) k with hstate | hmove
          · exact absurd (hstate.trans ha) hne
          · exact .inr (.inl ⟨k, r, List.mem_append_right _ (hmove ▸ List.mem_cons_self), ha⟩)
  · obtain ⟨f, hnext, hmay⟩ := mayRun_start s₁ hsound hw
    rw [hs₂]
    refine .inr (.inr ⟨_, List.mem_append_left _ (mem_onStack.2 ⟨f, ?_, rfl⟩), rfl, hmay⟩)
    exact congrArg Next.frame? hnext

/-- **A dispatch that has returned has fired each watch that its event was offered to**, unless a
cancel called since has. -/
theorem Run.offered_outcome (h : Run {} t s) (hm : ⟨n, .dispatch, .call (.dispatch e), r⟩ ∈ t)
    (hw : w ∈ r.awaiting e) {result : Nat} (hret : @Returned ρ t n .dispatch result) :
    s.registry.state? w.id = some .fired ∧
        (∃ m ∈ t, m.number = n ∧ ∃ requestor, m.starts = some (w, requestor, e.type)) ∨
      s.registry.state? w.id = some .cancelled ∧
        ∃ k r', n < k ∧ ⟨k, .cancel, .call (.cancel w.id), r'⟩ ∈ t ∧
          r'.state? w.id = some .armed := by
  rcases h.offered hm hw with ⟨m, hm', hn, requestor, type, hst⟩ | ⟨k, r', hlt, hc, ha⟩ |
    ⟨p, hp, hn, -⟩
  · obtain ⟨-, hfired, -⟩ := h.starts_owned hm' hst
    obtain ⟨-, rfl⟩ := h.starts_awaiting hm hm' hn hst
    exact .inl ⟨h.final hm' hfired (by decide), m, hm', hn, requestor, hst⟩
  · rcases start_cancel w.id r' with ⟨-, hcancelled, -⟩ | ⟨hidle, -⟩
    · exact .inr ⟨h.final hc hcancelled (by decide), k, r', hlt, hc, ha⟩
    · exact absurd ha hidle
  · exact absurd hn (h.gone hret p hp)

end

section
variable {s : Session ρ} {t : List (Move ρ)}

/-! ## Held events that nobody takes any more -/

theorem custody_detach (t : List (Move ρ)) (n : Nat) (r : Registry ρ) :
    (custody (t ++ [⟨n, .detach, .call .detach, r⟩])).held = [] ∧
      (custody (t ++ [⟨n, .detach, .call .detach, r⟩])).claims = (custody t).claims := by
  rw [custody_concat]
  exact ⟨rfl, List.append_nil _⟩

theorem Run.claims_of_detach {t₁ t₂ : List (Move ρ)} {n : Nat} {r : Registry ρ}
    (h : Run {} (t₁ ++ ⟨n, .detach, .call .detach, r⟩ :: t₂) s) :
    ∀ x ∈ (custody (t₁ ++ ⟨n, .detach, .call .detach, r⟩ :: t₂)).claims,
      x ∈ (custody t₁).claims ∨ n < x.delivery.number := by
  intro x hx
  obtain ⟨s₁, -, h₂⟩ := run_append_iff.1 h
  obtain ⟨s₂, htakes, h₂⟩ := run_cons_iff.1 h₂
  have hcalls : s₂.calls = n + 1 := htakes.calls_eq
  obtain ⟨hheld, hclaims⟩ := custody_detach t₁ n r
  rw [List.append_cons] at hx
  rcases (h₂.since (t₁ ++ [⟨n, .detach, .call .detach, r⟩])).2 x hx with hx | hx | hx
  · rw [hclaims] at hx
    exact .inl hx
  · rw [hheld] at hx
    cases hx
  · right
    omega

/-- **A registration does not take an event** that was held for others, all of which were over
before the registration was called. -/
theorem Run.not_claimed_later {t₁ t₂ t₃ : List (Move ρ)} {n k : Nat} {e : PrepareEvent}
    {className : String} {requestor : ρ} {r r' : Registry ρ} {s₁ s₂ : Session ρ}
    (h₁ : Run {} t₁ s₁) (h₂ : Run s₁ (⟨n, .dispatch, .call (.dispatch e), r⟩ :: t₂) s₂)
    (h₃ : Run s₂ (⟨k, .arm, .call (.arm className requestor), r'⟩ :: t₃) s)
    (hover : ∀ p ∈ s₁.stack, p.frame.isRequesting = true → p ∉ s₂.stack) :
    ∀ x ∈ (custody ((t₁ ++ ⟨n, .dispatch, .call (.dispatch e), r⟩ :: t₂) ++
      ⟨k, .arm, .call (.arm className requestor), r'⟩ :: t₃)).claims,
        x.registration = k → x.delivery.number ≠ n := by
  intro x hx hk hn
  have hrun := h₁.append h₂
  obtain ⟨s₀, htakes, h₂'⟩ := run_cons_iff.1 h₂
  obtain ⟨hn₁, -, -⟩ := htakes.call_eq
  have hcalls : s₀.calls = n + 1 := htakes.calls_eq
  have hle := h₂'.number_lt.1
  obtain ⟨s₃, htakes', -⟩ := run_cons_iff.1 h₃
  obtain ⟨hk₂, -, -⟩ := htakes'.call_eq
  rcases (h₃.since _).2 x hx with hx | hx | hx
  · -- it had not been called then
    obtain ⟨_, _, hc⟩ := hrun.claims_called x hx
    have := hrun.called_lt hc
    omega
  · -- the event would be held for a registration called before its dispatch
    obtain ⟨p, hp, hf, hlt⟩ := hrun.held_open _ hx
    rcases h₂.requesting hp hf with hp₁ | hle
    · exact hover p hp₁ hf hp
    · omega
  · omega

/-! ## The main statement -/

/-- **What requestors start for, and where events go,** in a run. -/
structure Caused (t : List (Move ρ)) (s : Session ρ) : Prop where
  /-- A requestor starts for one dispatched event: it answers the watch's request, is of the type
  that the requestor runs for, and that type has the name of the watched class. -/
  start : ∀ m ∈ t, ∀ w requestor type, m.starts = some (w, requestor, type) →
    ∃ d : Delivery, Called t d.number (.dispatch d.event) ∧ d.event.request = w.request ∧
      d.event.type = type ∧ ClassName.binary? type.name = some w.className ∧
      ∀ d', Feeds t d' m.number ↔ d' = d
  /-- An event is offered to the armed watches that await it. Its dispatch starts requestors of no
  others. Once it has returned, each of them has fired and its requestor was started by the
  dispatch, or it was cancelled by a cancel that was called meanwhile. -/
  offered : ∀ n e r, ⟨n, .dispatch, .call (.dispatch e), r⟩ ∈ t →
    (∀ m ∈ t, m.number = n → ∀ w requestor type, m.starts = some (w, requestor, type) →
      w ∈ r.awaiting e) ∧
    ∀ result, @Returned ρ t n .dispatch result → ∀ w ∈ r.awaiting e,
      s.registry.state? w.id = some .fired ∧
          (∃ m ∈ t, m.number = n ∧ ∃ requestor, m.starts = some (w, requestor, e.type)) ∨
        s.registry.state? w.id = some .cancelled ∧
          ∃ k r', n < k ∧ ⟨k, .cancel, .call (.cancel w.id), r'⟩ ∈ t ∧
            r'.state? w.id = some .armed
  held : ∀ n e r, ⟨n, .dispatch, .call (.dispatch e), r⟩ ∈ t →
    (EverHeld t n ↔ r.awaiting e = [] ∧ 0 < r.inFlight)
  holding : s.registry.held = (custody t).held.map Delivery.event
  claimed : ∀ x ∈ (custody t).claims, EverHeld t x.delivery.number
  once : ((custody t).claims.map fun x => x.delivery.number).Nodup
  detached : ∀ t₁ n r t₂, t = t₁ ++ ⟨n, .detach, .call .detach, r⟩ :: t₂ →
    ∀ x ∈ (custody t).claims, x ∈ (custody t₁).claims ∨ n < x.delivery.number
  /-- A held event is not taken by a registration that is called when all that were in flight at its
  dispatch are over. -/
  later : ∀ t₁ n e r t₂ k className requestor r' t₃,
    t = (t₁ ++ ⟨n, .dispatch, .call (.dispatch e), r⟩ :: t₂) ++
      ⟨k, .arm, .call (.arm className requestor), r'⟩ :: t₃ →
    ∀ s₁ s₂, Run {} t₁ s₁ → Run s₁ (⟨n, .dispatch, .call (.dispatch e), r⟩ :: t₂) s₂ →
      Run s₂ (⟨k, .arm, .call (.arm className requestor), r'⟩ :: t₃) s →
      (∀ p ∈ s₁.stack, p.frame.isRequesting = true → p ∉ s₂.stack) →
      ∀ x ∈ (custody t).claims, x.registration = k → x.delivery.number ≠ n
  /-- An event whose type has no class name fires nothing: it is offered to no watch, no
  registration takes it, and no requestor starts for it. -/
  nameless : ∀ n e r, ⟨n, .dispatch, .call (.dispatch e), r⟩ ∈ t →
    ClassName.binary? e.type.name = none → r.awaiting e = [] ∧
      (∀ x ∈ (custody t).claims, x.delivery.number ≠ n) ∧
      ∀ m ∈ t, Feeds t ⟨n, e⟩ m.number → m.starts = none

/-- **Nothing starts without cause, and no event is used twice.** -/
theorem starts_caused (h : Run {} t s) : Caused t s := by
  have hstart : ∀ m ∈ t, ∀ w requestor type, m.starts = some (w, requestor, type) →
      ∃ d : Delivery, Called t d.number (.dispatch d.event) ∧ d.event.request = w.request ∧
        d.event.type = type ∧ ClassName.binary? type.name = some w.className ∧
        ∀ d', Feeds t d' m.number ↔ d' = d := by
    intro m hm w requestor type hst
    obtain ⟨d, hd, hw, htype⟩ := h.fed hm hst
    refine ⟨d, hd.called h, request_of_awaits hw, htype, htype ▸ binary?_of_awaits hw,
      fun d' => ⟨fun hd' => ?_, ?_⟩⟩
    · exact h.feeds_unique hd' hd
    · rintro rfl
      exact hd
  refine ⟨hstart, fun n e r hm =>
      ⟨fun m hm' hn w requestor type hst => ?_, fun result hret w hw => ?_⟩,
    fun n e r hm => h.everHeld_iff hm, h.held_eq, fun x hx => h.everHeld_of_claim hx, ?_,
    fun t₁ n r t₂ ht => ?_, fun t₁ n e r t₂ k className requestor r' t₃ ht s₁ s₂ h₁ h₂ h₃ => ?_,
    fun n e r hm hname => ⟨?_, fun x hx hn => ?_, fun m hm' hfeeds => ?_⟩⟩
  · exact (h.starts_awaiting hm hm' hn hst).1
  · exact h.offered_outcome hm hw hret
  · have hnodup := h.deliveries_nodup.sublist
      ((List.sublist_append_right (custody t).held _).map Delivery.number)
    rwa [List.map_map] at hnodup
  · subst ht
    exact h.claims_of_detach
  · subst ht
    exact h₁.not_claimed_later h₂ h₃
  · rw [Registry.awaiting, List.filter_eq_nil_iff]
    intro w _ hw
    rw [binary?_of_awaits hw] at hname
    cases hname
  · obtain ⟨m, -, -, w, requestor, -, hw⟩ := h.claims_made x hx
    obtain ⟨r', hc⟩ := h.deliveries_called x.delivery
      (List.mem_append_right _ (List.mem_map_of_mem hx))
    rw [hn] at hc
    cases h.calls_unique hm hc
    rw [binary?_of_awaits hw] at hname
    cases hname
  · rcases hst : m.starts with _ | ⟨w, requestor, type⟩
    · rfl
    · obtain ⟨d, -, -, htype, hname', honly⟩ := hstart m hm' w requestor type hst
      obtain rfl := (honly _).1 hfeeds
      rw [← htype, hname] at hname'
      cases hname'

end

/-- An event for class B is held while a registration for B is in flight, and the registration takes
it. Meanwhile one for class A is offered to three armed watches: it fires the first, whose requestor
cancels the second, and the third. One for an array is held and taken by nobody. -/
theorem starts_caused_nested : ∃ (t : List (Move Nat)) (s : Session Nat) (r : Registry Nat),
    Run {} t s ∧ s.stack = [] ∧
    ⟨5, .dispatch, .call (.dispatch ⟨⟨5⟩, ⟨⟨9⟩, "A"⟩⟩), r⟩ ∈ t ∧
    (r.awaiting ⟨⟨5⟩, ⟨⟨9⟩, "A"⟩⟩).map (·.id.raw) = [1, 2, 3] ∧ @Returned Nat t 5 .dispatch 2 ∧
    starts t ⟨1⟩ = 1 ∧ s.registry.state? ⟨2⟩ = some .cancelled ∧ starts t ⟨3⟩ = 1 ∧
    starts t ⟨4⟩ = 1 ∧ (custody t).claims = [⟨3, ⟨4, ⟨⟨7⟩, ⟨⟨8⟩, "B"⟩⟩⟩⟩] ∧ Caused t s := by
  have harm := (((((Run.nil (s := ({} : Session Nat))).call (.arm "A" 0)).answer
    (Except.ok ⟨5⟩)).call (.arm "LA;" 1)).answer (Except.ok ⟨5⟩)).call (.arm "A" 2)
  have hheld := ((harm.answer (Except.ok ⟨5⟩)).call (.arm "LB;" 3)).call
    (.dispatch ⟨⟨7⟩, ⟨⟨8⟩, "B"⟩⟩)
  have hfirst := (hheld.call (.dispatch ⟨⟨5⟩, ⟨⟨9⟩, "A"⟩⟩)).answer ()
  have hthird := (((hfirst.call (.cancel ⟨2⟩)).answer ()).answer ()).answer ()
  have hfired := hthird.answer ()
  have hnamed := (hfired.call (.dispatch ⟨⟨7⟩, ⟨⟨10⟩, "[I"⟩⟩)).answer (Except.ok ⟨7⟩)
  have h := (hnamed.answer ()).answer ()
  exact ⟨_, _, _, h, rfl, List.mem_of_getElem? (i := 8) rfl, rfl,
    ⟨_, _, List.mem_of_getElem? (i := 14) rfl, rfl⟩, rfl, rfl, rfl, rfl, rfl, starts_caused h⟩

end DebugMap.Watch
