import DebugMap.Proofs.Watch.Overtaking

/-!
# What becomes of an armed watch

On the armed list a watch waits: a step leaves it there or fires it, unless a cancel or a detachment
withdraws it (`Effect.waiting`, `Run.waiting`). This rests on the watch having a request of its own.
A dispatch takes all watches that await its event off the list at once, and while the requestor of
the first one runs, the others are on no list that an event could fire them from.

A simulated process gives each watch its own request, so that only a detachment has armed watches
yet to end (`Simulated.mem_armed`). If besides the process calls nothing back, no detachment is in
progress while it has nothing to answer (`Run.not_detaching`).

Main statement: `Run.served`, by which a watch whose event is dispatched is called once, for the
type of that event.
-/

set_option autoImplicit false

namespace DebugMap.Watch

variable {ρ : Type}

/-! ## Waiting -/

/-- Whether a step would end a watch before it fires: a cancel of it, or a detachment. -/
def Cause.withdraws (id : WatchId) : {op : Operation} → Cause ρ op → Bool
  | _, .call (.cancel id') => id' = id
  | _, .call .detach => true
  | _, _ => false

/-- **A watch is withdrawn** in a run: a cancel or a detachment finds it armed. -/
def Withdrawn (t : List (Move ρ)) (id : WatchId) : Prop :=
  ∃ m ∈ t, m.cause.withdraws id = true ∧ m.before.state? id = some .armed

theorem Withdrawn.mono {t u : List (Move ρ)} {id : WatchId} (h : Withdrawn t id) (hsub : t ⊆ u) :
    Withdrawn u id := by
  obtain ⟨m, hm, hw⟩ := h
  exact ⟨m, hsub hm, hw⟩

theorem not_withdrawn {t : List (Move ρ)} {id : WatchId}
    (h : ∀ m ∈ t, m.cause.withdraws id = false) : ¬ Withdrawn t id := by
  rintro ⟨m, hm, hwithdraws, -⟩
  exact Bool.false_ne_true ((h m hm).symm.trans hwithdraws)

section
variable {r r' : Registry ρ} {op : Operation} {c : Cause ρ op} {next : Next ρ op} {q : Nat}
  {ws : List WatchHandle} {es : List (WatchHandle × WatchState)} {w : WatchHandle}

theorem Sound.awaiting_eq (hr : Sound r q ws es) {e : PrepareEvent} (hw : w ∈ r.armed)
    (he : w.awaits e = true) (halone : ∀ v ∈ r.armed, v.request = w.request → v = w) :
    r.awaiting e = [w] := by
  have hnodup : (r.awaiting e).Nodup := (List.nodup_append.1 hr.apart).1.filter _
  refine List.perm_singleton.1
    ((List.perm_ext_iff_of_nodup hnodup (List.nodup_singleton w)).2 fun v => ?_)
  rw [List.mem_singleton]
  constructor
  · intro hv
    obtain ⟨hin, hawaits⟩ := List.mem_filter.1 hv
    exact halone v hin ((request_of_awaits hawaits).symm.trans (request_of_awaits he))
  · rintro rfl
    exact List.mem_filter.2 ⟨hw, he⟩

/-- **A step leaves a watch on the armed list**, or fires it, if it does not withdraw it. -/
theorem Effect.waiting (he : Effect r c r' next) (hr : Sound r q ws es) (hw : w ∈ r.armed)
    (halone : ∀ v ∈ r.armed, v.request = w.request → v = w) (hkept : c.withdraws w.id = false) :
    w ∈ r'.armed ∨ r'.state? w.id = some .fired := by
  cases he with
  | @cancels id _ _ _ _ =>
    have hne : id ≠ w.id := of_decide_eq_false hkept
    exact .inl (List.mem_filter.2 ⟨hw, by simpa using hne.symm⟩)
  | @offers event _ _ _ fires =>
    by_cases hawaits : w.awaits event = true
    · rw [hr.awaiting_eq hw hawaits halone] at fires
      cases fires with
      | done idle => exact absurd (hr.armed w hw) (idle w List.mem_cons_self)
      | @next skipped rest v requestor split idle armed =>
        -- the list has one entry, which is the one that fires
        obtain ⟨rfl, rfl, rfl⟩ : skipped = [] ∧ v = w ∧ rest = [] := by
          cases skipped with
          | nil => simpa [eq_comm] using split
          | cons => simp at split
        exact .inr (Registry.state?_setSlot_self armed)
    · rw [fires.armed_eq]
      exact .inl (List.mem_filter.2 ⟨hw, by simpa using hawaits⟩)
  | detaches _ => cases hkept
  | arms _ _ => exact .inl (List.mem_append_left _ hw)
  | ranFired fires => exact .inl (fires.armed_eq ▸ hw)
  | clearedDrained drains => exact .inl (drains.armed_eq ▸ hw)
  | _ => exact .inl hw

theorem Effect.returns_watch {c : Cause ρ .arm} (he : Effect r c r' (.returns (.ok w))) :
    (∃ requestor, c.makes r = some (w, requestor)) ∨
      ∃ x, (w, x) ∈ c.frame?.elim [] Frame.ended := by
  generalize hnext : (Next.returns (.ok w) : Next ρ .arm) = next at he
  cases he with
  | arms _ _ =>
    cases hnext
    exact .inl ⟨_, rfl⟩
  | clearedDetached =>
    cases hnext
    exact .inr ⟨_, List.mem_cons_self⟩
  | ranEarly =>
    cases hnext
    exact .inr ⟨_, List.mem_cons_self⟩
  | _ => cases hnext

end

section
variable {s s' : Session ρ} {t₀ t : List (Move ρ)} {w : WatchHandle}

/-- **A watch on the armed list stays there until it fires**, unless it is withdrawn. -/
theorem Run.waiting (h₀ : Run {} t₀ s) (h : Run s t s') (hw : w ∈ s.registry.armed)
    (halone : ∀ v requestor, Made (t₀ ++ t) v requestor → v.request = w.request → v = w)
    (hkept : ¬ Withdrawn t w.id) :
    w ∈ s'.registry.armed ∨ s'.registry.state? w.id = some .fired := by
  induction h with
  | nil => exact .inl hw
  | @snoc t s₁ s₂ m h hm ih =>
    have hrun := h₀.append h
    have halone₁ : ∀ v requestor, Made (t₀ ++ t) v requestor → v.request = w.request → v = w :=
      fun v requestor hv => halone v requestor (List.append_assoc t₀ t [m] ▸ hv.mono [m])
    have hkept₁ : ¬ Withdrawn t w.id := fun hh => hkept (hh.mono (List.subset_append_left _ _))
    rcases ih halone₁ hkept₁ with hin | hfired
    · have hr := hrun.invariant
      obtain ⟨rest, hreg, -, hreg', -⟩ := hm.shape
      rw [hreg] at hin hr
      rw [hreg']
      refine (effect_step m.cause m.before).waiting hr hin (fun v hv heq => ?_) ?_
      · obtain ⟨requestor, hslot⟩ := Registry.state?_eq_armed.1 (hr.armed v hv)
        have howned := hrun.owned
        rw [hreg] at howned
        exact halone₁ v requestor (howned.armed v requestor (hr.handle_armed hv) hslot) heq
      · by_contra hwithdraws
        exact hkept ⟨m, List.mem_append_right _ List.mem_cons_self, by simpa using hwithdraws,
          hr.armed w hin⟩
    · exact .inr (hm.run.state?_ended (hrun.sound .empty) hfired (by simp))

/-- **A registration that has returned a watch which is still armed** has made it. -/
theorem Run.makes_of_returned (h₀ : Run {} t₀ s) (h : Run s t s') {n : Nat}
    (hret : @Returned ρ t n .arm (.ok w)) (harmed : s'.registry.state? w.id = some .armed) :
    ∃ m ∈ t, m.number = n ∧ ∃ requestor, m.cause.makes m.before = some (w, requestor) := by
  obtain ⟨c, r, hm, hnext⟩ := hret
  obtain ⟨u, v, s₁, s₂, -, h₁, htakes, h₂⟩ := h.split hm
  have he := effect_step c r
  rw [hnext] at he
  have hrun := h₀.append h₁
  rcases he.returns_watch with ⟨requestor, hmade⟩ | ⟨x, hx⟩
  · exact ⟨_, hm, rfl, requestor, hmade⟩
  · -- it had ended before it was returned
    obtain ⟨rest, -, hst, -, -⟩ := htakes.shape
    obtain ⟨hne, -, hstate⟩ := hrun.invariant.ended (w, x) (by
      rw [hst, ended_onStack]
      exact List.mem_append_left _ hx)
    have hend := (Run.cons htakes h₂).state?_ended (hrun.sound .empty) hstate hne
    exact absurd (Option.some.inj (hend.symm.trans harmed)) hne

/-! ## Being called -/

/-- **What a run has called for a watch:** its requestor, each time with the type it ran for. -/
def firings (t : List (Move ρ)) (id : WatchId) : List (ρ × RuntimeType) :=
  t.filterMap fun m => (m.starts.filter fun x => x.1.id = id).map Prod.snd

theorem length_firings (t : List (Move ρ)) (id : WatchId) :
    (firings t id).length = starts t id := by
  rw [firings, List.length_filterMap_eq_countP, starts]
  congr 1
  funext m
  rcases m.starts with _ | x
  · rfl
  · by_cases hx : x.1.id = id <;> simp [hx]

theorem mem_firings {id : WatchId} {requestor : ρ} {type : RuntimeType} :
    (requestor, type) ∈ firings t id ↔
      ∃ m ∈ t, ∃ v, v.id = id ∧ m.starts = some (v, requestor, type) := by
  rw [firings, List.mem_filterMap]
  refine exists_congr fun m => and_congr_right fun _ => ?_
  rcases m.starts with _ | ⟨v, requestor', type'⟩
  · simp
  · by_cases hv : v.id = id <;> simp [hv]

/-- **An event is dispatched for a watch** and takes its course: the dispatches of events that the
watch awaits are over, none of them was for another type, and the watch is not withdrawn. -/
structure Served (w : WatchHandle) (e : PrepareEvent) (t : List (Move ρ)) : Prop where
  dispatched : e ∈ dispatched t
  returned : ∀ n e', Called t n (.dispatch e') → w.awaits e' = true →
    ∃ fired, @Returned ρ t n .dispatch fired
  only : ∀ e' ∈ Watch.dispatched t, w.awaits e' = true → e'.type = e.type
  kept : ¬ Withdrawn t w.id

theorem Run.due_eq_zero (h₀ : Run {} t₀ s) (h : Run s t s') (hw : w ∈ s.registry.armed)
    (hover : ∀ n e, Called t n (.dispatch e) → w.awaits e = true →
      ∃ fired, @Returned ρ t n .dispatch fired) : dueCount w.id (due s'.stack) = 0 := by
  have hrun := h₀.append h
  have hknown := h.handle? (h₀.sound .empty) (h₀.invariant.handle_armed hw)
  refine List.countP_eq_zero.2 fun ⟨v, requestor⟩ hdue hid => ?_
  obtain ⟨p, hp, hdue⟩ := List.mem_flatMap.1 hdue
  have hended := hrun.invariant.ended (v, .fired)
    (List.mem_flatMap.2 ⟨p, hp, Frame.ended_of_due hdue⟩)
  obtain rfl : v = w := Sound.eq_of_id hended.2.1 hknown (of_decide_eq_true hid)
  obtain ⟨n, op, f⟩ := p
  obtain ⟨c, r, hc, hserves⟩ := hrun.told _ hp
  cases f with
  | clearingEarly v requestor type =>
    obtain ⟨rfl, -⟩ := Prod.mk.inj (List.mem_singleton.1 hdue)
    exact h₀.not_fresh h hw _ hp List.mem_cons_self
  | clearingFired v requestor type rest fired =>
    obtain ⟨rfl, -⟩ := Prod.mk.inj (List.mem_singleton.1 hdue)
    cases c with
    | dispatch e =>
      have hawaiting := hserves.2 _ List.mem_cons_self
      rcases List.mem_append.1 hc with hc | hc
      · exact h₀.not_offered hw hc hawaiting
      · obtain ⟨fired, hret⟩ := hover n e ⟨r, hc⟩ (List.mem_filter.1 hawaiting).2
        obtain ⟨c', r', hm, hnext⟩ := hret
        exact hrun.gone ⟨c', r', List.mem_append_right _ hm, hnext⟩ _ hp rfl
  | _ => cases hdue

/-- **A watch on the armed list fires** when an event is dispatched for it. -/
theorem Run.fired_of_served (h₀ : Run {} t₀ s) (h : Run s t s') (hw : w ∈ s.registry.armed)
    (halone : ∀ v requestor, Made (t₀ ++ t) v requestor → v.request = w.request → v = w)
    {e : PrepareEvent} (he : w.awaits e = true) (hserved : Served w e t) :
    s'.registry.state? w.id = some .fired := by
  refine (h₀.waiting h hw halone hserved.kept).resolve_left ?_
  obtain ⟨m, hm, hd⟩ := List.mem_filterMap.1 hserved.dispatched
  rw [Move.eq_of_dispatches hd] at hm
  obtain ⟨t₁, t₂, s₁, s₂, -, h₁, htakes, -⟩ := h.split hm
  obtain ⟨-, hreg, -⟩ := htakes.call_eq
  have hknown := h₁.handle? (h₀.sound .empty) (h₀.invariant.handle_armed hw)
  exact h₀.not_mem_armed_of_dispatch h hm he (hreg ▸ hknown)

/-- **What starts under the id of a watch** is the watch's, with the requestor that it was made
with. -/
theorem Run.starts_of_id (h : Run {} t s) {requestor requestor' : ρ} {type : RuntimeType}
    (hmade : Made t w requestor) {m : Move ρ} (hm : m ∈ t) {v : WatchHandle}
    (hst : m.starts = some (v, requestor', type)) (hid : v.id = w.id) :
    v = w ∧ requestor' = requestor := by
  obtain ⟨⟨m₁, hm₁, hmade₁⟩, -⟩ := h.starts_owned hm hst
  obtain ⟨m₂, hm₂, hmade₂⟩ := hmade
  obtain rfl : v = w :=
    Sound.eq_of_id (h.handle?_of_makes hm₁ hmade₁) (h.handle?_of_makes hm₂ hmade₂) hid
  obtain rfl := h.made_once hm₁ hm₂ hmade₁ hmade₂
  exact ⟨rfl, congrArg Prod.snd (Option.some.inj (hmade₁.symm.trans hmade₂))⟩

theorem Run.starts_of_mem_firings (h : Run {} t s) {requestor requestor' : ρ} {type : RuntimeType}
    (hmade : Made t w requestor) (hf : (requestor', type) ∈ firings t w.id) :
    requestor' = requestor ∧ ∃ m ∈ t, m.starts = some (w, requestor', type) := by
  obtain ⟨m, hm, v, hid, hst⟩ := mem_firings.1 hf
  obtain ⟨rfl, hreq⟩ := h.starts_of_id hmade hm hst hid
  exact ⟨hreq, m, hm, hst⟩

theorem Run.starts_of_armed (h : Run {} t s) (hw : w ∈ s.registry.armed) : starts t w.id = 0 := by
  have hcount := h.starts_eq w.id
  rw [firedAt, h.invariant.armed w hw, if_neg (by simp)] at hcount
  omega

/-- **A watch whose event is dispatched is called once**, for the type of that event. -/
theorem Run.served (h₀ : Run {} t₀ s) (h : Run s t s') (hw : w ∈ s.registry.armed)
    (halone : ∀ v requestor, Made (t₀ ++ t) v requestor → v.request = w.request → v = w)
    {requestor : ρ} (hmade : Made t₀ w requestor) {e : PrepareEvent} (he : w.awaits e = true)
    (hserved : Served w e t) : s'.registry.state? w.id = some .fired ∧
      firings (t₀ ++ t) w.id = [(requestor, e.type)] := by
  have hrun := h₀.append h
  have hfired := h₀.fired_of_served h hw halone he hserved
  refine ⟨hfired, ?_⟩
  have hlength : (firings (t₀ ++ t) w.id).length = 1 := by
    have hcount := hrun.starts_eq w.id
    rw [h₀.due_eq_zero h hw hserved.returned, firedAt, if_pos hfired] at hcount
    rw [length_firings]
    omega
  obtain ⟨⟨requestor', type⟩, hone⟩ := List.length_eq_one_iff.1 hlength
  obtain ⟨rfl, m, hm, hst⟩ :=
    hrun.starts_of_mem_firings (hmade.mono t) (hone ▸ List.mem_cons_self)
  -- it started after the watch was on the armed list, so for the first event that the watch awaits
  have hin : m ∈ t := by
    refine (List.mem_append.1 hm).resolve_left fun hm => ?_
    exact List.countP_eq_zero.1 (h₀.starts_of_armed hw) m hm (by simp [hst])
  obtain ⟨e', hfirst, rfl⟩ := h₀.armed_first hw h hin hst
  rw [hone, hserved.only e' (List.mem_of_find?_eq_some hfirst) (List.find?_some hfirst)]

end

/-! ## Over a simulated process -/

section
variable {s : Session ρ} {sim : Simulation} {t : List (Move ρ)} {v w : WatchHandle}

theorem Simulated.eq_of_request (h : Simulated t s sim) {requestor requestor' : ρ}
    (hv : Made t v requestor) (hw : Made t w requestor') (heq : v.request = w.request) : v = w := by
  obtain ⟨m, hm, hmade⟩ := hv
  obtain ⟨m', hm', hmade'⟩ := hw
  exact h.books.eq_of_request (Registry.mem_of_handle? (h.run.handle?_of_makes hm hmade))
    (Registry.mem_of_handle? (h.run.handle?_of_makes hm' hmade')) heq

/-- **An armed watch is on the armed list**, unless a detachment in progress has yet to cancel it: a
dispatch has one watch on its list, since no other has the request, and has fired that one. -/
theorem Simulated.mem_armed (h : Simulated t s sim) (hw : s.registry.handle? w.id = some w)
    (harmed : s.registry.state? w.id = some .armed)
    (hkept : ∀ p ∈ s.stack, p.op = .detach → w ∉ p.frame.rest) : w ∈ s.registry.armed := by
  refine (h.run.invariant.covered w hw harmed).resolve_right fun hin => ?_
  obtain ⟨p, hp, hin⟩ := mem_loose.1 hin
  rcases Frame.op_of_mem_rest hin with hop | hop
  · obtain ⟨n, op, f⟩ := p
    obtain rfl : op = .dispatch := hop
    obtain ⟨c, r, -, hserves⟩ := h.run.told _ hp
    have hended : ∀ v, (v, .fired) ∈ f.ended → v.request = w.request → False := by
      intro v hv heq
      obtain ⟨-, hknown, hfired⟩ := h.run.invariant.ended _ (List.mem_flatMap.2 ⟨_, hp, hv⟩)
      obtain rfl := h.books.eq_of_request (Registry.mem_of_handle? hknown)
        (Registry.mem_of_handle? hw) heq
      cases hfired.symm.trans harmed
    cases c with
    | dispatch e =>
      cases f with
      | clearingFired v _ _ rest _ | runningFired v _ _ rest _ =>
        obtain ⟨-, hawaiting⟩ := hserves
        have hrequest : ∀ x ∈ v :: rest, e.request = x.request := fun x hx =>
          request_of_awaits (List.mem_filter.1 (hawaiting x hx)).2
        exact hended v List.mem_cons_self ((hrequest v List.mem_cons_self).symm.trans
          (hrequest w (List.mem_cons_of_mem _ hin)))
  · exact hkept p hp hop hin

/-- **A watch that was returned and is armed** was made by the registration that returned it, and is
on the armed list. -/
theorem Simulated.listed {s₀ : Session ρ} {t₀ : List (Move ρ)} (h : Simulated (t₀ ++ t) s sim)
    (h₀ : Run {} t₀ s₀) (ht : Run s₀ t s) {n : Nat} (hret : @Returned ρ t n .arm (.ok w))
    (harmed : s.registry.state? w.id = some .armed)
    (hkept : ∀ p ∈ s.stack, p.op = .detach → w ∉ p.frame.rest) :
    w ∈ s.registry.armed ∧ ∃ m ∈ t, m.number = n ∧
      ∃ requestor, m.cause.makes m.before = some (w, requestor) := by
  obtain ⟨m, hm, hn, requestor, hmade⟩ := h₀.makes_of_returned ht hret harmed
  have hknown := h.run.handle?_of_makes (List.mem_append_right t₀ hm) hmade
  exact ⟨h.mem_armed hknown harmed hkept, m, hm, hn, requestor, hmade⟩

/-- **For a watch on the armed list** the process has one event when it prepares a type of the
watched class. -/
theorem Simulated.filter_eventsFor (h : Simulated t s sim) (hw : w ∈ s.registry.armed)
    {type : RuntimeType} (hname : type.name = w.className) :
    ((sim.eventsFor type).filter fun e => e.request = w.request) = [⟨w.request, type⟩] := by
  have hs := h.run.invariant
  refine h.books.filter_eventsFor (Registry.mem_of_handle? (hs.handle_armed hw)) (fun hout => ?_)
    hname
  have hcleared := h.run.clearedFor_perm.subset (List.mem_append_left _ hout)
  exact ((h.run.mem_clearedFor.2 w).1 hcleared).2 (hs.armed w hw)

end

/-! ## Processes that call nothing back -/

/-- **The process has nothing to answer:** the operations in progress wait for their requestors. -/
def Session.ProcessIdle (s : Session ρ) : Prop :=
  ∀ p ∈ s.stack, ∃ requestor type, p.frame.question = .run requestor type

/-- **The process calls nothing back** in a run from the start: whenever an operation is called, it
has nothing to answer. -/
def CallsNothingBack (t : List (Move ρ)) : Prop :=
  ∀ (u v : List (Move ρ)) (n : Nat) (op : Operation) (c : Call ρ op) (r : Registry ρ)
    (s : Session ρ), t = u ++ ⟨n, op, .call c, r⟩ :: v → Run {} u s → s.ProcessIdle

section
variable {s : Session ρ} {t : List (Move ρ)}

theorem CallsNothingBack.of_append {u : List (Move ρ)} (h : CallsNothingBack (t ++ u)) :
    CallsNothingBack t := by
  rintro t₁ v n op c r s rfl hrun
  exact h t₁ (v ++ u) n op c r s (by simp) hrun

theorem mem_of_mem_tail_onStack {op : Operation} {f? : Option (Frame ρ op)} {n : Nat}
    {stack : List (Pending ρ)} {p : Pending ρ} (h : p ∈ (onStack n f? ++ stack).tail) :
    p ∈ stack := by
  cases f? with
  | none => exact List.mem_of_mem_tail h
  | some f => exact h

/-- **Only the innermost operation waits for the process**, if this calls nothing back. -/
theorem Run.outer_idle (h : Run {} t s) (hquiet : CallsNothingBack t) :
    ∀ p ∈ s.stack.tail, ∃ requestor type, p.frame.question = .run requestor type := by
  induction h with
  | nil => simp
  | @snoc t s₁ s₂ m h hm ih =>
    intro p hp
    cases hm with
    | call r stack n c => exact hquiet t [] n _ c r _ rfl h p (mem_of_mem_tail_onStack hp)
    | answer r stack n k f a => exact ih hquiet.of_append p (mem_of_mem_tail_onStack hp)

theorem Session.ProcessIdle.not_detaching (h : s.ProcessIdle) : ∀ p ∈ s.stack, p.op ≠ .detach := by
  rintro ⟨n, op, f⟩ hp rfl
  obtain ⟨requestor, type, hquestion⟩ := h _ hp
  cases f with
  | clearingDrained => cases hquestion

/-- **No detachment is in progress** while a process that calls nothing back has nothing to
answer. -/
theorem Run.not_detaching (h : Run {} t s) (hquiet : CallsNothingBack t)
    (hinner : ∀ p, s.stack.head? = some p →
      ∃ requestor type, p.frame.question = .run requestor type) :
    ∀ p ∈ s.stack, p.op ≠ .detach := by
  have hidle : s.ProcessIdle := by
    intro p hp
    have houter := h.outer_idle hquiet
    cases hstack : s.stack with
    | nil => simp [hstack] at hp
    | cons q rest =>
      rw [hstack] at hinner houter hp
      rcases List.mem_cons.1 hp with rfl | hp
      · exact hinner p rfl
      · exact houter p hp
  exact hidle.not_detaching

end

/-! ## Dispatches that nobody disturbs -/

section
variable {es : List PrepareEvent} {s s' : Session ρ} {t : List (Move ρ)}

theorem Delivers.op_eq (h : Delivers es s t s') (hs : s.Ordered) : ∀ m ∈ t, m.op = .dispatch := by
  induction h with
  | nil s => simp
  | cons first _ ih =>
    intro m hm
    rcases List.mem_append.1 hm with hm | hm
    · rcases List.mem_cons.1 hm with rfl | hm
      · rfl
      · obtain ⟨f, a, r, rfl⟩ := first.answers hs m hm
        rfl
    · exact ih (first.run.numbers hs) m hm

theorem Delivers.dispatched_eq (h : Delivers es s t s') (hs : s.Ordered) : dispatched t = es := by
  induction h with
  | nil s => rfl
  | @cons e es s s₁ s' t t' first _ ih =>
    have hnone : dispatched t = [] := List.filterMap_eq_nil_iff.2 fun m hm => by
      obtain ⟨f, a, r, rfl⟩ := first.answers hs m hm
      rfl
    rw [dispatched_append, ih (first.run.numbers hs)]
    show e :: dispatched t ++ es = _
    rw [hnone]
    rfl

theorem Delivers.returned (h : Delivers es s t s') (hs : s.Ordered) {n : Nat} {e : PrepareEvent}
    (hc : Called t n (.dispatch e)) : ∃ fired, @Returned ρ t n .dispatch fired := by
  obtain ⟨r, hm⟩ := hc
  induction h with
  | nil s => cases hm
  | @cons e' es s s₁ s' t t' first _ ih =>
    rcases List.mem_append.1 hm with hm | hm
    · rcases List.mem_cons.1 hm with heq | hm
      · cases heq
        obtain ⟨fired, hret⟩ := first.returns hs
        exact ⟨fired, hret.mono t'⟩
      · obtain ⟨f, a, r', heq⟩ := first.answers hs _ hm
        cases heq
    · obtain ⟨fired, c, r', hm, hnext⟩ := ih (first.run.numbers hs) hm
      exact ⟨fired, c, r', List.mem_append_right _ hm, hnext⟩

/-- **Dispatches that nobody disturbs serve a watch** whose event is among them, if no event for
another type is. -/
theorem Delivers.served (h : Delivers es s t s') (hs : s.Ordered) {w : WatchHandle}
    {e : PrepareEvent} (he : e ∈ es) (honly : ∀ e' ∈ es, w.awaits e' = true → e'.type = e.type) :
    Served w e t where
  dispatched := (h.dispatched_eq hs).symm ▸ he
  returned _ _ hc _ := h.returned hs hc
  only e' he' := honly e' (h.dispatched_eq hs ▸ he')
  kept := not_withdrawn fun ⟨n, op, c, r⟩ hm => by
    obtain rfl : op = .dispatch := h.op_eq hs _ hm
    cases c with
    | call c =>
      cases c
      rfl
    | answer f a => rfl

end

end DebugMap.Watch
