import DebugMap.Proofs.Watch.Invariant

/-!
# Where the operations in progress come from

The frame in which an operation waits remembers the arguments of its call and what it found in the
registry then: `Frame.Serves` says so, and `Run.told` that every operation in progress goes back to
a call of the run. A watch is likewise made for the class and with the requestor of a call
(`Run.called_of_makes`), and the requestor that an operation is about to run is that one
(`Run.owned`).
-/

set_option autoImplicit false

namespace DebugMap.Watch

variable {ρ : Type}

/-! ## Frames and their calls -/

/-- **A frame in which a call may wait** that was made in the given registry. -/
def Frame.Serves : {op : Operation} → Frame ρ op → Call ρ op → Registry ρ → Prop
  | _, .requesting name requestor epoch, .arm className requestor', r =>
    ClassName.binary? className = some name ∧ requestor' = requestor ∧ epoch = r.detachEpoch
  | _, .clearingDetached w, .arm className _, _ => ClassName.binary? className = some w.className
  | _, .clearingEarly w requestor _, .arm className requestor', _ =>
    ClassName.binary? className = some w.className ∧ requestor' = requestor
  | _, .runningEarly w requestor _, .arm className requestor', _ =>
    ClassName.binary? className = some w.className ∧ requestor' = requestor
  | _, .clearingCancelled w, .cancel id, r =>
    r.handle? id = some w ∧ r.state? id = some .armed
  | _, .clearingFired w _ type rest _, .dispatch event, r =>
    type = event.type ∧ ∀ v ∈ w :: rest, v ∈ r.awaiting event
  | _, .runningFired w _ type rest _, .dispatch event, r =>
    type = event.type ∧ ∀ v ∈ w :: rest, v ∈ r.awaiting event
  | _, .clearingDrained w rest _, .detach, r => ∀ v ∈ w :: rest, v ∈ r.armed

section
variable {r r' r₀ : Registry ρ} {ws : List WatchHandle}

theorem Fires.serves {event : PrepareEvent} {type : RuntimeType} {fired : Nat}
    {next : Next ρ .dispatch} (hf : Fires type fired ws r r' next) (htype : type = event.type)
    (hws : ∀ v ∈ ws, v ∈ r₀.awaiting event) {f : Frame ρ .dispatch} (hn : next.frame? = some f) :
    f.Serves (.dispatch event) r₀ := by
  obtain ⟨w, requestor, rest, rfl, hmem, -⟩ := hf.frame_eq hn
  exact ⟨htype, fun v hv => hws v (hmem v hv)⟩

theorem Drains.serves {cancelled : Nat} {next : Next ρ .detach}
    (hd : Drains cancelled ws r r' next) (hws : ∀ v ∈ ws, v ∈ r₀.armed) {f : Frame ρ .detach}
    (hn : next.frame? = some f) : f.Serves .detach r₀ := by
  obtain ⟨w, requestor, rest, rfl, hmem, -⟩ := hd.frame_eq hn
  exact fun v hv => hws v (hmem v hv)

theorem Effect.serves_call {op : Operation} {c : Call ρ op} {next : Next ρ op}
    (he : Effect r (.call c) r' next) {f : Frame ρ op} (hn : next.frame? = some f) :
    f.Serves c r := by
  cases he with
  | refuses | leaves | holds | drops => cases hn
  | asks binary =>
    cases hn
    exact ⟨binary, rfl, rfl⟩
  | cancels handle armed =>
    cases hn
    exact ⟨handle, Registry.state?_of_slot? armed⟩
  | offers _ fires => exact fires.serves rfl (fun _ hv => hv) hn
  | detaches drains => exact drains.serves (fun _ hv => hv) hn

theorem Effect.serves_answer {op : Operation} {f f' : Frame ρ op} {a : f.question.Answer}
    {next : Next ρ op} (he : Effect r (.answer f a) r' next) (hn : next.frame? = some f')
    {c : Call ρ op} (hf : f.Serves c r₀) : f'.Serves c r₀ := by
  cases he with
  | fails | arms | clearedDetached | ranEarly | clearedCancelled => cases hn
  | overtaken =>
    cases hn; cases c
    exact hf.1
  | catches =>
    cases hn; cases c
    exact ⟨hf.1, hf.2.1⟩
  | clearedEarly =>
    cases hn; cases c
    exact hf
  | clearedFired =>
    cases hn; cases c
    exact hf
  | ranFired fires =>
    cases c
    exact fires.serves hf.1 (fun v hv => hf.2 v (List.mem_cons_of_mem _ hv)) hn
  | clearedDrained drains =>
    cases c
    exact drains.serves (fun v hv => hf v (List.mem_cons_of_mem _ hv)) hn

end

/-- **Every operation in progress goes back to a call** of the run. -/
theorem Run.told {s : Session ρ} {t : List (Move ρ)} (h : Run {} t s) :
    ∀ p ∈ s.stack, ∃ (c : Call ρ p.op) (r : Registry ρ),
      ⟨p.number, p.op, .call c, r⟩ ∈ t ∧ p.frame.Serves c r := by
  refine h.keeps (P := fun t _ stack => ∀ p ∈ stack, ∃ (c : Call ρ p.op) (r : Registry ρ),
    ⟨p.number, p.op, .call c, r⟩ ∈ t ∧ p.frame.Serves c r) (fun t c r n rest ih p hp => ?_) (by simp)
  rcases List.mem_append.1 hp with hp | hp
  · obtain ⟨f, hn, rfl⟩ := mem_onStack.1 hp
    have he := effect_step c r
    cases c with
    | call c => exact ⟨c, r, List.mem_append_right _ (List.mem_singleton.2 rfl), he.serves_call hn⟩
    | answer f₀ a =>
      obtain ⟨c, r₀, hc, hs⟩ := ih ⟨n, _, f₀⟩ List.mem_cons_self
      exact ⟨c, r₀, List.mem_append_left _ hc, he.serves_answer hn hs⟩
  · obtain ⟨c₀, r₀, hc, hs⟩ := ih p (List.mem_append_right _ hp)
    exact ⟨c₀, r₀, List.mem_append_left _ hc, hs⟩

theorem Run.told_answer {s : Session ρ} {t : List (Move ρ)} (h : Run {} t s) {n : Nat}
    {op : Operation} {f : Frame ρ op} {a : f.question.Answer} {r : Registry ρ}
    (hm : ⟨n, op, .answer f a, r⟩ ∈ t) : ∃ (c : Call ρ op) (r₀ : Registry ρ),
      ⟨n, op, .call c, r₀⟩ ∈ t ∧ f.Serves c r₀ := by
  obtain ⟨t₁, t₂, s₁, s₂, rfl, h₁, hm, -⟩ := h.split hm
  obtain ⟨rest, -, hst, -, -⟩ := hm.shape
  have hp : (⟨n, op, f⟩ : Pending ρ) ∈ s₁.stack := by
    rw [hst]
    exact List.mem_cons_self
  obtain ⟨c, r₀, hc, hs⟩ := h₁.told _ hp
  exact ⟨c, r₀, List.mem_append_left _ hc, hs⟩

/-! ## Watches and their requestors -/

/-- The watch that an operation makes with its answer, and the requestor handed in for it. -/
def Frame.makes {op : Operation} (r : Registry ρ) :
    (f : Frame ρ op) → f.question.Answer → Option (WatchHandle × ρ)
  | .requesting className requestor _, answer =>
    match answer with
    | Except.ok request => some (made r className request, requestor)
    | Except.error _ => none
  | _, _ => none

def Cause.makes {op : Operation} (r : Registry ρ) : Cause ρ op → Option (WatchHandle × ρ)
  | .call _ => none
  | .answer f a => f.makes r a

/-- **A registration of the run has made this watch** and was handed this requestor. -/
def Made (t : List (Move ρ)) (w : WatchHandle) (requestor : ρ) : Prop :=
  ∃ m ∈ t, m.cause.makes m.before = some (w, requestor)

theorem Made.mono {t : List (Move ρ)} {w : WatchHandle} {requestor : ρ} (h : Made t w requestor)
    (t' : List (Move ρ)) : Made (t ++ t') w requestor := by
  obtain ⟨m, hm, hw⟩ := h
  exact ⟨m, List.mem_append_left _ hm, hw⟩

theorem Made.mem {t : List (Move ρ)} {w : WatchHandle} {requestor : ρ} (h : Made t w requestor) :
    (w, requestor) ∈ t.filterMap fun m => m.cause.makes m.before :=
  List.mem_filterMap.2 h

theorem Move.eq_of_makes {m : Move ρ} {w : WatchHandle} {requestor : ρ}
    (h : m.cause.makes m.before = some (w, requestor)) : ∃ epoch,
      m = ⟨m.number, .arm, .answer (.requesting w.className requestor epoch) (Except.ok w.request),
        m.before⟩ ∧ w = made m.before w.className w.request := by
  obtain ⟨n, op, c, r⟩ := m
  cases c with
  | call c => cases h
  | answer f a =>
    cases f with
    | requesting className requestor epoch =>
      rcases a with e | request
      · cases h
      · cases h
        exact ⟨epoch, rfl, rfl⟩
    | _ => cases h

theorem Run.called_of_makes {s : Session ρ} {t : List (Move ρ)} (h : Run {} t s) {m : Move ρ}
    (hm : m ∈ t) {w : WatchHandle} {requestor : ρ}
    (hmade : m.cause.makes m.before = some (w, requestor)) : ∃ className,
      Called t m.number (.arm className requestor) ∧
        ClassName.binary? className = some w.className := by
  obtain ⟨epoch, hmove, -⟩ := Move.eq_of_makes hmade
  rw [hmove] at hm
  obtain ⟨c, r, hc, hserves⟩ := h.told_answer hm
  cases c with
  | arm className requestor' =>
    obtain ⟨hname, rfl, -⟩ := hserves
    exact ⟨className, ⟨r, hc⟩, hname⟩

/-- The requestor an operation is about to run, with its watch. -/
def Frame.due {op : Operation} : Frame ρ op → List (WatchHandle × ρ)
  | .clearingEarly w requestor _ => [(w, requestor)]
  | .clearingFired w requestor _ _ _ => [(w, requestor)]
  | _ => []

def Frame.toFire {op : Operation} : Frame ρ op → List WatchHandle
  | .clearingFired _ _ _ rest _ => rest
  | .runningFired _ _ _ rest _ => rest
  | _ => []

theorem Frame.toFire_subset_rest {op : Operation} (f : Frame ρ op) : f.toFire ⊆ f.rest := by
  cases f <;> simp [Frame.toFire, Frame.rest]

def due (stack : List (Pending ρ)) : List (WatchHandle × ρ) :=
  stack.flatMap fun p => p.frame.due

theorem due_onStack {op : Operation} (n : Nat) (f : Option (Frame ρ op))
    (stack : List (Pending ρ)) : due (onStack n f ++ stack) = f.elim [] Frame.due ++ due stack := by
  cases f <;> rfl

/-! ## The slots of the registry -/

/-- **What a step does to the slots:** nothing, or it ends an armed watch, or it makes a watch. -/
inductive Slots (r : Registry ρ) (made? : Option (WatchHandle × ρ)) (r' : Registry ρ) : Prop where
  | same (slots : r'.slots = r.slots)
  | ends {w : WatchHandle} {requestor : ρ} {x : Slot ρ}
      (armed : r.slot? w.id = some (.armed requestor)) (terminal : x = .fired ∨ x = .cancelled)
      (slots : r'.slots = (r.setSlot w.id x).slots)
  | makes {w : WatchHandle} {requestor : ρ} {x : Slot ρ} (made : made? = some (w, requestor))
      (id : w.id = ⟨r.nextId⟩) (start : x = .armed requestor ∨ x = .fired ∨ x = .cancelled)
      (slots : r'.slots = (r.addWatch w x).slots)

section
variable {r r' : Registry ρ} {ws : List WatchHandle} {m? : Option (WatchHandle × ρ)}

theorem Ends.slots {op : Operation} {x : Slot ρ}
    {wait : WatchHandle → ρ → List WatchHandle → Frame ρ op} {result : op.Result}
    {next : Next ρ op} (h : Ends x wait result ws r r' next) (hx : x = .fired ∨ x = .cancelled) :
    Slots r m? r' := by
  cases h with
  | done _ => exact .same rfl
  | next _ _ armed => exact .ends armed hx rfl

theorem Slots.of_slots {r₀ : Registry ρ} (h : Slots r₀ m? r') (hs : r₀.slots = r.slots)
    (hn : r₀.nextId = r.nextId) : Slots r m? r' := by
  cases h with
  | same slots => exact .same (slots.trans hs)
  | ends armed terminal slots =>
    refine .ends ((Registry.slot?_congr hs _).symm.trans armed) terminal (slots.trans ?_)
    unfold Registry.setSlot
    rw [hs]
  | makes made id start slots =>
    refine .makes made (hn ▸ id) start (slots.trans ?_)
    unfold Registry.addWatch
    rw [hs]

theorem Effect.slots {op : Operation} {c : Cause ρ op} {next : Next ρ op}
    (he : Effect r c r' next) : Slots r (c.makes r) r' := by
  cases he with
  | cancels handle armed =>
    obtain rfl := Registry.id_of_handle? handle
    exact .ends armed (.inr rfl) rfl
  | offers _ fires => exact (fires.slots (.inl rfl)).of_slots rfl rfl
  | detaches drains => exact (drains.slots (.inr rfl)).of_slots rfl rfl
  | overtaken _ => exact .makes rfl rfl (.inr (.inr rfl)) rfl
  | catches _ _ => exact .makes rfl rfl (.inr (.inl rfl)) rfl
  | arms _ _ => exact .makes rfl rfl (.inl rfl) rfl
  | ranFired fires => exact fires.slots (.inl rfl)
  | clearedDrained drains => exact drains.slots (.inr rfl)
  | _ => exact .same rfl

theorem Slots.handle? (h : Slots r m? r') (hr : r.Numbered) {id : WatchId} {w : WatchHandle}
    (hw : r.handle? id = some w) : r'.handle? id = some w := by
  cases h with
  | same slots => rw [Registry.handle?_congr slots, hw]
  | ends _ _ slots => rw [Registry.handle?_congr slots, Registry.handle?_setSlot, hw]
  | makes _ hid _ slots =>
    obtain rfl := Registry.id_of_handle? hw
    rw [Registry.handle?_congr slots, Registry.handle?_addWatch (Sound.slot?_made hr hid),
      if_neg (Sound.id_ne_made hr hid hw), hw]

/-- **A watch's state only ever moves from armed** to fired or cancelled. -/
theorem Slots.state? (h : Slots r m? r') (hr : r.Numbered) {id : WatchId} {x : WatchState}
    (hx : r.state? id = some x) : r'.state? id = some x ∨
      x = .armed ∧ (r'.state? id = some .fired ∨ r'.state? id = some .cancelled) := by
  cases h with
  | same slots => exact .inl (by rw [Registry.state?_congr slots, hx])
  | ends armed terminal slots =>
    rw [Registry.state?_congr slots, Registry.state?_setSlot armed]
    split
    · rename_i hid
      rw [hid, Registry.state?_of_slot? armed] at hx
      refine .inr ⟨(Option.some.inj hx).symm, ?_⟩
      rcases terminal with rfl | rfl
      · exact .inl rfl
      · exact .inr rfl
    · exact .inl hx
  | makes _ hid _ slots =>
    have hfree := Sound.slot?_made hr hid
    rw [Registry.state?_congr slots, Registry.state?_addWatch hfree]
    split
    · rename_i hid
      rw [hid, Registry.state?_eq, hfree] at hx
      cases hx
    · exact .inl hx

theorem Slots.armed_before (h : Slots r m? r') (hr : r.Numbered) {id : WatchId} {w : WatchHandle}
    (hw : r.handle? id = some w) (ha : r'.state? id = some .armed) : r.state? id = some .armed := by
  have hsome := Registry.handle?_isSome r id
  rw [hw] at hsome
  obtain ⟨y, hy⟩ := Option.isSome_iff_exists.1 hsome.symm
  have hx := Registry.state?_of_slot? hy
  rcases h.state? hr hx with hsame | ⟨hx', -⟩
  · rw [hx, ← hsame, ha]
  · rw [hx, hx']

theorem Slots.armed (h : Slots r m? r') (hr : r.Numbered) {w : WatchHandle} {requestor : ρ}
    (hw : r'.handle? w.id = some w) (ha : r'.slot? w.id = some (.armed requestor)) :
    r.handle? w.id = some w ∧ r.slot? w.id = some (.armed requestor) ∨
      m? = some (w, requestor) := by
  cases h with
  | same slots =>
    rw [Registry.handle?_congr slots] at hw
    rw [Registry.slot?_congr slots] at ha
    exact .inl ⟨hw, ha⟩
  | ends armed terminal slots =>
    rw [Registry.handle?_congr slots, Registry.handle?_setSlot] at hw
    rw [Registry.slot?_congr slots, Registry.slot?_setSlot] at ha
    split at ha
    · rename_i hid
      rw [hid, armed] at ha
      have hx := Option.some.inj ha
      rcases terminal with rfl | rfl <;> cases hx
    · exact .inl ⟨hw, ha⟩
  | makes made hid start slots =>
    have hfree := Sound.slot?_made hr hid
    rw [Registry.handle?_congr slots, Registry.handle?_addWatch hfree] at hw
    rw [Registry.slot?_congr slots, Registry.slot?_addWatch hfree] at ha
    split at ha
    · rename_i hid
      rw [if_pos hid] at hw
      obtain rfl := Option.some.inj hw
      have hx := Option.some.inj ha
      rcases start with rfl | rfl | rfl <;> cases hx
      exact .inr made
    · rename_i hid
      rw [if_neg hid] at hw
      exact .inl ⟨hw, ha⟩

/-! ## The requestors that are due -/

theorem Fires.due {type : RuntimeType} {fired : Nat} {next : Next ρ .dispatch}
    (hf : Fires type fired ws r r' next) {e : WatchHandle × ρ}
    (he : e ∈ next.frame?.elim [] Frame.due) :
    e.1 ∈ ws ∧ r.slot? e.1.id = some (.armed e.2) := by
  rcases hn : next.frame? with _ | f <;> rw [hn] at he
  · cases he
  · obtain ⟨w, requestor, rest, rfl, hmem, armed⟩ := hf.frame_eq hn
    obtain rfl := List.mem_singleton.1 he
    exact ⟨hmem _ List.mem_cons_self, armed⟩

theorem Drains.due {cancelled : Nat} {next : Next ρ .detach}
    (hd : Drains cancelled ws r r' next) : next.frame?.elim [] Frame.due = [] := by
  cases hd <;> rfl

/-- **A requestor becomes due** when its watch is fired: the watch was armed and on the armed list
or on that of the dispatch, or it has just been made. -/
theorem Effect.due {op : Operation} {c : Cause ρ op} {next : Next ρ op} (he : Effect r c r' next)
    {e : WatchHandle × ρ} (hd : e ∈ next.frame?.elim [] Frame.due) :
    e ∈ c.frame?.elim [] Frame.due ∨
      (e.1 ∈ r.armed ∨ e.1 ∈ c.frame?.elim [] Frame.toFire) ∧
        r.slot? e.1.id = some (.armed e.2) ∨
      c.makes r = some e := by
  cases he with
  | offers _ fires =>
    obtain ⟨hmem, ha⟩ := fires.due hd
    exact .inr (.inl ⟨.inl (List.mem_filter.1 hmem).1, ha⟩)
  | ranFired fires =>
    obtain ⟨hmem, ha⟩ := fires.due hd
    exact .inr (.inl ⟨.inr hmem, ha⟩)
  | catches _ _ =>
    obtain rfl := List.mem_singleton.1 hd
    exact .inr (.inr rfl)
  | detaches drains => simp [drains.due] at hd
  | clearedDrained drains => simp [drains.due] at hd
  | _ => cases hd

end

theorem Sound.handle_of_due {r : Registry ρ} {q : Nat} {op : Operation} {f : Option (Frame ρ op)}
    {ws : List WatchHandle} {es : List (WatchHandle × WatchState)}
    (h : Sound r q (f.elim [] Frame.rest ++ ws) es) {w : WatchHandle}
    (hw : w ∈ r.armed ∨ w ∈ f.elim [] Frame.toFire) : r.handle? w.id = some w := by
  rcases hw with hw | hw
  · exact h.handle_armed hw
  · cases f with
    | none => cases hw
    | some f => exact h.known w (List.mem_append_left _ (f.toFire_subset_rest hw))

/-- **Every armed watch and every requestor that is due** comes from a registration of the run. -/
structure Owned (t : List (Move ρ)) (r : Registry ρ) (due : List (WatchHandle × ρ)) : Prop where
  armed : ∀ (w : WatchHandle) (requestor : ρ), r.handle? w.id = some w →
    r.slot? w.id = some (.armed requestor) → Made t w requestor
  due : ∀ e ∈ due, Made t e.1 e.2

theorem Run.owned {s : Session ρ} {t : List (Move ρ)} (h : Run {} t s) :
    Owned t s.registry (due s.stack) := by
  refine (h.keeps_sound .empty (P := fun t r stack => Owned t r (Watch.due stack))
    (fun {op} t c r n rest he hr ho => ?_) ⟨by simp [Registry.handle?], by simp [due]⟩).2
  rw [due_onStack] at ho ⊢
  have hnew : ∀ e, c.makes r = some e → Made (t ++ [⟨n, op, c, r⟩]) e.1 e.2 := fun e hm =>
    ⟨_, List.mem_append_right _ (List.mem_singleton.2 rfl), hm⟩
  refine ⟨fun w requestor hw ha => ?_, fun e hd => ?_⟩
  · rcases he.slots.armed hr.numbered hw ha with ⟨hw, ha⟩ | hm
    · exact (ho.armed w requestor hw ha).mono _
    · exact hnew _ hm
  · rcases List.mem_append.1 hd with hd | hd
    · rcases he.due hd with hd | ⟨hw, ha⟩ | hm
      · exact (ho.due e (List.mem_append_left _ hd)).mono _
      · exact (ho.armed _ _ (hr.handle_of_due hw) ha).mono _
      · exact hnew e hm
    · exact (ho.due e (List.mem_append_right _ hd)).mono _

end DebugMap.Watch
