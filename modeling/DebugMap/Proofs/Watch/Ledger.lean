import DebugMap.Proofs.Watch.Delivery
import DebugMap.Proofs.Watch.Detach
import DebugMap.Simulation

/-!
# The ledger of requests

Each watch has a request with the process, which is to be cleared once the watch has ended and not
before. `clearedFor` lists the watches on whose behalf a run clears requests. Five operations end
watches; each clears the request in the very step that ends the watch (`Clears`), so after every run
the list has the ended watches, each once (`Run.mem_clearedFor`).

`Simulated` are the runs over a simulated process that nobody else asks. Its table of requests
follows the watches (`Books`): a request is live until its watch's clear has been carried out. The
process has a new number for each request, as it does while fewer than `2 ^ 31` are made.

Main statement: `request_ledger`, for all runs and for those over a simulated process.
-/

set_option autoImplicit false

namespace DebugMap

theorem filter_mem_of_sublist {α : Type} [DecidableEq α] {xs ys : List α} (h : xs.Sublist ys)
    (hn : ys.Nodup) : ys.filter (· ∈ xs) = xs := by
  induction h with
  | slnil => rfl
  | cons a h ih =>
    obtain ⟨ha, hn⟩ := List.nodup_cons.1 hn
    rw [List.filter_cons_of_neg (by simpa using fun hin => ha (h.subset hin)), ih hn]
  | @cons_cons xs ys a h ih =>
    obtain ⟨ha, hn⟩ := List.nodup_cons.1 hn
    have hrest : ys.filter (· ∈ a :: xs) = ys.filter (· ∈ xs) := by
      apply List.filter_congr
      intro b hb
      have hne : b ≠ a := by
        rintro rfl
        exact ha hb
      simp [hne]
    rw [List.filter_cons_of_pos (by simp), hrest, ih hn]

variable {ρ : Type}

/-- **A watch has ended:** it has fired or was cancelled. -/
def Registry.Ended (r : Registry ρ) (w : WatchHandle) : Prop :=
  r.handle? w.id = some w ∧ r.state? w.id ≠ some .armed

namespace Registry

variable {r r' : Registry ρ} {w : WatchHandle}

theorem ended_congr (h : r'.slots = r.slots) (v : WatchHandle) : r'.Ended v ↔ r.Ended v := by
  unfold Ended
  rw [handle?_congr h, state?_congr h]

theorem ended_setSlot {x y : Slot ρ} (hw : r.handle? w.id = some w) (hslot : r.slot? w.id = some y)
    (hx : x.state ≠ .armed) (v : WatchHandle) :
    (r.setSlot w.id x).Ended v ↔ r.Ended v ∨ w = v := by
  unfold Ended
  rw [handle?_setSlot, state?_setSlot hslot]
  by_cases hid : v.id = w.id
  · rw [hid, if_pos rfl, hw]
    simp [hx]
    intro h _
    exact h
  · have hne : w ≠ v := by
      rintro rfl
      exact hid rfl
    simp [hid, hne]

theorem ended_addWatch (hfree : r.slot? w.id = none) (x : Slot ρ) (v : WatchHandle) :
    (r.addWatch w x).Ended v ↔ r.Ended v ∨ x.state ≠ .armed ∧ w = v := by
  unfold Ended
  rw [handle?_addWatch hfree, state?_addWatch hfree]
  by_cases hid : v.id = w.id
  · have hnone : r.handle? w.id = none := by
      have := handle?_isSome r w.id
      rw [hfree] at this
      simpa using this
    rw [hid, if_pos rfl, if_pos rfl, hnone]
    simp [and_comm]
  · have hne : w ≠ v := by
      rintro rfl
      exact hid rfl
    simp [hid, hne]

end Registry

end DebugMap

namespace DebugMap.Watch

variable {ρ : Type}

/-! ## Clearing on behalf of a watch -/

def Frame.clears? {op : Operation} : Frame ρ op → Option WatchHandle
  | .clearingDetached w => some w
  | .clearingEarly w _ _ => some w
  | .clearingCancelled w => some w
  | .clearingFired w _ _ _ _ => some w
  | .clearingDrained w _ _ => some w
  | _ => none

def Next.clears? {op : Operation} (next : Next ρ op) : Option WatchHandle :=
  next.frame?.bind Frame.clears?

/-- **The watches whose requests a run clears**, in order. -/
def clearedFor (t : List (Move ρ)) : List WatchHandle :=
  t.filterMap fun m => m.next.clears?

theorem Frame.cleared?_question {op : Operation} (f : Frame ρ op) :
    f.question.cleared? = f.clears?.map WatchHandle.request := by
  cases f <;> rfl

theorem cleared_eq (t : List (Move ρ)) : cleared t = (clearedFor t).map WatchHandle.request := by
  unfold cleared clearedFor
  rw [List.map_filterMap]
  congr 1
  funext m
  unfold Next.clears?
  cases m.next.frame? with
  | none => rfl
  | some f => exact f.cleared?_question

/-- **A step that ends no watch but the one whose request it clears**, and does end that one. -/
structure Clears (r r' : Registry ρ) (w? : Option WatchHandle) : Prop where
  ended : ∀ v, r'.Ended v ↔ r.Ended v ∨ w? = some v
  fresh : ∀ v, w? = some v → ¬ r.Ended v

section
variable {r r' r₀ : Registry ρ} {w : WatchHandle} {requestor : ρ} {x : Slot ρ}

theorem Clears.same (h : r'.slots = r.slots) : Clears r r' none :=
  ⟨fun v => by simpa using Registry.ended_congr h v, by simp⟩

theorem Clears.congr {r₁ : Registry ρ} {w? : Option WatchHandle} (h : Clears r₀ r₁ w?)
    (hs : r₀.slots = r.slots) (hs' : r'.slots = r₁.slots) : Clears r r' w? := by
  refine ⟨fun v => ?_, fun v hv => ?_⟩
  · rw [Registry.ended_congr hs', h.ended, Registry.ended_congr hs]
  · rw [← Registry.ended_congr hs]
    exact h.fresh v hv

theorem Clears.setSlot (hw : r.handle? w.id = some w)
    (harmed : r.slot? w.id = some (.armed requestor)) (hx : x.state ≠ .armed) :
    Clears r (r.setSlot w.id x) (some w) := by
  refine ⟨fun v => ?_, fun v hv ⟨_, hne⟩ => ?_⟩
  · rw [Registry.ended_setSlot hw harmed hx, Option.some.injEq]
  · obtain rfl := Option.some.inj hv
    exact hne (Registry.state?_of_slot? harmed)

theorem Clears.addWatch (hfree : r.slot? w.id = none) (hx : x.state ≠ .armed) :
    Clears r (r.addWatch w x) (some w) := by
  refine ⟨fun v => ?_, fun v hv ⟨hw, _⟩ => ?_⟩
  · rw [Registry.ended_addWatch hfree, Option.some.injEq]
    exact or_congr_right ⟨fun h => h.2, fun h => ⟨hx, h⟩⟩
  · obtain rfl := Option.some.inj hv
    have := Registry.handle?_isSome r w.id
    rw [hw, hfree] at this
    cases this

theorem Ends.clears {op : Operation} {wait : WatchHandle → ρ → List WatchHandle → Frame ρ op}
    {result : op.Result} {ws : List WatchHandle} {next : Next ρ op}
    (he : Ends x wait result ws r r' next) (hknown : ∀ v ∈ ws, r.handle? v.id = some v)
    (hx : x.state ≠ .armed) (hwait : ∀ w requestor rest, (wait w requestor rest).clears? = some w) :
    Clears r r' next.clears? := by
  cases he with
  | done _ => exact .same rfl
  | @next skipped rest w requestor split _ armed =>
    have hmem : w ∈ ws := split ▸ List.mem_append_right _ List.mem_cons_self
    have hclears : (Next.waits (wait w requestor rest)).clears? = some w := hwait w requestor rest
    rw [hclears]
    exact .setSlot (hknown w hmem) armed hx

/-- **The step that ends a watch clears its request**, and no other step does. -/
theorem Effect.clears {op : Operation} {c : Cause ρ op} {next : Next ρ op}
    (he : Effect r c r' next) {q : Nat} {ws : List WatchHandle}
    {es : List (WatchHandle × WatchState)} (hr : Sound r q (c.frame?.elim [] Frame.rest ++ ws) es) :
    Clears r r' next.clears? := by
  have hmine : ∀ v ∈ c.frame?.elim [] Frame.rest, r.handle? v.id = some v := fun v hv =>
    hr.known v (List.mem_append_left _ hv)
  have hfree : ∀ className request, r.slot? (made r className request).id = none := fun _ _ =>
    Sound.slot?_made hr.numbered rfl
  cases he with
  | cancels handle armed =>
    obtain rfl := Registry.id_of_handle? handle
    exact (Clears.setSlot (x := .cancelled) handle armed (by simp [Slot.state])).congr rfl rfl
  | @offers event _ _ _ fires =>
    have hknown : ∀ v ∈ r.awaiting event, r.handle? v.id = some v := fun v hv =>
      hr.handle_armed (List.mem_filter.1 hv).1
    exact (fires.clears hknown (by simp [Slot.state]) fun _ _ _ => rfl).congr rfl rfl
  | detaches drains =>
    exact (drains.clears (fun v hv => hr.handle_armed hv) (by simp [Slot.state])
      fun _ _ _ => rfl).congr rfl rfl
  | @overtaken className _ _ request _ =>
    have hadd := Clears.addWatch (x := .cancelled) (hfree className request) (by simp [Slot.state])
    exact hadd.congr rfl rfl
  | @catches className _ _ request _ _ _ _ =>
    have hadd := Clears.addWatch (x := .fired) (hfree className request) (by simp [Slot.state])
    exact hadd.congr rfl rfl
  | @arms className requestor _ request _ _ =>
    refine ⟨fun v => ?_, fun v hv => by cases hv⟩
    have hadd := Registry.ended_addWatch (hfree className request) (.armed requestor) v
    refine (Registry.ended_congr rfl v).trans (hadd.trans ?_)
    simp [Slot.state, Next.clears?, Next.frame?]
  | ranFired fires => exact fires.clears hmine (by simp [Slot.state]) fun _ _ _ => rfl
  | clearedDrained drains => exact drains.clears hmine (by simp [Slot.state]) fun _ _ _ => rfl
  | _ => exact .same rfl

end

theorem clearedFor_concat (t : List (Move ρ)) (m : Move ρ) :
    clearedFor (t ++ [m]) = clearedFor t ++ m.next.clears?.toList := by
  rw [clearedFor, List.filterMap_append, ← clearedFor]
  cases h : m.next.clears? <;> simp [h]

section
variable {s : Session ρ} {t : List (Move ρ)}

/-- **After every run, requests were cleared for the ended watches**, and once for each. -/
theorem Run.mem_clearedFor (h : Run {} t s) :
    (clearedFor t).Nodup ∧ ∀ w, w ∈ clearedFor t ↔ s.registry.Ended w := by
  refine (h.keeps_sound .empty (P := fun t r _ =>
      (clearedFor t).Nodup ∧ ∀ w, w ∈ clearedFor t ↔ r.Ended w)
    (fun {op} t c r n rest he hr ⟨hnodup, hended⟩ => ?_) ?_).2
  · have hstep := he.clears hr
    rw [clearedFor_concat]
    refine ⟨?_, fun w => ?_⟩
    · rw [List.nodup_append]
      refine ⟨hnodup, Option.toList_nodup _, fun v hv w hw heq => ?_⟩
      rw [Option.mem_toList] at hw
      exact hstep.fresh w hw ((hended w).1 (heq ▸ hv))
    · rw [List.mem_append, Option.mem_toList, hended]
      exact (hstep.ended w).symm
  · simp [clearedFor, Registry.Ended, Registry.handle?]

/-- **A requestor starts after its watch's request was cleared.** -/
theorem Run.cleared_of_starts {t₁ t₂ : List (Move ρ)} {m : Move ρ} (h : Run {} (t₁ ++ m :: t₂) s)
    {w : WatchHandle} {requestor : ρ} {type : RuntimeType}
    (hst : m.starts = some (w, requestor, type)) : w ∈ clearedFor t₁ := by
  obtain ⟨s₁, h₁, h₂⟩ := run_append_iff.1 h
  obtain ⟨s₂, hm, -⟩ := run_cons_iff.1 h₂
  obtain ⟨rest, hr, hstack, -, -⟩ := hm.shape
  have hs := h₁.invariant
  obtain ⟨hdue, -⟩ := (effect_step m.cause m.before).starts hst
  obtain ⟨f, hc, hdue⟩ := mem_elim.1 hdue
  have hmem : (w, .fired) ∈ ended s₁.stack := by
    rw [hstack, ended_onStack]
    exact List.mem_append_left _ (mem_elim.2 ⟨f, hc, Frame.ended_of_due hdue⟩)
  obtain ⟨-, hw, hfired⟩ := hs.ended _ hmem
  have hended : s₁.registry.Ended w := by
    refine ⟨hw, ?_⟩
    rw [hfired]
    simp
  exact (h₁.mem_clearedFor.2 w).2 hended

end

/-! ## Clearings in progress -/

/-- **The watches whose requests have been cleared** by the end of a run, in order. -/
def dismissed (t : List (Move ρ)) : List WatchHandle :=
  t.filterMap fun m => m.cause.frame?.bind Frame.clears?

/-- The watches whose requests are being cleared. -/
def clearing (stack : List (Pending ρ)) : List WatchHandle :=
  stack.filterMap fun p => p.frame.clears?

theorem dismissed_concat (t : List (Move ρ)) (m : Move ρ) :
    dismissed (t ++ [m]) = dismissed t ++ (m.cause.frame?.bind Frame.clears?).toList := by
  rw [dismissed, List.filterMap_append, ← dismissed]
  cases h : m.cause.frame?.bind Frame.clears? <;> simp [h]

theorem clearing_onStack {op : Operation} (n : Nat) (f : Option (Frame ρ op))
    (stack : List (Pending ρ)) :
    clearing (onStack n f ++ stack) = (f.bind Frame.clears?).toList ++ clearing stack := by
  rcases f with _ | f
  · rfl
  · cases h : f.clears? <;> simp [onStack, clearing, h]

/-- **What a run clears** has been cleared or is being cleared. -/
theorem Run.clearedFor_perm {s : Session ρ} {t : List (Move ρ)} (h : Run {} t s) :
    (dismissed t ++ clearing s.stack).Perm (clearedFor t) := by
  refine h.keeps (P := fun t _ stack => (dismissed t ++ clearing stack).Perm (clearedFor t))
    (fun t c r n rest ih => ?_) .nil
  rw [clearing_onStack] at ih ⊢
  rw [dismissed_concat, clearedFor_concat]
  refine List.Perm.trans ?_ (ih.append_right _)
  rw [List.append_assoc, List.append_assoc, List.append_assoc]
  exact (List.perm_append_comm.append_left _).append_left _

/-! ## Over a simulated process -/

/-- **What a simulated process answers**, and its state thereafter. A requestor is no concern of
its. -/
def Question.attend (sim : Simulation) : (q : Question ρ) → q.Answer × Simulation
  | .request className => sim.request className
  | .clear id => ((), sim.clear id)
  | .run _ _ => ((), sim)

/-- **A run over a simulated process** whose requests are all made and cleared by watches. It may
load classes at any time, and is not terminated. -/
inductive Simulated : List (Move ρ) → Session ρ → Simulation → Prop where
  | start {sim : Simulation} (live : sim.terminated = false) (requests : sim.requests = [])
      (cleared : sim.cleared = []) : Simulated [] {} sim
  | load {t : List (Move ρ)} {s : Session ρ} {sim : Simulation} (h : Simulated t s sim)
      (name : String) (methods : List String) : Simulated t s (sim.load name methods).2
  | call {t : List (Move ρ)} {s s' : Session ρ} {sim : Simulation} {n : Nat} {op : Operation}
      {c : Call ρ op} {r : Registry ρ} (h : Simulated t s sim) (hm : Takes s ⟨n, op, .call c, r⟩ s') :
      Simulated (t ++ [⟨n, op, .call c, r⟩]) s' sim
  | answer {t : List (Move ρ)} {s s' : Session ρ} {sim : Simulation} {n : Nat} {op : Operation}
      {f : Frame ρ op} {r : Registry ρ} (h : Simulated t s sim)
      (hm : Takes s ⟨n, op, .answer f (f.question.attend sim).1, r⟩ s') :
      Simulated (t ++ [⟨n, op, .answer f (f.question.attend sim).1, r⟩]) s'
        (f.question.attend sim).2

theorem Simulated.run {t : List (Move ρ)} {s : Session ρ} {sim : Simulation}
    (h : Simulated t s sim) : Run {} t s := by
  induction h with
  | start _ _ _ => exact .nil
  | load _ _ _ ih => exact ih
  | call _ hm ih => exact ih.snoc hm
  | answer _ hm ih => exact ih.snoc hm

/-- **The books of a simulated process** that serves these watches and nobody else, and has cleared
the requests of the dismissed ones. -/
structure Books (watches dismissed : List WatchHandle) (sim : Simulation) : Prop where
  live : sim.terminated = false
  requests : sim.requests =
    (watches.filter fun w => w ∉ dismissed).map fun w => (w.request, w.className)
  cleared : sim.cleared = dismissed.map WatchHandle.request
  distinct : (watches.map WatchHandle.request).Nodup
  below : ∀ w ∈ watches, w.request.raw ≤ sim.lastRequestId

namespace Books

variable {watches ds : List WatchHandle} {sim : Simulation} {w : WatchHandle}

theorem eq_of_request (h : Books watches ds sim) {v : WatchHandle} (hv : v ∈ watches)
    (hw : w ∈ watches) (heq : v.request = w.request) : v = w :=
  List.inj_on_of_nodup_map h.distinct hv hw heq

theorem request (h : Books watches ds sim) (hw : w.request = ⟨sim.lastRequestId + 1⟩)
    (hout : w ∉ ds) : Books (watches ++ [w]) ds (sim.request w.className).2 := by
  have hsim : (sim.request w.className).2 =
      { sim with
        requests := sim.requests ++ [(w.request, w.className)]
        lastRequestId := sim.lastRequestId + 1 } := by
    simp [Simulation.request, h.live, hw]
  rw [hsim]
  refine ⟨h.live, ?_, h.cleared, ?_, fun v hv => ?_⟩
  · rw [List.filter_append, List.map_append, ← h.requests]
    simp [hout]
  · rw [List.map_append, List.nodup_append]
    refine ⟨h.distinct, List.nodup_singleton _, fun id hid id' hid' heq => ?_⟩
    obtain ⟨v, hv, rfl⟩ := List.mem_map.1 hid
    have hle := h.below v hv
    rw [heq, List.mem_singleton.1 hid', hw] at hle
    change sim.lastRequestId + 1 ≤ sim.lastRequestId at hle
    omega
  · show v.request.raw ≤ sim.lastRequestId + 1
    rcases List.mem_append.1 hv with hv | hv
    · have hle := h.below v hv
      omega
    · obtain rfl := List.mem_singleton.1 hv
      exact Int.le_of_eq (congrArg RequestId.raw hw)

theorem clear (h : Books watches ds sim) (hw : w ∈ watches) (hout : w ∉ ds) :
    Books watches (ds ++ [w]) (sim.clear w.request) := by
  have hlive : (w.request, w.className) ∈ sim.requests := by
    rw [h.requests]
    exact List.mem_map_of_mem (List.mem_filter.2 ⟨hw, by simpa using hout⟩)
  have hsim : sim.clear w.request =
      { sim with
        requests := sim.requests.filter fun request => request.1 ≠ w.request
        cleared := sim.cleared ++ [w.request] } :=
    if_pos (List.any_eq_true.2 ⟨_, hlive, by simp⟩)
  rw [hsim]
  refine ⟨h.live, ?_, ?_, h.distinct, h.below⟩
  · change sim.requests.filter _ = _
    rw [h.requests, List.filter_map, List.filter_filter]
    congr 1
    apply List.filter_congr
    intro v hv
    by_cases heq : v = w
    · simp [heq]
    · have hne : v.request ≠ w.request := fun hh => heq (h.eq_of_request hv hw hh)
      simp [heq, hne]
  · change sim.cleared ++ [w.request] = _
    rw [h.cleared, List.map_append]
    rfl

/-- **Of the events for a type**, one carries the request of a watch for its class that has not been
dismissed. -/
theorem filter_eventsFor (h : Books watches ds sim) (hw : w ∈ watches) (hout : w ∉ ds)
    {type : RuntimeType} (hname : type.name = w.className) :
    ((sim.eventsFor type).filter fun e => e.request = w.request) = [⟨w.request, type⟩] := by
  have honly : (watches.filter fun v => v.request = w.request) = [w] := by
    have hsame : ∀ v ∈ watches, decide (v.request = w.request) = (v == w) := by
      intro v hv
      rw [Bool.eq_iff_iff, decide_eq_true_iff, beq_iff_eq]
      exact ⟨fun heq => h.eq_of_request hv hw heq, fun heq => heq ▸ rfl⟩
    rw [List.filter_congr hsame, List.filter_beq,
      List.count_eq_one_of_mem (List.Nodup.of_map _ h.distinct) hw, List.replicate_one]
  have hevents : ((sim.eventsFor type).filter fun e => e.request = w.request) =
      ((watches.filter fun v => v.request = w.request).filter fun v =>
        v.className = type.name ∧ v ∉ ds).map fun v => ⟨v.request, type⟩ := by
    rw [Simulation.eventsFor, h.requests]
    simp only [List.filter_map, List.filter_filter, List.map_map]
    refine congrArg₂ List.map rfl (List.filter_congr fun v _ => ?_)
    simp [Bool.and_comm]
  rw [hevents, honly]
  simp [hname, hout]

end Books

section
variable {r r' : Registry ρ}

theorem Ends.map_fst {op : Operation} {x : Slot ρ}
    {wait : WatchHandle → ρ → List WatchHandle → Frame ρ op} {result : op.Result}
    {ws : List WatchHandle} {next : Next ρ op} (he : Ends x wait result ws r r' next) :
    r'.slots.map Prod.fst = r.slots.map Prod.fst := by
  cases he with
  | done _ => rfl
  | next _ _ _ => exact r.map_fst_setSlot _ _

theorem Effect.map_fst {op : Operation} {c : Cause ρ op} {next : Next ρ op}
    (he : Effect r c r' next) :
    r'.slots.map Prod.fst = r.slots.map Prod.fst ++ (c.makes r).toList.map Prod.fst := by
  have hsame : ∀ {ws : List WatchHandle}, ws = r.slots.map Prod.fst →
      ws = r.slots.map Prod.fst ++ [] := fun h => h.trans (List.append_nil _).symm
  cases he with
  | cancels _ _ => exact hsame (r.map_fst_setSlot _ _)
  | offers _ fires => exact hsame fires.map_fst
  | detaches drains => exact hsame drains.map_fst
  | overtaken _ | catches _ _ | arms _ _ => exact List.map_append
  | ranFired fires => exact hsame fires.map_fst
  | clearedDrained drains => exact hsame drains.map_fst
  | _ => exact hsame rfl

end

/-- **The books of the process agree with the watches** of every run over it. -/
theorem Simulated.books {t : List (Move ρ)} {s : Session ρ} {sim : Simulation}
    (h : Simulated t s sim) : Books (s.registry.slots.map Prod.fst) (dismissed t) sim := by
  induction h with
  | start live requests cleared => exact ⟨live, requests, cleared, .nil, by simp⟩
  | load _ _ _ ih => exact ⟨ih.live, ih.requests, ih.cleared, ih.distinct, ih.below⟩
  | @call t s s' sim n op c r _ hm ih =>
    obtain ⟨-, rfl, rfl⟩ := hm.call_eq
    have hslots : (c.start s.registry).registry.slots.map Prod.fst =
        s.registry.slots.map Prod.fst := (effect_start c s.registry).map_fst.trans (List.append_nil _)
    rw [dismissed_concat]
    change Books ((c.start s.registry).registry.slots.map Prod.fst) (dismissed t ++ []) sim
    rwa [List.append_nil, hslots]
  | @answer t s s' sim n op f r h hm ih =>
    have hperm := h.run.clearedFor_perm
    obtain ⟨hnodup, hended⟩ := h.run.mem_clearedFor
    have hsound := h.run.invariant
    have hknown : ∀ w ∈ dismissed t ++ clearing s.stack, s.registry.handle? w.id = some w :=
      fun w hw => ((hended w).1 (hperm.subset hw)).1
    obtain ⟨stack, hst, rfl, rfl⟩ := hm.answer_eq
    rw [hst] at hperm hknown
    have hslots := (effect_resume f (f.question.attend sim).1 s.registry).map_fst
    rw [dismissed_concat]
    change Books ((f.resume _ s.registry).registry.slots.map Prod.fst)
      (dismissed t ++ f.clears?.toList) _
    rw [hslots]
    -- the watch whose request is cleared is known, and its request is cleared for the first time
    have hclear : ∀ w, f.clears? = some w → w ∈ s.registry.slots.map Prod.fst ∧
        w ∉ dismissed t := by
      intro w hw
      have hmem : w ∈ clearing (⟨n, op, f⟩ :: stack) :=
        List.mem_filterMap.2 ⟨⟨n, op, f⟩, List.mem_cons_self, hw⟩
      refine ⟨Registry.mem_of_handle? (hknown w (List.mem_append_right _ hmem)), fun hin => ?_⟩
      exact (List.nodup_append.1 (hperm.nodup_iff.2 hnodup)).2.2 w hin w hmem rfl
    have hpass : Books (s.registry.slots.map Prod.fst ++ []) (dismissed t ++ []) sim := by
      rwa [List.append_nil, List.append_nil]
    cases f with
    | requesting className requestor epoch =>
      have hnamed : (sim.request className).1 = .ok ⟨sim.lastRequestId + 1⟩ := by
        simp [Simulation.request, ih.live]
      change Books (_ ++ (Frame.makes s.registry (.requesting className requestor epoch)
        (sim.request className).1).toList.map Prod.fst) (dismissed t ++ [])
        (sim.request className).2
      rw [hnamed, List.append_nil]
      refine ih.request (w := made s.registry className ⟨sim.lastRequestId + 1⟩) rfl fun hin => ?_
      exact Sound.id_ne_made hsound.numbered rfl (hknown _ (List.mem_append_left _ hin)) rfl
    | runningEarly w requestor type => exact hpass
    | runningFired w requestor type rest fired => exact hpass
    | clearingDetached w | clearingEarly w _ _ | clearingCancelled w | clearingFired w _ _ _ _
    | clearingDrained w _ _ =>
      obtain ⟨hmem, hout⟩ := hclear w rfl
      have hbooks := ih.clear hmem hout
      rw [← List.append_nil (s.registry.slots.map Prod.fst)] at hbooks
      exact hbooks

/-! ## The main statement -/

/-- **The requests cleared by a run**, with the watches at its end. -/
structure Ledger (t : List (Move ρ)) (s : Session ρ) : Prop where
  named : cleared t = (clearedFor t).map WatchHandle.request
  known : ∀ w ∈ clearedFor t, s.registry.handle? w.id = some w
  /-- A request is cleared once for a watch that has ended, and not at all for an armed one. -/
  count : ∀ w, s.registry.handle? w.id = some w →
    (clearedFor t).count w = if s.registry.state? w.id = some .armed then 0 else 1
  before : ∀ t₁ m t₂, t = t₁ ++ m :: t₂ → ∀ w requestor type,
    m.starts = some (w, requestor, type) → w ∈ clearedFor t₁

/-- **The tables of a simulated process** that serves the watches of a registry and nobody else. -/
structure Tables (r : Registry ρ) (sim : Simulation) : Prop where
  requests : sim.requests = r.armed.map fun w => (w.request, w.className)
  armed : ∀ w, w ∈ r.armed ↔ r.handle? w.id = some w ∧ r.state? w.id = some .armed
  /-- The cleared requests are those of the watches that have ended, each once. -/
  cleared : sim.cleared.Perm
    ((r.slots.filter fun e => e.2.state ≠ .armed).map fun e => e.1.request)
  once : sim.cleared.Nodup

theorem Run.ledger {s : Session ρ} {t : List (Move ρ)} (h : Run {} t s) : Ledger t s := by
  obtain ⟨hnodup, hended⟩ := h.mem_clearedFor
  refine ⟨cleared_eq t, fun w hw => ((hended w).1 hw).1, fun w hw => ?_,
    fun t₁ m t₂ ht w requestor type hst => ?_⟩
  · split
    · rename_i harmed
      exact List.count_eq_zero.2 fun hin => ((hended w).1 hin).2 harmed
    · rename_i hne
      exact List.count_eq_one_of_mem hnodup ((hended w).2 ⟨hw, hne⟩)
  · rw [ht] at h
    exact h.cleared_of_starts hst

theorem Simulated.tables {t : List (Move ρ)} {s : Session ρ} {sim : Simulation}
    (h : Simulated t s sim) (hst : s.stack = []) : Tables s.registry sim := by
  have hbooks := h.books
  have hperm := h.run.clearedFor_perm
  obtain ⟨hnodup, hended⟩ := h.run.mem_clearedFor
  obtain ⟨harmed, -⟩ := (coherent_of_run h.run).quiescent hst
  have hsound := h.run.invariant
  rw [hst] at hperm
  have hmem : ∀ w, w ∈ dismissed t ↔ s.registry.Ended w := fun w => by
    rw [← hended, ← hperm.mem_iff]
    simp [clearing]
  have hdismissed : (dismissed t).Nodup := by
    have := hperm.nodup_iff.2 hnodup
    simpa [clearing] using this
  have hended' : ∀ w, w ∈ (s.registry.slots.filter fun e => e.2.state ≠ .armed).map Prod.fst ↔
      s.registry.Ended w := by
    intro w
    constructor
    · intro hw
      obtain ⟨⟨v, y⟩, he, rfl⟩ := List.mem_map.1 hw
      obtain ⟨he, hy⟩ := List.mem_filter.1 he
      refine ⟨hsound.numbered.handle?_of_mem (List.mem_map_of_mem he), ?_⟩
      rw [Registry.state?_of_slot? (hsound.numbered.slot?_of_mem he)]
      simpa using hy
    · rintro ⟨hw, hne⟩
      obtain ⟨⟨v, y⟩, he, rfl⟩ := List.mem_map.1 (Registry.mem_of_handle? hw)
      rw [Registry.state?_of_slot? (hsound.numbered.slot?_of_mem he)] at hne
      exact List.mem_map_of_mem (List.mem_filter.2 ⟨he, by simpa using hne⟩)
  refine ⟨?_, harmed, ?_, ?_⟩
  · rw [hbooks.requests, ← filter_mem_of_sublist hsound.sorted hsound.numbered.nodup_handles]
    congr 1
    apply List.filter_congr
    intro w hw
    have hiff : w ∉ dismissed t ↔ w ∈ s.registry.armed := by
      rw [hmem, harmed, Registry.Ended, hsound.numbered.handle?_of_mem hw]
      simp
    simp [hiff]
  · rw [hbooks.cleared]
    have hperm' : (dismissed t).Perm
        ((s.registry.slots.filter fun e => e.2.state ≠ .armed).map Prod.fst) := by
      rw [List.perm_ext_iff_of_nodup hdismissed
        (hsound.numbered.nodup_handles.sublist (List.filter_sublist.map _))]
      exact fun w => (hmem w).trans (hended' w).symm
    have := hperm'.map WatchHandle.request
    rwa [List.map_map] at this
  · rw [hbooks.cleared]
    have hslots : ∀ w ∈ dismissed t, w ∈ s.registry.slots.map Prod.fst := fun w hw =>
      Registry.mem_of_handle? ((hmem w).1 hw).1
    exact hdismissed.map_on fun v hv w hw heq =>
      hbooks.eq_of_request (hslots v hv) (hslots w hw) heq

/-- **The manager clears each request once**, when its watch has ended; so while nothing is in
progress, a simulated process that serves its watches alone, with fewer than `2 ^ 31` requests, has
the requests of the armed ones and has cleared those of all others. -/
theorem request_ledger {s : Session ρ} {t : List (Move ρ)} (h : Run {} t s) :
    Ledger t s ∧ ∀ sim, Simulated t s sim → s.stack = [] → Tables s.registry sim :=
  ⟨h.ledger, fun _ hsim hst => hsim.tables hst⟩

/-- A watch for class D takes the event that was delivered before its request was named. Then the
requestor of a watch for class A cancels the one for class B, and the one for class C stays
armed. -/
theorem request_ledger_nested : ∃ (t : List (Move Nat)) (s : Session Nat) (sim : Simulation),
    Run {} t s ∧ Simulated t s sim ∧ s.stack = [] ∧ s.registry.armed = [⟨⟨3⟩, "C", ⟨3⟩⟩] ∧
      sim.requests = [(⟨3⟩, "C")] ∧ sim.cleared = [⟨4⟩, ⟨1⟩, ⟨2⟩] ∧ Ledger t s ∧
      Tables s.registry sim := by
  have h₀ : Simulated (ρ := Nat) [] {} {} := .start rfl rfl rfl
  have h₁ := (h₀.call (.call _ _ _ (.arm "A" 0))).answer (.answer _ _ _ _ _ _)
  have h₂ := (h₁.call (.call _ _ _ (.arm "LB;" 1))).answer (.answer _ _ _ _ _ _)
  have h₃ := (h₂.call (.call _ _ _ (.arm "C" 2))).answer (.answer _ _ _ _ _ _)
  have h₄ := (h₃.call (.call _ _ _ (.arm "D" 3))).call
    (.call _ _ _ (.dispatch ⟨⟨4⟩, ⟨⟨9⟩, "D"⟩⟩))
  have h₅ := ((h₄.answer (.answer _ _ _ _ _ _)).answer (.answer _ _ _ _ _ _)).answer
    (.answer _ _ _ _ _ _)
  have h₆ := (h₅.call (.call _ _ _ (.dispatch ⟨⟨1⟩, ⟨⟨8⟩, "A"⟩⟩))).answer (.answer _ _ _ _ _ _)
  have h₇ := ((h₆.call (.call _ _ _ (.cancel ⟨2⟩))).answer (.answer _ _ _ _ _ _)).answer
    (.answer _ _ _ _ _ _)
  obtain ⟨hledger, htables⟩ := request_ledger h₇.run
  exact ⟨_, _, _, h₇.run, h₇, rfl, rfl, rfl, rfl, hledger, htables _ h₇ rfl⟩

end DebugMap.Watch
