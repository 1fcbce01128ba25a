import DebugMap.Proofs.Watch.Waiting

/-!
# Dispatching a list of events

While no registration is in flight, an event that no armed watch awaits is dropped. So a list of
events that are dispatched in turn, with nobody disturbing, acts like one filter of the armed list:
it fires the watches that some event of the list is for (`struck`, `offerAll_eq`), each for the
first such event (`filter_runsAll`). Neither the order of the events nor their number matters.

Main statement: `dispatch_batch`.
-/

set_option autoImplicit false

namespace DebugMap.Watch

variable {ρ : Type}

/-! ## The registry -/

section
variable {r : Registry ρ} {ws vs : List WatchHandle} {e : PrepareEvent}

theorem fireAll_append (ws vs : List WatchHandle) (r : Registry ρ) :
    fireAll (ws ++ vs) r = fireAll vs (fireAll ws r) := by
  induction ws generalizing r with
  | nil => rw [List.nil_append, fireAll_nil]
  | cons w ws ih => rw [List.cons_append, fireAll_cons, ih, fireAll_cons]

theorem fireAll_congr (h : ∀ w, w ∈ ws ↔ w ∈ vs) (r : Registry ρ) : fireAll ws r = fireAll vs r := by
  unfold fireAll
  have hids : ∀ id, id ∈ ws.map WatchHandle.id ↔ id ∈ vs.map WatchHandle.id := by
    intro id
    simp only [List.mem_map, h]
  simp only [hids]

theorem map_fst_fireAll (ws : List WatchHandle) (r : Registry ρ) :
    (fireAll ws r).slots.map Prod.fst = r.slots.map Prod.fst := by
  induction ws generalizing r with
  | nil => rw [fireAll_nil]
  | cons w ws ih => rw [fireAll_cons, ih, r.map_fst_setSlot]

theorem slot?_fireAll (hr : r.Numbered) (hws : ∀ w ∈ ws, r.handle? w.id = some w) {w : WatchHandle}
    (hw : r.handle? w.id = some w) :
    (fireAll ws r).slot? w.id = if w ∈ ws then some .fired else r.slot? w.id := by
  induction ws generalizing r with
  | nil => rw [fireAll_nil, if_neg List.not_mem_nil]
  | cons v ws ih =>
    obtain ⟨hv, hrest⟩ := List.forall_mem_cons.1 hws
    have hhandle : ∀ id, (r.setSlot v.id .fired).handle? id = r.handle? id := fun id =>
      r.handle?_setSlot v.id id .fired
    have hslot : ∃ x, r.slot? w.id = some x := by
      rw [← Option.isSome_iff_exists, ← Registry.handle?_isSome, hw]
      rfl
    rw [fireAll_cons, ih (hr.of_map_fst (r.map_fst_setSlot v.id .fired) rfl)
      (fun u hu => (hhandle u.id).trans (hrest u hu)) ((hhandle w.id).trans hw),
      Registry.slot?_setSlot]
    by_cases hid : w.id = v.id
    · obtain rfl : w = v := Sound.eq_of_id hw hv hid
      obtain ⟨x, hx⟩ := hslot
      simp [hx]
    · have hne : w ≠ v := fun heq => hid (heq ▸ rfl)
      simp [hid, hne]

theorem count_fireAll (hr : r.Numbered) (harmed : ∀ w ∈ ws, r.state? w.id = some .armed)
    (hnodup : (ws.map WatchHandle.id).Nodup) :
    (fireAll ws r).count .fired = r.count .fired + ws.length := by
  induction ws generalizing r with
  | nil => rw [fireAll_nil]; rfl
  | cons w ws ih =>
    obtain ⟨ha, hrest⟩ := List.forall_mem_cons.1 harmed
    obtain ⟨hw, hnodup⟩ := List.nodup_cons.1 hnodup
    obtain ⟨requestor, hslot⟩ := Registry.state?_eq_armed.1 ha
    have hcount := hr.count_setSlot hslot .fired .fired
    have hkeep : ∀ v ∈ ws, (r.setSlot w.id .fired).state? v.id = some .armed := by
      intro v hv
      have hne : v.id ≠ w.id := fun hid => hw (hid ▸ List.mem_map_of_mem hv)
      rw [Registry.state?_setSlot_ne hne]
      exact hrest v hv
    rw [fireAll_cons, ih (hr.of_map_fst (r.map_fst_setSlot w.id .fired) rfl) hkeep hnodup]
    simp only [Slot.state, reduceCtorEq, if_false, if_true] at hcount
    rw [List.length_cons]
    omega

/-- **The armed watches that some event of a list is for.** -/
def struck (r : Registry ρ) (es : List PrepareEvent) : List WatchHandle :=
  r.armed.filter fun w => es.any fun e => w.awaits e

/-- The armed list without them. -/
def unstruck (r : Registry ρ) (es : List PrepareEvent) : List WatchHandle :=
  r.armed.filter fun w => !es.any fun e => w.awaits e

theorem offer_of_idle (h : r.inFlight = 0) (e : PrepareEvent) : offer r e =
    fireAll (r.awaiting e) { r with armed := r.armed.filter fun w => !w.awaits e } := by
  unfold offer
  rw [h, if_neg fun hh => Nat.lt_irrefl 0 hh.2]

/-- **All events of a list** fire the watches that some of them is for. -/
theorem offerAll_eq (h : r.inFlight = 0) (es : List PrepareEvent) :
    offerAll r es = fireAll (struck r es) { r with armed := unstruck r es } := by
  induction es generalizing r with
  | nil =>
    have hnone : struck r [] = [] := List.filter_eq_nil_iff.2 fun _ _ => by simp
    have hall : unstruck r [] = r.armed := List.filter_eq_self.2 fun _ _ => by simp
    rw [hnone, hall, fireAll_nil]
    rfl
  | cons e es ih =>
    have hoffer := offer_of_idle h e
    have harmed : (offer r e).armed = r.armed.filter fun w => !w.awaits e :=
      congrArg Registry.armed hoffer
    have hin : (offer r e).inFlight = 0 := (congrArg Registry.inFlight hoffer).trans h
    have hleft : unstruck (offer r e) es = unstruck r (e :: es) := by
      unfold unstruck
      rw [harmed, List.filter_filter]
      congr 1
      funext w
      simp [Bool.and_comm]
    have hstruck : ∀ w, w ∈ r.awaiting e ++ struck (offer r e) es ↔ w ∈ struck r (e :: es) := by
      intro w
      unfold struck Registry.awaiting
      rw [harmed, List.mem_append, List.filter_filter]
      simp only [List.mem_filter, List.any_cons, Bool.or_eq_true, Bool.and_eq_true,
        Bool.not_eq_true']
      by_cases hw : w.awaits e = true <;> simp [hw]
    change offerAll (offer r e) es = _
    rw [ih hin, hleft, ← fireAll_congr hstruck, fireAll_append]
    exact congrArg (fun r' : Registry ρ => fireAll (struck (offer r e) es)
      { r' with armed := unstruck r (e :: es) }) hoffer

theorem mem_struck {es : List PrepareEvent} {w : WatchHandle} :
    w ∈ struck r es ↔ w ∈ r.armed ∧ ∃ e ∈ es, w.awaits e = true := by
  rw [struck, List.mem_filter, List.any_eq_true]

theorem struck_congr {es es' : List PrepareEvent} (h : ∀ e, e ∈ es' ↔ e ∈ es) (r : Registry ρ) :
    struck r es' = struck r es ∧ unstruck r es' = unstruck r es := by
  have hany : ∀ w : WatchHandle, (es'.any fun e => w.awaits e) = es.any fun e => w.awaits e := by
    intro w
    rw [Bool.eq_iff_iff, List.any_eq_true, List.any_eq_true]
    simp only [h]
  unfold struck unstruck
  simp only [hany]
  trivial

/-! ## The requestors -/

theorem filter_runs (hnodup : r.armed.Nodup) (w : WatchHandle) :
    (runs r e).filter (fun x => x.1 = w) =
      if w ∈ r.armed ∧ w.awaits e = true then [(w, e.type)] else [] := by
  unfold runs
  rw [List.filter_map]
  have hfilter : (r.awaiting e).filter ((fun x : WatchHandle × RuntimeType => decide (x.1 = w)) ∘
      fun v => (v, e.type)) = (r.awaiting e).filter (· = w) := rfl
  rw [hfilter, List.filter_eq]
  by_cases hw : w ∈ r.armed ∧ w.awaits e = true
  · have hcount : (r.awaiting e).count w = 1 :=
      List.count_eq_one_of_mem (hnodup.filter _) (List.mem_filter.2 hw)
    rw [if_pos hw, hcount]
    rfl
  · have hcount : (r.awaiting e).count w = 0 :=
      List.count_eq_zero.2 fun hin => hw (List.mem_filter.1 hin)
    rw [if_neg hw, hcount]
    rfl

/-- **Each watch is run for the first event that it awaits.** -/
theorem filter_runsAll (h : r.inFlight = 0) (hnodup : r.armed.Nodup) (es : List PrepareEvent)
    (w : WatchHandle) :
    (runsAll r es).filter (fun x => x.1 = w) =
      if w ∈ r.armed then ((es.find? fun e => w.awaits e).map fun e => (w, e.type)).toList
      else [] := by
  induction es generalizing r with
  | nil => simp [runsAll]
  | cons e es ih =>
    have hoffer := offer_of_idle h e
    have harmed : (offer r e).armed = r.armed.filter fun w => !w.awaits e :=
      congrArg Registry.armed hoffer
    rw [runsAll, List.filter_append, filter_runs hnodup,
      ih ((congrArg Registry.inFlight hoffer).trans h) (harmed ▸ hnodup.filter _), harmed,
      List.find?_cons]
    by_cases hin : w ∈ r.armed
    · cases hw : w.awaits e <;> simp [hin, hw]
    · simp [hin]

theorem mem_armed_of_mem_runsAll (h : r.inFlight = 0) (hnodup : r.armed.Nodup)
    {es : List PrepareEvent} {x : WatchHandle × RuntimeType} (hx : x ∈ runsAll r es) :
    x.1 ∈ r.armed := by
  by_contra hout
  have hfilter := filter_runsAll h hnodup es x.1
  rw [if_neg hout, List.filter_eq_nil_iff] at hfilter
  exact hfilter x hx (by simp)

theorem Sound.increasing {q : Nat} {us : List (WatchHandle × WatchState)} (hr : Sound r q ws us) :
    r.armed.Pairwise fun v w => v.id.raw < w.id.raw := by
  have hall : (r.slots.map Prod.fst).Pairwise fun v w => v.id.raw < w.id.raw := by
    rw [List.pairwise_map, ← List.pairwise_map (f := fun e : WatchHandle × Slot ρ => e.1.id.raw),
      hr.numbered.ids]
    exact List.pairwise_lt_range'
  exact hall.sublist hr.sorted

theorem Sound.runs_increasing {q : Nat} {us : List (WatchHandle × WatchState)}
    (hr : Sound r q ws us) (e : PrepareEvent) :
    (runs r e).Pairwise fun x y => x.1.id.raw < y.1.id.raw := by
  rw [runs, List.pairwise_map]
  exact hr.increasing.sublist List.filter_sublist

theorem Sound.mem_armed_iff {q : Nat} {us : List (WatchHandle × WatchState)} (hr : Sound r q ws us)
    {w : WatchHandle} : w ∈ r.armed ↔
      r.handle? w.id = some w ∧ r.state? w.id = some .armed ∧ w ∉ ws := by
  constructor
  · intro hw
    exact ⟨hr.handle_armed hw, hr.armed w hw, fun hin =>
      (List.nodup_append.1 hr.apart).2.2 w hw w hin rfl⟩
  · rintro ⟨hw, ha, hout⟩
    exact (hr.covered w hw ha).resolve_right hout

end

/-! ## What the dispatches report -/

section
variable {s s' : Session ρ} {t : List (Move ρ)} {es : List PrepareEvent}

def firedBy (t : List (Move ρ)) : Nat :=
  (t.map fun m => m.next.fired).sum

theorem reported_append (t t' : List (Move ρ)) : reported (t ++ t') = reported t + reported t' := by
  unfold reported
  rw [List.map_append, List.sum_append, List.countP_append]
  omega

theorem reported_of_dispatches (h : ∀ m ∈ t, m.op = .dispatch) : reported t = firedBy t := by
  have hnone : t.countP (fun m => m.next.returnsFired m.after) = 0 := by
    refine List.countP_eq_zero.2 fun ⟨n, op, c, r⟩ hm => ?_
    obtain rfl : op = .dispatch := h _ hm
    simp [Next.returnsFired, Next.watch?]
  rw [reported, hnone]
  rfl

/-- **The results of the dispatches add up** to the number of watches that they fire. -/
theorem Delivers.firedBy_eq (h : Delivers es s t s') {t₀ : List (Move ρ)} (h₀ : Run {} t₀ s) :
    s.registry.count .fired + firedBy t = s'.registry.count .fired := by
  have hbefore := h₀.tally
  have hafter := (h₀.append h.run).tally
  obtain ⟨-, -, hstack⟩ := h.outcome h₀.ordered (h₀.sound .empty)
  rw [reported_append, reported_of_dispatches (h.op_eq h₀.ordered), hstack] at hafter
  omega

theorem Delivers.le_number (h : Delivers es s t s') : ∀ m ∈ t, s.calls ≤ m.number := by
  induction h with
  | nil s => simp
  | @cons e es s s₁ s' t t' first _ ih =>
    have hle := first.run.number_lt.1
    intro m hm
    rcases List.mem_append.1 hm with hm | hm
    · rcases List.mem_cons.1 hm with rfl | hm
      · exact Nat.le_refl _
      · exact Nat.le_of_eq (first.only m hm).symm
    · exact Nat.le_trans hle (ih m hm)

/-- **Within one dispatch** requestors run in the order of the ids of their watches. -/
theorem Delivers.increasing (h : Delivers es s t s') (hs : s.Ordered) (hr : s.Sound) (n : Nat) :
    (ran (t.filter fun m => m.number = n)).Pairwise fun x y => x.1.id.raw < y.1.id.raw := by
  induction h with
  | nil s => exact .nil
  | @cons e es s s₁ s' t t' first rest ih =>
    have hcalls : s.calls < s₁.calls := by
      obtain ⟨s₂, htakes, hrun⟩ := run_cons_iff.1 first.run
      exact Nat.lt_of_lt_of_le (htakes.calls_eq ▸ Nat.lt_succ_self _) hrun.number_lt.1
    rw [List.filter_append]
    by_cases hn : n = s.calls
    · -- the moves of the first dispatch
      subst hn
      have hfirst : (⟨s.calls, .dispatch, .call (.dispatch e), s.registry⟩ :: t).filter
          (fun m : Move ρ => m.number = s.calls) =
            ⟨s.calls, .dispatch, .call (.dispatch e), s.registry⟩ :: t :=
        List.filter_eq_self.2 (List.forall_mem_cons.2 ⟨by simp, fun m hm => by
          simpa using first.only m hm⟩)
      have hrest : t'.filter (fun m => m.number = s.calls) = [] :=
        List.filter_eq_nil_iff.2 fun m hm => by
          have := rest.le_number m hm
          simp only [decide_eq_true_eq]
          omega
      rw [hfirst, hrest, List.append_nil, (first.dispatch hs hr).2.ran]
      exact hr.runs_increasing e
    · have hfirst : (⟨s.calls, .dispatch, .call (.dispatch e), s.registry⟩ :: t).filter
          (fun m : Move ρ => m.number = n) = [] :=
        List.filter_eq_nil_iff.2 (List.forall_mem_cons.2 ⟨by simpa using Ne.symm hn, fun m hm => by
          have : m.number = s.calls := first.only m hm
          simpa [this] using Ne.symm hn⟩)
      rw [hfirst, List.nil_append]
      exact ih (first.run.numbers hs) (first.run.sound hr)

theorem Run.firings_eq (h : Run {} t s) {t' : List (Move ρ)} (hsub : t' ⊆ t) {w : WatchHandle}
    {requestor : ρ} (hmade : Made t w requestor) :
    firings t' w.id = ((ran t').filter fun x => x.1 = w).map fun x => (requestor, x.2) := by
  unfold firings ran
  rw [List.filter_filterMap, List.map_filterMap]
  refine List.filterMap_congr fun m hm => ?_
  rcases hst : m.starts with _ | ⟨v, requestor', type⟩
  · rfl
  · by_cases hid : v.id = w.id
    · obtain ⟨rfl, rfl⟩ := h.starts_of_id hmade (hsub hm) hst hid
      simp [Option.filter]
    · have hne : v ≠ w := fun heq => hid (heq ▸ rfl)
      simp [Option.filter, hid, hne]

/-! ## The main statement -/

/-- **A list of events is dispatched.** -/
structure Batch (s : Session ρ) (es : List PrepareEvent) (t : List (Move ρ)) (s' : Session ρ) :
    Prop where
  /-- The watches on the armed list are those that are armed, save those that an operation in
  progress is about to end. -/
  listed : ∀ w, w ∈ s.registry.armed ↔ s.registry.handle? w.id = some w ∧
    s.registry.state? w.id = some .armed ∧ ∀ p ∈ s.stack, w ∉ p.frame.rest
  slot : ∀ w, s.registry.handle? w.id = some w → s'.registry.slot? w.id =
    if w ∈ s.registry.armed ∧ ∃ e ∈ es, w.awaits e = true then some .fired
    else s.registry.slot? w.id
  armed : s'.registry.armed = s.registry.armed.filter fun w => !es.any fun e => w.awaits e
  calls : ∀ w ∈ s.registry.armed, ∀ requestor,
    s.registry.slot? w.id = some (.armed requestor) → firings t w.id =
      ((es.find? fun e => w.awaits e).map fun e => (requestor, e.type)).toList
  only : ∀ x ∈ ran t, x.1 ∈ s.registry.armed
  order : ∀ n, (ran (t.filter fun m => m.number = n)).Pairwise fun x y => x.1.id.raw < y.1.id.raw
  total : firedBy t = (struck s.registry es).length
  counted : s.registry.count .fired + firedBy t = s'.registry.count .fired
  /-- No watch is made, and all else is as it was. -/
  handles : s'.registry.slots.map Prod.fst = s.registry.slots.map Prod.fst
  nextId : s'.registry.nextId = s.registry.nextId
  detachEpoch : s'.registry.detachEpoch = s.registry.detachEpoch
  inFlight : s'.registry.inFlight = 0
  held : s'.registry.held = []
  stack : s'.stack = s.stack

/-- **The meaning of a batch.** -/
theorem Delivers.batch (h : Delivers es s t s') {t₀ : List (Move ρ)} (h₀ : Run {} t₀ s)
    (hin : s.registry.inFlight = 0) : Batch s es t s' := by
  have hs : s.Ordered := h₀.ordered
  have hr : s.Sound := h₀.sound .empty
  obtain ⟨hreg, hasks, hstack⟩ := h.outcome hs hr
  rw [offerAll_eq hin] at hreg
  have hnumbered : ({ s.registry with armed := unstruck s.registry es } : Registry ρ).Numbered :=
    ⟨hr.numbered.ids, hr.numbered.next⟩
  have hstruck : ∀ w ∈ struck s.registry es,
      s.registry.handle? w.id = some w ∧ s.registry.state? w.id = some .armed := fun w hw =>
    ⟨hr.handle_armed (mem_struck.1 hw).1, hr.armed w (mem_struck.1 hw).1⟩
  have hnodup : s.registry.armed.Nodup := (List.nodup_append.1 hr.apart).1
  have hcalls : ∀ w, (ran t).filter (fun x => x.1 = w) = if w ∈ s.registry.armed
      then ((es.find? fun e => w.awaits e).map fun e => (w, e.type)).toList else [] := by
    intro w
    rw [hasks.ran]
    exact filter_runsAll hin hnodup es w
  have hcounted := h.firedBy_eq h₀
  constructor
  case listed =>
    intro w
    rw [hr.mem_armed_iff, mem_loose]
    simp only [not_exists, not_and]
  case slot =>
    intro w hw
    have hslot := slot?_fireAll hnumbered (fun v hv => (hstruck v hv).1) hw
    rw [← hreg] at hslot
    simp only [mem_struck] at hslot
    exact hslot
  case armed => rw [hreg]; rfl
  case calls =>
    intro w hw requestor hslot
    have hmade := (h₀.owned.armed w requestor (hr.handle_armed hw) hslot).mono t
    rw [(h₀.append h.run).firings_eq (List.subset_append_right t₀ t) hmade, hcalls, if_pos hw]
    cases es.find? fun e => w.awaits e <;> rfl
  case only =>
    intro x hx
    exact mem_armed_of_mem_runsAll hin hnodup (hasks.ran ▸ hx)
  case order => exact h.increasing hs hr
  case total =>
    have hcount := count_fireAll hnumbered (fun v hv => (hstruck v hv).2)
      (hr.keyed.sublist (List.filter_sublist.map _))
    rw [← hreg, ← hcounted] at hcount
    exact Nat.add_left_cancel hcount
  case counted => exact hcounted
  case handles => rw [hreg]; exact map_fst_fireAll _ _
  case nextId => rw [hreg]; rfl
  case detachEpoch => rw [hreg]; rfl
  case inFlight => rw [hreg]; exact hin
  case held => rw [hreg]; exact hr.held_eq_nil hin
  case stack => exact hstack

end

/-- **What a list of events comes to:** from every reachable session in which no registration is in
flight, the events can be dispatched in turn with nobody disturbing, and then they have fired the
watches on the armed list that some of them is for, each for the first such event. Any other list of
the same events, in another order or with repetitions, leaves the same registry and the same
total. -/
theorem dispatch_batch {s : Session ρ} (hs : Reachable s) (hin : s.registry.inFlight = 0)
    (es : List PrepareEvent) :
    (∃ t s', Delivers es s t s') ∧ ∀ t s', Delivers es s t s' → Batch s es t s' ∧
      ∀ es' t' s'', (∀ e, e ∈ es' ↔ e ∈ es) → Delivers es' s t' s'' →
        s''.registry = s'.registry ∧ firedBy t' = firedBy t := by
  obtain ⟨t₀, h₀⟩ := hs
  refine ⟨delivers_exists h₀.ordered es, fun t s' h => ⟨h.batch h₀ hin, ?_⟩⟩
  intro es' t' s'' hsame h'
  have hreg := (h.outcome h₀.ordered (h₀.sound .empty)).1
  have hreg' := (h'.outcome h₀.ordered (h₀.sound .empty)).1
  obtain ⟨hstruck, hleft⟩ := struck_congr hsame s.registry
  rw [offerAll_eq hin] at hreg hreg'
  rw [hstruck, hleft, ← hreg] at hreg'
  refine ⟨hreg', ?_⟩
  have hcount := h.firedBy_eq h₀
  have hcount' := h'.firedBy_eq h₀
  rw [hreg'] at hcount'
  omega

/-- Three watches for class A and one for B share a request. Of four events the first is for another
request, the second for no class, and two are for A, of which the first fires the three. -/
theorem dispatch_batch_shared : ∃ (s : Session Nat) (t : List (Move Nat)) (s' : Session Nat),
    Reachable s ∧ s.registry.inFlight = 0 ∧
      Delivers [⟨⟨6⟩, ⟨⟨8⟩, "A"⟩⟩, ⟨⟨5⟩, ⟨⟨8⟩, "[A"⟩⟩, ⟨⟨5⟩, ⟨⟨9⟩, "LA;"⟩⟩, ⟨⟨5⟩, ⟨⟨10⟩, "A"⟩⟩] s t s' ∧
      firings t ⟨2⟩ = [(1, ⟨⟨9⟩, "LA;"⟩)] ∧ firedBy t = 3 ∧
      s'.registry.armed = [⟨⟨4⟩, "B", ⟨5⟩⟩] := by
  have hrun := (((((((Run.nil (s := ({} : Session Nat))).call (.arm "A" 0)).answer
    (Except.ok ⟨5⟩)).call (.arm "LA;" 1)).answer (Except.ok ⟨5⟩)).call (.arm "A" 2)).answer
    (Except.ok ⟨5⟩)).call (.arm "B" 3)
  have h := hrun.answer (Except.ok ⟨5⟩)
  obtain ⟨⟨t, s', hd⟩, hall⟩ := dispatch_batch ⟨_, h⟩ rfl
    [⟨⟨6⟩, ⟨⟨8⟩, "A"⟩⟩, ⟨⟨5⟩, ⟨⟨8⟩, "[A"⟩⟩, ⟨⟨5⟩, ⟨⟨9⟩, "LA;"⟩⟩, ⟨⟨5⟩, ⟨⟨10⟩, "A"⟩⟩]
  obtain ⟨hbatch, -⟩ := hall t s' hd
  exact ⟨_, t, s', ⟨_, h⟩, rfl, hd,
    hbatch.calls ⟨⟨2⟩, "A", ⟨5⟩⟩ (by decide) 1 rfl, hbatch.total, hbatch.armed⟩

end DebugMap.Watch
