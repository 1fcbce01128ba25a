import DebugMap.Proofs.Watch.Alone
import DebugMap.Proofs.Watch.OneShot

/-!
# Early and late delivery

The process may deliver the preparation of a class before it has named the request that a
registration waits for: the event is held then, and the registration takes it. `offer` is what a
dispatch that nobody disturbs does to a registry and `settled` what the end of a registration does.
The two commute (`offer_settled`), so an event fires the same watches on either side of the end of
the registration.

Main statement: `early_delivery`, for all events and every moment at which the process names the
request.
-/

set_option autoImplicit false

namespace DebugMap.Watch

variable {ρ : Type}

/-! ## The registry after a dispatch -/

def fireAll (ws : List WatchHandle) (r : Registry ρ) : Registry ρ :=
  { r with
    slots := r.slots.map fun e => if e.1.id ∈ ws.map WatchHandle.id then (e.1, .fired) else e }

/-- **The registry after a dispatch** that nobody disturbs: an event that no watch awaits is held
for the registrations in flight, another one fires all watches that await it. -/
def offer (r : Registry ρ) (e : PrepareEvent) : Registry ρ :=
  if r.awaiting e = [] ∧ 0 < r.inFlight then { r with held := r.held ++ [e] }
  else fireAll (r.awaiting e) { r with armed := r.armed.filter fun w => !w.awaits e }

def runs (r : Registry ρ) (e : PrepareEvent) : List (WatchHandle × RuntimeType) :=
  (r.awaiting e).map fun w => (w, e.type)

def offerAll (r : Registry ρ) (es : List PrepareEvent) : Registry ρ :=
  es.foldl offer r

def runsAll (r : Registry ρ) : List PrepareEvent → List (WatchHandle × RuntimeType)
  | [] => []
  | e :: es => runs r e ++ runsAll (offer r e) es

theorem offerAll_append (r : Registry ρ) (es es' : List PrepareEvent) :
    offerAll r (es ++ es') = offerAll (offerAll r es) es' := by
  unfold offerAll
  rw [List.foldl_append]

theorem runsAll_append (r : Registry ρ) (es es' : List PrepareEvent) :
    runsAll r (es ++ es') = runsAll r es ++ runsAll (offerAll r es) es' := by
  induction es generalizing r with
  | nil => rfl
  | cons e es ih =>
    rw [List.cons_append, runsAll, ih, runsAll, List.append_assoc]
    rfl

theorem fireAll_nil (r : Registry ρ) : fireAll [] r = r := by
  simp [fireAll]

theorem fireAll_cons (w : WatchHandle) (ws : List WatchHandle) (r : Registry ρ) :
    fireAll (w :: ws) r = fireAll ws (r.setSlot w.id .fired) := by
  unfold fireAll Registry.setSlot
  rw [List.map_map]
  congr 1
  apply List.map_congr_left
  intro e _
  by_cases hw : e.1.id = w.id <;> simp [hw]

theorem fireAll_addWatch {ws : List WatchHandle} {w : WatchHandle} (h : ∀ v ∈ ws, v.id ≠ w.id)
    (r : Registry ρ) (x : Slot ρ) : fireAll ws (r.addWatch w x) = (fireAll ws r).addWatch w x := by
  have hout : w.id ∉ ws.map WatchHandle.id := fun hin => by
    obtain ⟨v, hv, hid⟩ := List.mem_map.1 hin
    exact h v hv hid
  unfold fireAll Registry.addWatch
  rw [List.map_append, List.map_singleton, if_neg hout]

theorem fireAll_added {r : Registry ρ} {w : WatchHandle} (h : ∀ e ∈ r.slots, e.1.id ≠ w.id)
    (x : Slot ρ) : fireAll [w] (r.addWatch w x) = r.addWatch w .fired := by
  have hkeep : r.slots.map (fun e => if e.1.id = w.id then (e.1, .fired) else e) = r.slots := by
    conv => rhs; rw [← List.map_id r.slots]
    apply List.map_congr_left
    intro e he
    rw [if_neg (h e he)]
    rfl
  simp [fireAll, Registry.addWatch, hkeep]

/-! ## The registry after a registration -/

def claimed (r : Registry ρ) (w : WatchHandle) : Option PrepareEvent :=
  r.held.find? fun e => w.awaits e

/-- What the end of the only registration in flight leaves, with these watches. -/
def settledWith (r : Registry ρ) (slots : List (WatchHandle × Slot ρ)) (armed : List WatchHandle) :
    Registry ρ :=
  { slots, armed, nextId := r.nextId + 1, inFlight := 0, held := [], detachEpoch := r.detachEpoch }

/-- **The registry after the only registration in flight** has ended that nobody disturbs: the new
watch has fired if an event it awaits is held, and is armed otherwise. -/
def settled (r : Registry ρ) (w : WatchHandle) (requestor : ρ) : Registry ρ :=
  match claimed r w with
  | some _ => settledWith r (r.slots ++ [(w, .fired)]) r.armed
  | none => settledWith r (r.slots ++ [(w, .armed requestor)]) (r.armed ++ [w])

def runsEarly (r : Registry ρ) (w : WatchHandle) : List (WatchHandle × RuntimeType) :=
  (claimed r w).toList.map fun e => (w, e.type)

/-- **A watch about to be made** by the only registration in flight, with a request of its own. -/
structure Expects (r : Registry ρ) (w : WatchHandle) : Prop where
  inFlight : r.inFlight = 1
  free : ∀ e ∈ r.slots, e.1.id ≠ w.id
  others : ∀ v ∈ r.armed, v.id ≠ w.id ∧ v.request ≠ w.request

section
variable {r : Registry ρ} {w : WatchHandle} {e : PrepareEvent}

theorem Expects.offer (h : Expects r w) (e : PrepareEvent) : Expects (offer r e) w := by
  unfold Watch.offer
  split
  · exact ⟨h.inFlight, h.free, h.others⟩
  · refine ⟨h.inFlight, fun x hx => ?_, fun v hv => h.others v (List.mem_filter.1 hv).1⟩
    obtain ⟨y, hy, rfl⟩ := List.mem_map.1 hx
    split
    · exact h.free y hy
    · exact h.free y hy

theorem Expects.awaiting_eq_nil (h : Expects r w) (he : w.awaits e = true) : r.awaiting e = [] := by
  rw [Registry.awaiting, List.filter_eq_nil_iff]
  intro v hv hve
  simp only [WatchHandle.awaits, Bool.and_eq_true, decide_eq_true_eq] at he hve
  exact (h.others v hv).2 (hve.1.trans he.1.symm)

theorem filter_of_awaiting_eq_nil (h : r.awaiting e = []) :
    r.armed.filter (fun w => !w.awaits e) = r.armed := by
  rw [List.filter_eq_self]
  intro v hv
  simpa using List.filter_eq_nil_iff.1 h v hv

theorem offer_of_awaiting_eq_nil (h : r.awaiting e = []) :
    offer r e = if 0 < r.inFlight then { r with held := r.held ++ [e] } else r := by
  unfold offer
  rw [h]
  split
  · rename_i hpos
    rw [if_pos hpos.2]
  · rename_i hpos
    rw [if_neg fun hh => hpos ⟨rfl, hh⟩, filter_of_awaiting_eq_nil h, fireAll_nil]

theorem offer_of_awaiting_ne_nil (h : r.awaiting e ≠ []) : offer r e =
    fireAll (r.awaiting e) { r with armed := r.armed.filter fun w => !w.awaits e } := by
  unfold offer
  rw [if_neg fun hh => h hh.1]

theorem awaiting_settled (requestor : ρ) : (settled r w requestor).awaiting e =
    r.awaiting e ++ if claimed r w = none ∧ w.awaits e = true then [w] else [] := by
  unfold settled Registry.awaiting
  rcases claimed r w with _ | c
  · change (r.armed ++ [w]).filter _ = _
    rw [List.filter_append]
    by_cases he : w.awaits e = true <;> simp [he]
  · simp [settledWith]

theorem claimed_offer (h : Expects r w) (e : PrepareEvent) : claimed (offer r e) w =
    (claimed r w).or (if w.awaits e then some e else none) := by
  by_cases he : r.awaiting e = []
  · rw [offer_of_awaiting_eq_nil he, if_pos (h.inFlight ▸ Nat.one_pos)]
    unfold claimed
    rw [List.find?_append]
    by_cases hw : w.awaits e <;> simp [hw]
  · have hw : ¬ w.awaits e = true := fun hw => he (h.awaiting_eq_nil hw)
    rw [offer_of_awaiting_ne_nil he, if_neg hw, Option.or_none]
    rfl

theorem settled_of_claimed {c : PrepareEvent} (h : claimed r w = some c) (requestor : ρ) :
    settled r w requestor = settledWith r (r.slots ++ [(w, .fired)]) r.armed := by
  unfold settled
  rw [h]

theorem settled_of_unclaimed (h : claimed r w = none) (requestor : ρ) :
    settled r w requestor =
      settledWith r (r.slots ++ [(w, .armed requestor)]) (r.armed ++ [w]) := by
  unfold settled
  rw [h]

theorem offer_settled_of_awaiting_eq_nil {requestor : ρ}
    (h : (settled r w requestor).awaiting e = []) :
    offer (settled r w requestor) e = settled r w requestor := by
  have hin : (settled r w requestor).inFlight = 0 := by
    unfold settled
    split <;> rfl
  rw [offer_of_awaiting_eq_nil h, hin]
  rfl

theorem offer_settled (h : Expects r w) (e : PrepareEvent) (requestor : ρ) :
    offer (settled r w requestor) e = settled (offer r e) w requestor := by
  have hawait := awaiting_settled (r := r) (w := w) (e := e) requestor
  have hclaim := claimed_offer h e
  by_cases he : r.awaiting e = []
  · have hoffer := offer_of_awaiting_eq_nil he
    rw [if_pos (h.inFlight ▸ Nat.one_pos)] at hoffer
    rw [he, List.nil_append] at hawait
    rcases hc : claimed r w with _ | c <;> rw [hc] at hawait hclaim
    · by_cases hw : w.awaits e = true
      · -- the event is the new watch's first: it fires the watch, or it is held and taken
        rw [if_pos ⟨rfl, hw⟩] at hawait
        rw [Option.none_or, if_pos hw] at hclaim
        have hkeep : (r.armed ++ [w]).filter (fun v => !v.awaits e) = r.armed := by
          rw [List.filter_append, filter_of_awaiting_eq_nil he]
          simp [hw]
        rw [settled_of_claimed hclaim, offer_of_awaiting_ne_nil (by rw [hawait]; simp), hawait,
          settled_of_unclaimed hc, hoffer]
        have hslots := congrArg Registry.slots (fireAll_added h.free (.armed requestor))
        exact congrArg₂ (settledWith r) hslots hkeep
      · rw [if_neg fun hh => hw hh.2] at hawait
        rw [Option.none_or, if_neg hw] at hclaim
        rw [offer_settled_of_awaiting_eq_nil hawait, settled_of_unclaimed hc,
          settled_of_unclaimed hclaim, hoffer]
        rfl
    · rw [if_neg fun hh => nomatch hh.1] at hawait
      rw [Option.some_or] at hclaim
      rw [offer_settled_of_awaiting_eq_nil hawait, settled_of_claimed hc,
        settled_of_claimed hclaim, hoffer]
      rfl
  · have hw : ¬ w.awaits e = true := fun hw => he (h.awaiting_eq_nil hw)
    rw [if_neg fun hh => hw hh.2, List.append_nil] at hawait
    rw [if_neg hw, Option.or_none] at hclaim
    have hout : ∀ v ∈ r.awaiting e, v.id ≠ w.id := fun v hv =>
      (h.others v (List.mem_filter.1 hv).1).1
    rw [offer_of_awaiting_ne_nil (hawait ▸ he), hawait]
    rcases hc : claimed r w with _ | c <;> rw [hc] at hclaim
    · have hkeep : (r.armed ++ [w]).filter (fun v => !v.awaits e) =
          r.armed.filter (fun v => !v.awaits e) ++ [w] := by
        rw [List.filter_append]
        simp [hw]
      rw [settled_of_unclaimed hc, settled_of_unclaimed hclaim, offer_of_awaiting_ne_nil he]
      have hslots := congrArg Registry.slots (fireAll_addWatch hout r (.armed requestor))
      exact congrArg₂ (settledWith r) hslots hkeep
    · rw [settled_of_claimed hc, settled_of_claimed hclaim, offer_of_awaiting_ne_nil he]
      have hslots := congrArg Registry.slots (fireAll_addWatch hout r .fired)
      exact congrArg (settledWith r · (r.armed.filter fun v => !v.awaits e)) hslots

theorem runs_settled (h : Expects r w) (e : PrepareEvent) (requestor : ρ) :
    (runsEarly r w ++ runs (settled r w requestor) e).Perm
      (runs r e ++ runsEarly (offer r e) w) := by
  unfold runs runsEarly
  rw [awaiting_settled, claimed_offer h]
  rcases claimed r w with _ | c
  · by_cases hw : w.awaits e = true <;> simp [hw]
  · have hswap : ([(w, c.type)] ++ runs r e).Perm (runs r e ++ [(w, c.type)]) :=
      List.perm_append_comm
    simpa [runs] using hswap

/-- **All events before the end of a registration** come to the same as all after it. -/
theorem offerAll_settled (h : Expects r w) (es : List PrepareEvent) (requestor : ρ) :
    offerAll (settled r w requestor) es = settled (offerAll r es) w requestor ∧
      (runsEarly r w ++ runsAll (settled r w requestor) es).Perm
        (runsAll r es ++ runsEarly (offerAll r es) w) := by
  induction es generalizing r with
  | nil => exact ⟨rfl, by simp [runsAll, offerAll]⟩
  | cons e es ih =>
    obtain ⟨hreg, hruns⟩ := ih (h.offer e)
    have hstep := offer_settled h e requestor
    have hperm := runs_settled h e requestor
    rw [← hstep] at hreg hruns
    refine ⟨hreg, ?_⟩
    rw [runsAll, runsAll, ← List.append_assoc, List.append_assoc (runs r e)]
    refine (hperm.append_right _).trans ?_
    rw [List.append_assoc]
    exact hruns.append_left _

/-- The event that the new watch takes at last is the first it awaits of all. -/
theorem claimed_offerAll (h : Expects r w) (es : List PrepareEvent) :
    claimed (offerAll r es) w = (claimed r w).or (es.find? fun e => w.awaits e) := by
  induction es generalizing r with
  | nil => exact Option.or_none.symm
  | cons e es ih =>
    change claimed (offerAll (offer r e) es) w = _
    rw [ih (h.offer e), claimed_offer h, List.find?_cons]
    rcases claimed r w with _ | c
    · cases w.awaits e <;> rfl
    · rfl

theorem runsAll_others (h : Expects r w) (es : List PrepareEvent) :
    ∀ e ∈ runsAll r es, e.1 ≠ w := by
  induction es generalizing r with
  | nil => simp [runsAll]
  | cons e es ih =>
    intro x hx
    rcases List.mem_append.1 hx with hx | hx
    · obtain ⟨v, hv, rfl⟩ := List.mem_map.1 hx
      rintro rfl
      exact (h.others _ (List.mem_filter.1 hv).1).1 rfl
    · exact ih (h.offer e) x hx

end

/-! ## What a run asks for -/

def Question.cleared? : Question ρ → Option RequestId
  | .clear id => some id
  | _ => none

def cleared (t : List (Move ρ)) : List RequestId :=
  t.filterMap fun m => m.next.frame?.bind fun f => f.question.cleared?

def ran (t : List (Move ρ)) : List (WatchHandle × RuntimeType) :=
  t.filterMap fun m => m.starts.map fun e => (e.1, e.2.2)

theorem cleared_append (t t' : List (Move ρ)) : cleared (t ++ t') = cleared t ++ cleared t' :=
  List.filterMap_append

theorem ran_append (t t' : List (Move ρ)) : ran (t ++ t') = ran t ++ ran t' :=
  List.filterMap_append

/-- **A run that starts these requestors** in this order and clears the requests of their
watches. -/
structure Asks (t : List (Move ρ)) (es : List (WatchHandle × RuntimeType)) : Prop where
  ran : ran t = es
  cleared : cleared t = es.map fun e => e.1.request

theorem Asks.append {t t' : List (Move ρ)} {es es' : List (WatchHandle × RuntimeType)}
    (h : Asks t es) (h' : Asks t' es') : Asks (t ++ t') (es ++ es') := by
  refine ⟨?_, ?_⟩
  · rw [ran_append, h.ran, h'.ran]
  · rw [cleared_append, h.cleared, h'.cleared, List.map_append]

theorem asks_of_returns {m : Move ρ} (h : m.next.frame? = none) : Asks [m] [] := by
  refine ⟨?_, ?_⟩
  · simp [Watch.ran, Move.starts, Next.starts, h]
  · simp [Watch.cleared, h]

theorem asks_of_waits {m : Move ρ} {f : Frame ρ m.op} (hf : m.next.frame? = some f)
    (hr : f.running? = none) (hc : f.question.cleared? = none) : Asks [m] [] := by
  refine ⟨?_, ?_⟩
  · simp [Watch.ran, Move.starts, Next.starts, hf, hr]
  · simp [Watch.cleared, hf, hc]

theorem asks_of_fires {m m' : Move ρ} {f : Frame ρ m.op} {f' : Frame ρ m'.op} {w : WatchHandle}
    {requestor : ρ} {type : RuntimeType} (hf : m.next.frame? = some f)
    (hq : f.question = .clear w.request) (hf' : m'.next.frame? = some f')
    (hr : f'.running? = some (w, requestor, type)) : Asks [m, m'] [(w, type)] := by
  have hnot : f.running? = none := by
    rcases hf : f.running? with _ | ⟨v, q, ty⟩
    · rfl
    · rw [(f.question_eq_run q ty).2 ⟨v, hf⟩] at hq
      cases hq
  have hq₀ : f.question.cleared? = some w.request := by
    rw [hq]
    rfl
  have hq' : f'.question.cleared? = none := by
    rw [(f'.question_eq_run requestor type).2 ⟨w, hr⟩]
    rfl
  refine ⟨?_, ?_⟩
  · simp [Watch.ran, Move.starts, Next.starts, hf, hf', hnot, hr]
  · simp [Watch.cleared, hf, hf', hq₀, hq']

/-! ## Lone dispatches -/

/-- **A list of armed watches is fired to its end**: each request is cleared and each requestor
runs. -/
theorem Alone.fires {type : RuntimeType} {ws : List WatchHandle} {k n : Nat}
    {c : Cause ρ .dispatch} {r r₀ : Registry ρ} {s s' : Session ρ} {t : List (Move ρ)}
    (h : Alone s ⟨n, .dispatch, c, r⟩ t s') (hs : s.Ordered)
    (hreg : (c.step r).registry = (fireNext type k ws r₀).registry)
    (hnext : (c.step r).next = (fireNext type k ws r₀).next)
    (harmed : ∀ w ∈ ws, r₀.state? w.id = some .armed) (hnodup : (ws.map WatchHandle.id).Nodup) :
    s'.registry = fireAll ws r₀ ∧
      Asks (⟨n, .dispatch, c, r⟩ :: t) (ws.map fun w => (w, type)) := by
  induction ws generalizing k c r r₀ s t with
  | nil =>
    have hnone : (⟨n, .dispatch, c, r⟩ : Move ρ).next.frame? = none :=
      congrArg Next.frame? hnext
    rcases h.cases hs with ⟨-, rfl, htakes⟩ | ⟨f, _, _, _, hf, _⟩
    · obtain ⟨-, -, -, hr, -⟩ := htakes.shape
      refine ⟨?_, asks_of_returns hnone⟩
      rw [fireAll_nil, hr]
      exact hreg
    · rw [hnone] at hf
      cases hf
  | cons w ws ih =>
    obtain ⟨ha, hrest⟩ := List.forall_mem_cons.1 harmed
    obtain ⟨hw, hnodup⟩ := List.nodup_cons.1 hnodup
    obtain ⟨requestor, hslot⟩ := Registry.state?_eq_armed.1 ha
    have hretire := Registry.retire_eq_some (x := .fired).2 ⟨hslot, rfl⟩
    rw [fireNext, hretire] at hreg hnext
    have hf₁ := congrArg Next.frame? hnext
    -- the watch's request is cleared
    rcases h.cases hs with ⟨hf, -⟩ | ⟨f, a, t₁, s₁, hf, rfl, htakes, h₁⟩
    · cases hf.symm.trans hf₁
    cases hf.symm.trans hf₁
    -- its requestor runs
    rcases h₁.cases (htakes.ordered hs) with ⟨hf', -⟩ | ⟨f, a', t₂, s₂, hf', rfl, htakes₁, h₂⟩
    · cases hf'
    cases hf'
    have hkeep : ∀ v ∈ ws, (r₀.setSlot w.id .fired).state? v.id = some .armed := by
      intro v hv
      have hne : v.id ≠ w.id := fun hid => hw (hid ▸ List.mem_map_of_mem hv)
      rw [Registry.state?_setSlot_ne hne]
      exact hrest v hv
    have hreg' : (⟨n, .dispatch, c, r⟩ : Move ρ).after = r₀.setSlot w.id .fired := hreg
    obtain ⟨hend, hasks⟩ := ih (k := k + 1) h₂ (htakes₁.ordered (htakes.ordered hs))
      (congrArg (fun r => (fireNext type (k + 1) ws r).registry) hreg')
      (congrArg (fun r => (fireNext type (k + 1) ws r).next) hreg') hkeep hnodup
    rw [fireAll_cons]
    exact ⟨hend, (asks_of_fires hf rfl rfl rfl).append hasks⟩

/-- **A dispatch that nobody disturbs.** -/
theorem Alone.dispatch {n : Nat} {e : PrepareEvent} {r : Registry ρ} {s s' : Session ρ}
    {t : List (Move ρ)} (h : Alone s ⟨n, .dispatch, .call (.dispatch e), r⟩ t s')
    (hs : s.Ordered) {q : Nat} {ws : List WatchHandle} {es : List (WatchHandle × WatchState)}
    (hr : Sound r q ws es) :
    s'.registry = offer r e ∧ Asks (⟨n, .dispatch, .call (.dispatch e), r⟩ :: t) (runs r e) := by
  by_cases he : r.awaiting e = []
  · have hstart : ((Call.dispatch e).start r).registry = offer r e ∧
        ((Call.dispatch e).start r).next = .returns 0 := by
      rw [offer_of_awaiting_eq_nil he, Call.start, he]
      dsimp only
      split
      · exact ⟨rfl, rfl⟩
      · exact ⟨rfl, rfl⟩
    have hnone : (⟨n, .dispatch, .call (.dispatch e), r⟩ : Move ρ).next.frame? = none :=
      congrArg Next.frame? hstart.2
    rcases h.cases hs with ⟨-, rfl, htakes⟩ | ⟨f, _, _, _, hf, _⟩
    · obtain ⟨-, -, -, hreg, -⟩ := htakes.shape
      refine ⟨hreg.trans hstart.1, ?_⟩
      rw [runs, he]
      exact asks_of_returns hnone
    · cases hnone.symm.trans hf
  · have hstart : (Call.dispatch e).start r = fireNext e.type 0 (r.awaiting e)
        { r with armed := r.armed.filter fun w => !w.awaits e } := by
      rw [Call.start]
      split
      · exact absurd ‹_› he
      · rename_i w rest hsome
        rw [hsome]
    rw [offer_of_awaiting_ne_nil he]
    exact h.fires hs (congrArg Step.registry hstart) (congrArg Step.next hstart)
      (fun w hw => hr.armed w (List.mem_filter.1 hw).1)
      (hr.keyed.sublist (List.filter_sublist.map _))

theorem takeHeld_eq (r : Registry ρ) (w : WatchHandle) :
    (r.takeHeld w).map Prod.fst = claimed r w := by
  unfold Registry.takeHeld claimed
  rw [List.find?_eq_bind_findIdx?_getElem?, Option.map_bind]
  congr 1
  funext i
  rw [Function.comp_apply, Option.map_map]
  exact Option.map_id'

/-- **The end of a registration that nobody disturbs**, the only one in flight. -/
theorem Alone.settle {n epoch : Nat} {name : String} {requestor : ρ} {request : RequestId}
    {r : Registry ρ} {s s' : Session ρ} {t : List (Move ρ)}
    (h : Alone s ⟨n, .arm, .answer (.requesting name requestor epoch) (Except.ok request), r⟩ t s')
    (hs : s.Ordered) (hin : r.inFlight = 1) (hepoch : r.detachEpoch = epoch) :
    s'.registry = settled r (made r name request) requestor ∧
      Asks (⟨n, .arm, .answer (.requesting name requestor epoch) (Except.ok request), r⟩ :: t)
        (runsEarly r (made r name request)) ∧
      @Returned ρ (⟨n, .arm, .answer (.requesting name requestor epoch) (Except.ok request), r⟩ :: t)
        n .arm (.ok (made r name request)) := by
  obtain ⟨c, hc⟩ : ∃ c : Cause ρ .arm,
      c = .answer (.requesting name requestor epoch) (Except.ok request) := ⟨_, rfl⟩
  have he := effect_step c r
  rw [← hc] at h ⊢
  generalize hreg : (c.step r).registry = r', hnext : (c.step r).next = next at he
  have hf₁ : (⟨n, .arm, c, r⟩ : Move ρ).next.frame? = next.frame? := congrArg Next.frame? hnext
  subst hc
  cases he with
  | overtaken detached => exact absurd hepoch detached
  | arms attached unclaimed =>
    have hclaimed : claimed r (made r name request) = none := by
      rw [← takeHeld_eq, unclaimed]
      rfl
    rcases h.cases hs with ⟨-, rfl, htakes⟩ | ⟨f, _, _, _, hf, _⟩
    · obtain ⟨-, -, -, hreg', -⟩ := htakes.shape
      refine ⟨?_, ?_, ⟨_, _, List.mem_cons_self, hnext⟩⟩
      · rw [hreg', settled_of_unclaimed hclaimed]
        refine hreg.trans ?_
        simp [Registry.finishRegistration, Registry.addWatch, settledWith, hin]
      · rw [runsEarly, hclaimed]
        exact asks_of_returns hf₁
    · cases hf.symm.trans hf₁
  | @catches _ _ _ _ event held attached took =>
    have hclaimed : claimed r (made r name request) = some event := by
      rw [← takeHeld_eq, took]
      rfl
    -- the request is cleared
    rcases h.cases hs with ⟨hf, -⟩ | ⟨f, a, t₁, s₁, hf, rfl, htakes, h₁⟩
    · cases hf.symm.trans hf₁
    cases hf.symm.trans hf₁
    -- the requestor runs
    rcases h₁.cases (htakes.ordered hs) with ⟨hf', -⟩ | ⟨f, a', t₂, s₂, hf', rfl, htakes₁, h₂⟩
    · cases hf'
    cases hf'
    -- the registration returns
    rcases h₂.cases (htakes₁.ordered (htakes.ordered hs)) with
      ⟨-, rfl, htakes₂⟩ | ⟨f, _, _, _, hf', _⟩
    · obtain ⟨-, -, -, hreg', -⟩ := htakes₂.shape
      refine ⟨?_, ?_, ⟨_, _, List.mem_cons_of_mem _ (List.mem_cons_of_mem _ List.mem_cons_self),
        rfl⟩⟩
      · rw [hreg', settled_of_claimed hclaimed]
        refine hreg.trans ?_
        simp [Registry.finishRegistration, Registry.addWatch, settledWith, hin]
      · rw [runsEarly, hclaimed]
        exact (asks_of_fires hf rfl rfl rfl).append (asks_of_returns rfl)
    · cases hf'

/-! ## Registrations and deliveries -/

/-- **Events are dispatched** one after the other, and nobody disturbs the dispatches. -/
inductive Delivers : List PrepareEvent → Session ρ → List (Move ρ) → Session ρ → Prop where
  | nil (s : Session ρ) : Delivers [] s [] s
  | cons {e : PrepareEvent} {es : List PrepareEvent} {s s₁ s' : Session ρ} {t t' : List (Move ρ)}
      (first : Alone s ⟨s.calls, .dispatch, .call (.dispatch e), s.registry⟩ t s₁)
      (rest : Delivers es s₁ t' s') :
      Delivers (e :: es) s (⟨s.calls, .dispatch, .call (.dispatch e), s.registry⟩ :: t ++ t') s'

/-- **A watch is registered** while the process delivers events: some `early`, before it names the
request, and some `late`, after the registration has returned. Nothing else happens. -/
inductive Registers (className : String) (requestor : ρ) (request : RequestId)
    (early late : List PrepareEvent) (s : Session ρ) : List (Move ρ) → Session ρ → Prop where
  | intro {name : String} {epoch : Nat} {s₁ s₂ s₃ s' : Session ρ} {t₁ t₂ t₃ : List (Move ρ)}
      (call : Takes s ⟨s.calls, .arm, .call (.arm className requestor), s.registry⟩ s₁)
      (before : Delivers early s₁ t₁ s₂)
      (answer : Alone s₂ ⟨s.calls, .arm, .answer (.requesting name requestor epoch)
        (Except.ok request), s₂.registry⟩ t₂ s₃)
      (after : Delivers late s₃ t₃ s') :
      Registers className requestor request early late s
        (⟨s.calls, .arm, .call (.arm className requestor), s.registry⟩ :: (t₁ ++
          (⟨s.calls, .arm, .answer (.requesting name requestor epoch) (Except.ok request),
            s₂.registry⟩ :: t₂ ++ t₃))) s'

section
variable {s s' : Session ρ} {t : List (Move ρ)} {es early late : List PrepareEvent}
  {className name : String} {requestor : ρ} {request : RequestId}

theorem Delivers.run (h : Delivers es s t s') : Run s t s' := by
  induction h with
  | nil s => exact .nil
  | cons first _ ih => exact first.run.append ih

theorem Registers.run (h : Registers className requestor request early late s t s') :
    Run s t s' := by
  cases h with
  | intro call before answer after =>
    exact .cons call (before.run.append (answer.run.append after.run))

theorem delivers_exists (hs : s.Ordered) (es : List PrepareEvent) :
    ∃ t s', Delivers es s t s' := by
  induction es generalizing s with
  | nil => exact ⟨[], s, .nil s⟩
  | cons e es ih =>
    obtain ⟨t, s₁, h⟩ := (Takes.call s.registry s.stack s.calls (.dispatch e)).alone hs
    obtain ⟨t', s', h'⟩ := ih (h.run.numbers hs)
    exact ⟨_, s', .cons h h'⟩

/-- **The outcome of deliveries.** -/
theorem Delivers.outcome (h : Delivers es s t s') (hs : s.Ordered) (hr : s.Sound) :
    s'.registry = offerAll s.registry es ∧ Asks t (runsAll s.registry es) ∧
      s'.stack = s.stack := by
  induction h with
  | nil s => exact ⟨rfl, ⟨rfl, rfl⟩, rfl⟩
  | @cons e es s s₁ s' t t' first rest ih =>
    obtain ⟨hreg, hasks⟩ := first.dispatch hs hr
    have hstack : s.stack = s₁.stack := first.stack_eq hs
    obtain ⟨hreg', hasks', hstack'⟩ := ih (first.run.numbers hs) (first.run.sound hr)
    rw [hreg] at hreg' hasks'
    exact ⟨hreg', hasks.append hasks', hstack'.trans hstack.symm⟩

theorem Expects.offerAll {r : Registry ρ} {w : WatchHandle} (h : Expects r w)
    (es : List PrepareEvent) : Expects (offerAll r es) w := by
  induction es generalizing r with
  | nil => exact h
  | cons e es ih => exact ih (h.offer e)

theorem offerAll_next (r : Registry ρ) (es : List PrepareEvent) :
    (Watch.offerAll r es).nextId = r.nextId ∧ (Watch.offerAll r es).detachEpoch = r.detachEpoch := by
  induction es generalizing r with
  | nil => exact ⟨rfl, rfl⟩
  | cons e es ih =>
    have hstep : (offer r e).nextId = r.nextId ∧ (offer r e).detachEpoch = r.detachEpoch := by
      unfold offer
      split <;> exact ⟨rfl, rfl⟩
    obtain ⟨hn, he⟩ := ih (offer r e)
    exact ⟨hn.trans hstep.1, he.trans hstep.2⟩

theorem expects_made {r : Registry ρ} {q : Nat} {ws : List WatchHandle}
    {us : List (WatchHandle × WatchState)} (hr : Sound r q ws us) (hin : r.inFlight = 0)
    (hfree : ∀ v ∈ r.armed, v.request ≠ request) :
    Expects { r with inFlight := r.inFlight + 1 } (made r name request) where
  inFlight := congrArg (· + 1) hin
  free e he hid := by
    have := hr.numbered.lt_nextId he
    rw [hid] at this
    exact Nat.lt_irrefl _ this
  others v hv := ⟨Sound.id_ne_made hr.numbered rfl (hr.handle_armed hv), hfree v hv⟩

def Session.registering (s : Session ρ) (name : String) (requestor : ρ) : Session ρ where
  registry := { s.registry with inFlight := s.registry.inFlight + 1 }
  stack := ⟨s.calls, .arm, .requesting name requestor s.registry.detachEpoch⟩ :: s.stack
  calls := s.calls + 1

theorem start_arm (hname : ClassName.binary? className = some name) (requestor : ρ)
    (r : Registry ρ) : (Call.arm className requestor).start r =
      { registry := { r with inFlight := r.inFlight + 1 }
        next := .waits (.requesting name requestor r.detachEpoch) } := by
  rw [Call.start, hname]

theorem takes_arm_iff (hname : ClassName.binary? className = some name) {s₁ : Session ρ} :
    Takes s ⟨s.calls, .arm, .call (.arm className requestor), s.registry⟩ s₁ ↔
      s₁ = s.registering name requestor := by
  constructor
  · intro h
    obtain ⟨-, -, rfl⟩ := h.call_eq
    rw [start_arm hname]
    rfl
  · rintro rfl
    have hcall := Takes.call s.registry s.stack s.calls (.arm className requestor)
    rw [start_arm hname] at hcall
    exact hcall

/-- **There is a registration with any deliveries.** -/
theorem registers_exists (hs : s.Ordered) (hr : s.Sound)
    (hname : ClassName.binary? className = some name) (requestor : ρ) (request : RequestId)
    (early late : List PrepareEvent) :
    ∃ t s', Registers className requestor request early late s t s' := by
  have hcall := (takes_arm_iff hname).2 (Eq.refl (s.registering name requestor))
  have hs₁ := hcall.ordered hs
  obtain ⟨t₁, s₂, hbefore⟩ := delivers_exists hs₁ early
  obtain ⟨-, -, hstack⟩ := hbefore.outcome hs₁ (hcall.run.sound hr)
  have hs₂ := hbefore.run.numbers hs₁
  have hanswer := Takes.answer s₂.registry s.stack s₂.calls s.calls
    (.requesting name requestor s.registry.detachEpoch) (Except.ok request)
  obtain ⟨r₂, stack₂, n₂⟩ := s₂
  obtain rfl : stack₂ = _ := hstack
  obtain ⟨t₂, s₃, halone⟩ := hanswer.alone hs₂
  obtain ⟨t₃, s', hafter⟩ := delivers_exists (halone.run.numbers hs₂) late
  exact ⟨_, s', .intro hcall hbefore halone hafter⟩

/-- **The outcome of a registration with deliveries** is the same as if all of them had come before
the process named the request. -/
theorem Registers.outcome (h : Registers className requestor request early late s t s')
    (hs : s.Ordered) (hr : s.Sound) (hin : s.registry.inFlight = 0)
    (hname : ClassName.binary? className = some name)
    (hfree : ∀ v ∈ s.registry.armed, v.request ≠ request) {r : Registry ρ} {w : WatchHandle}
    (hbegin : r = { s.registry with inFlight := s.registry.inFlight + 1 })
    (hw : w = made s.registry name request) :
    s'.registry = settled (offerAll r (early ++ late)) w requestor ∧
      (∃ es, Asks t es ∧ es.Perm (runsAll r (early ++ late) ++
        runsEarly (offerAll r (early ++ late)) w)) ∧
      @Returned ρ t s.calls .arm (.ok w) := by
  have hexpects : Expects r w := by
    rw [hbegin, hw]
    exact expects_made hr hin hfree
  cases h with
  | @intro name' epoch s₁ s₂ s₃ _ t₁ t₂ t₃ call before answer after =>
    have hs₁ := call.ordered hs
    have hr₁ := call.run.sound hr
    obtain rfl := (takes_arm_iff hname).1 call
    -- the early events find the registration in flight
    obtain ⟨hreg₂, hasks₁, hstack₂⟩ := before.outcome hs₁ hr₁
    have hs₂ := before.run.numbers hs₁
    have hr₂ := before.run.sound hr₁
    have hbegin₁ : (s.registering name requestor).registry = r := hbegin.symm
    rw [hbegin₁] at hreg₂ hasks₁
    obtain ⟨hnext, hepoch⟩ := offerAll_next r early
    rw [← hreg₂] at hnext hepoch
    have hmade : made s₂.registry name request = w := by
      rw [hw, made, hnext, hbegin]
      rfl
    -- the registration ends
    obtain ⟨s₂', htakes, -⟩ := run_cons_iff.1 answer.run
    obtain ⟨stack, htop, -, -⟩ := htakes.answer_eq
    rw [hstack₂] at htop
    cases htop
    have he : s.registry.detachEpoch = s₂.registry.detachEpoch := by rw [hepoch, hbegin]
    have hin₂ : s₂.registry.inFlight = 1 := by
      rw [hreg₂]
      exact (hexpects.offerAll early).inFlight
    obtain ⟨hreg₃, hasks₂, k, r', hmem, hret⟩ := answer.settle hs₂ hin₂ he.symm
    rw [hmade] at hreg₃ hasks₂ hret
    -- the late events find it over
    have hs₃ := answer.run.numbers hs₂
    have hr₃ := answer.run.sound hr₂
    obtain ⟨hreg', hasks₃, -⟩ := after.outcome hs₃ hr₃
    obtain ⟨hcommute, hperm⟩ := offerAll_settled (hexpects.offerAll early) late requestor
    rw [← hreg₂] at hcommute hperm
    rw [hreg₃] at hreg' hasks₃
    have hasks₀ : Asks [⟨s.calls, .arm, .call (.arm className requestor), s.registry⟩] [] :=
      asks_of_waits (congrArg (fun step => step.next.frame?) (start_arm hname requestor _)) rfl rfl
    rw [hreg', hcommute, offerAll_append, runsAll_append, ← hreg₂, List.append_assoc]
    refine ⟨rfl, ⟨_, hasks₀.append (hasks₁.append (hasks₂.append hasks₃)), ?_⟩, ?_⟩
    · exact hperm.append_left _
    · exact ⟨k, r', List.mem_cons_of_mem _ (List.mem_append_right _ (List.mem_append_left _ hmem)),
        hret⟩

end

/-! ## The main statement -/

/-- **A new watch after events were delivered:** the first of them that it awaits has fired it. -/
structure Delivered (w : WatchHandle) (events : List PrepareEvent) (n : Nat) (t : List (Move ρ))
    (s : Session ρ) : Prop where
  returned : @Returned ρ t n .arm (.ok w)
  state : s.registry.state? w.id =
    some (if (events.find? fun e => w.awaits e).isSome then .fired else .armed)
  armed : w ∈ s.registry.armed ↔ events.find? (fun e => w.awaits e) = none
  ran : (ran t).filter (fun e => e.1 = w) =
    ((events.find? fun e => w.awaits e).map fun e => (w, e.type)).toList
  inFlight : s.registry.inFlight = 0
  held : s.registry.held = []

theorem delivered_settled {r : Registry ρ} {w : WatchHandle} (h : Expects r w) (hheld : r.held = [])
    {events : List PrepareEvent} {requestor : ρ} {n : Nat} {t : List (Move ρ)} {s : Session ρ}
    (hreg : s.registry = settled (offerAll r events) w requestor)
    {es : List (WatchHandle × RuntimeType)} (hasks : Asks t es)
    (hperm : es.Perm (runsAll r events ++ runsEarly (offerAll r events) w))
    (hret : @Returned ρ t n .arm (.ok w)) : Delivered w events n t s := by
  have hclaim : claimed (offerAll r events) w = events.find? fun e => w.awaits e := by
    rw [claimed_offerAll h, claimed, hheld, List.find?_nil, Option.none_or]
  have hafter := h.offerAll events
  have hfree : (offerAll r events).slot? w.id = none := by
    rw [Registry.slot?, Option.map_eq_none_iff, List.find?_eq_none]
    exact fun e he => by simpa using hafter.free e he
  have hout : w ∉ (offerAll r events).armed := fun hw => (hafter.others w hw).1 rfl
  have hothers : (runsAll r events).filter (fun e => e.1 = w) = [] := by
    rw [List.filter_eq_nil_iff]
    exact fun e he => by simpa using runsAll_others h events e he
  have hran := hperm.filter (fun e => decide (e.1 = w))
  rw [← hasks.ran, List.filter_append, hothers, List.nil_append, runsEarly, hclaim] at hran
  rcases hfind : events.find? fun e => w.awaits e with _ | c <;> rw [hfind] at hclaim hran
  · rw [settled_of_unclaimed hclaim] at hreg
    refine ⟨hret, ?_, ?_, ?_, by rw [hreg]; rfl, by rw [hreg]; rfl⟩
    · rw [hreg, hfind]
      exact (Registry.state?_addWatch hfree (.armed requestor) w.id).trans (if_pos rfl)
    · rw [hreg, hfind]
      simp [settledWith]
    · rw [hfind]
      exact List.Perm.eq_nil (by simpa using hran)
  · rw [settled_of_claimed hclaim] at hreg
    refine ⟨hret, ?_, ?_, ?_, by rw [hreg]; rfl, by rw [hreg]; rfl⟩
    · rw [hreg, hfind]
      exact (Registry.state?_addWatch hfree .fired w.id).trans (if_pos rfl)
    · rw [hreg, hfind]
      simpa [settledWith] using hout
    · rw [hfind]
      exact List.perm_singleton.1 (by simpa using hran)

/-- **It makes no difference when the process names the request:** a registration that finds none
in flight, for a request that no armed watch has, comes to the same with some events delivered early
and the others late as with all delivered late. -/
theorem early_delivery {s : Session ρ} (hs : Reachable s) (hin : s.registry.inFlight = 0)
    {className name : String} (hname : ClassName.binary? className = some name) (requestor : ρ)
    (request : RequestId) (hfree : ∀ w ∈ s.registry.armed, w.request ≠ request)
    (early late : List PrepareEvent) :
    (∃ t s', Registers className requestor request early late s t s') ∧
      ∀ t s' t₀ s₀, Registers className requestor request early late s t s' →
        Registers className requestor request [] (early ++ late) s t₀ s₀ →
          s'.registry = s₀.registry ∧ (cleared t).Perm (cleared t₀) ∧ (ran t).Perm (ran t₀) ∧
            Delivered (made s.registry name request) (early ++ late) s.calls t s' := by
  have hr := hs.sound
  have ho : s.Ordered := hs.elim fun _ h => h.ordered
  have hheld := hr.held_eq_nil hin
  have hexpects : Expects _ (made s.registry name request) := expects_made hr hin hfree
  refine ⟨registers_exists ho hr hname requestor request early late,
    fun t s' t₀ s₀ h h₀ => ?_⟩
  obtain ⟨hreg, ⟨es, hasks, hperm⟩, hret⟩ := h.outcome ho hr hin hname hfree rfl rfl
  obtain ⟨hreg₀, ⟨es₀, hasks₀, hperm₀⟩, -⟩ := h₀.outcome ho hr hin hname hfree rfl rfl
  rw [List.nil_append] at hreg₀ hperm₀
  have hsame : es.Perm es₀ := hperm.trans hperm₀.symm
  refine ⟨hreg.trans hreg₀.symm, ?_, ?_, delivered_settled hexpects hheld hreg hasks hperm hret⟩
  · rw [hasks.cleared, hasks₀.cleared]
    exact hsame.map _
  · rw [hasks.ran, hasks₀.ran]
    exact hsame

/-- The process delivers the preparation of class B, for which a watch is armed, and of class A
before it names the request for A, and that of another A afterwards. The first A fires the new
watch. -/
theorem early_delivery_held : ∃ (s : Session Nat) (t : List (Move Nat)) (s' : Session Nat)
    (t₀ : List (Move Nat)) (s₀ : Session Nat), Reachable s ∧
      s.registry.armed = [⟨⟨1⟩, "B", ⟨3⟩⟩] ∧
      Registers "LA;" 1 ⟨5⟩ [⟨⟨3⟩, ⟨⟨8⟩, "B"⟩⟩, ⟨⟨5⟩, ⟨⟨9⟩, "A"⟩⟩] [⟨⟨5⟩, ⟨⟨10⟩, "A"⟩⟩] s t s' ∧
      Registers "LA;" 1 ⟨5⟩ []
        [⟨⟨3⟩, ⟨⟨8⟩, "B"⟩⟩, ⟨⟨5⟩, ⟨⟨9⟩, "A"⟩⟩, ⟨⟨5⟩, ⟨⟨10⟩, "A"⟩⟩] s t₀ s₀ ∧
      s'.registry = s₀.registry ∧ s'.registry.state? ⟨2⟩ = some .fired ∧
      (ran t).filter (fun e => e.1 = ⟨⟨2⟩, "A", ⟨5⟩⟩) = [(⟨⟨2⟩, "A", ⟨5⟩⟩, ⟨⟨9⟩, "A"⟩)] := by
  have hrun := ((Run.nil (s := ({} : Session Nat))).call (.arm "B" 0)).answer (Except.ok ⟨3⟩)
  have hname : ClassName.binary? "LA;" = some "A" := rfl
  obtain ⟨⟨t, s', h⟩, hsame⟩ := early_delivery ⟨_, hrun⟩ rfl hname 1 ⟨5⟩ (by decide)
    [⟨⟨3⟩, ⟨⟨8⟩, "B"⟩⟩, ⟨⟨5⟩, ⟨⟨9⟩, "A"⟩⟩] [⟨⟨5⟩, ⟨⟨10⟩, "A"⟩⟩]
  obtain ⟨⟨t₀, s₀, h₀⟩, -⟩ := early_delivery ⟨_, hrun⟩ rfl hname 1 ⟨5⟩ (by decide) []
    [⟨⟨3⟩, ⟨⟨8⟩, "B"⟩⟩, ⟨⟨5⟩, ⟨⟨9⟩, "A"⟩⟩, ⟨⟨5⟩, ⟨⟨10⟩, "A"⟩⟩]
  obtain ⟨hreg, -, -, hdelivered⟩ := hsame t s' t₀ s₀ h h₀
  exact ⟨_, t, s', t₀, s₀, ⟨_, hrun⟩, rfl, h, h₀, hreg, hdelivered.state, hdelivered.ran⟩

end DebugMap.Watch
