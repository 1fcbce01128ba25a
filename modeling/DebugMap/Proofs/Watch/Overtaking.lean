import DebugMap.Proofs.Watch.Arming

/-!
# Which held event comes first

An armed watch is fired by the first event dispatched that it awaits (`Run.armed_first`). A
registration in flight has such events held for it, and takes the first of the list. But when
another registration takes its own event, the last of the list moves into that place (`swapRemove`),
and may come before an older one: it overtakes it.

Main statement: `first_event_fires`, by which the events for a registration in flight stay in the
order of their dispatch just while none overtakes, and the first of them then fires the new watch.
In `first_event_overtaken` one does overtake, and the watch fires for the second event dispatched.
-/

set_option autoImplicit false

namespace DebugMap

/-- The first event of a list that a watch awaits. -/
def WatchHandle.first? (w : WatchHandle) (es : List PrepareEvent) : Option PrepareEvent :=
  es.find? fun e => w.awaits e

/-- **Whether the last event of a list overtakes** as it moves to place `i`: the watch awaits it and
none before that place, and it was not the first that the watch awaits. -/
def WatchHandle.overtakenAt (w : WatchHandle) (es : List PrepareEvent) (i : Nat) : Bool :=
  es.getLast?.any fun last =>
    w.awaits last && !(es.take i).any (fun e => w.awaits e) && decide (w.first? es ≠ some last)

section
variable {w : WatchHandle} {es es' : List PrepareEvent} {e : PrepareEvent} {i : Nat}

theorem first?_append : w.first? (es ++ es') = (w.first? es).or (w.first? es') :=
  List.find?_append

theorem first?_cons_of_pos (h : w.awaits e = true) : w.first? (e :: es) = some e :=
  List.find?_cons_of_pos h

theorem first?_cons_of_neg (h : w.awaits e = false) : w.first? (e :: es) = w.first? es :=
  List.find?_cons_of_neg (by simp [h])

theorem first?_eq_none : w.first? es = none ↔ ∀ e ∈ es, w.awaits e = false := by
  simp [WatchHandle.first?]

theorem overtakenAt_eq_false {last : PrepareEvent} (hlast : es.getLast? = some last) :
    w.overtakenAt es i = false ↔
      (w.awaits last = true → w.first? (es.take i) = none → w.first? es = some last) := by
  have hnone : w.first? (es.take i) = none ↔ ((es.take i).any fun e => w.awaits e) = false := by
    rw [first?_eq_none, List.any_eq_false]
    simp
  rw [hnone, WatchHandle.overtakenAt, hlast, Option.any_some]
  cases w.awaits last <;> cases (es.take i).any fun e => w.awaits e <;> simp

/-- **The first event stays the first** when one that the watch does not await is taken out, unless
the last one overtakes. -/
theorem first?_swapRemove (hi : es[i]? = some e) (he : w.awaits e = false) :
    w.first? (swapRemove es i) = w.first? es ↔ w.overtakenAt es i = false := by
  rcases swapRemove_cases hi with ⟨ys, rfl, -, hs⟩ | ⟨a, b, last, rfl, rfl, hs⟩
  · rw [overtakenAt_eq_false List.getLast?_concat, hs, first?_append, first?_cons_of_neg he]
    simp [WatchHandle.first?, he]
  · have htake : (a ++ e :: b ++ [last]).take a.length = a := by simp
    have hbefore : w.first? (a ++ e :: b ++ [last]) =
        (w.first? a).or ((w.first? b).or (w.first? [last])) := by
      rw [List.append_assoc, List.cons_append, first?_append, first?_cons_of_neg he, first?_append]
    rw [overtakenAt_eq_false List.getLast?_concat, htake, hs, hbefore, first?_append]
    rcases w.first? a with _ | x
    · cases hl : w.awaits last with
      | false => simp [WatchHandle.first?, hl]
      | true =>
        rw [first?_cons_of_pos hl, first?_cons_of_pos hl]
        simp [eq_comm]
    · simp

end

end DebugMap

namespace DebugMap.Watch

variable {ρ : Type}

/-! ## Dispatches -/

def Cause.dispatches? : {op : Operation} → Cause ρ op → Option PrepareEvent
  | _, .call (.dispatch e) => some e
  | _, _ => none

/-- **The events that a run dispatches**, in order. -/
def dispatched (t : List (Move ρ)) : List PrepareEvent :=
  t.filterMap fun m => m.cause.dispatches?

theorem dispatched_append (t t' : List (Move ρ)) :
    dispatched (t ++ t') = dispatched t ++ dispatched t' :=
  List.filterMap_append

theorem dispatched_singleton (m : Move ρ) : dispatched [m] = m.cause.dispatches?.toList := by
  cases h : m.cause.dispatches? <;> simp [dispatched, h]

theorem Move.eq_of_dispatches {m : Move ρ} {e : PrepareEvent} (h : m.cause.dispatches? = some e) :
    m = ⟨m.number, .dispatch, .call (.dispatch e), m.before⟩ := by
  obtain ⟨n, op, c, r⟩ := m
  cases c with
  | call c =>
    cases c with
    | dispatch event =>
      cases h
      rfl
    | _ => cases h
  | answer f a => cases h

/-! ## Armed watches -/

section
variable {r r' : Registry ρ} {op : Operation} {c : Cause ρ op} {next : Next ρ op} {w : WatchHandle}

theorem Effect.not_mem_armed {c : Cause ρ .dispatch} {next : Next ρ .dispatch} {e : PrepareEvent}
    (he : Effect r c r' next) (hc : c = .call (.dispatch e)) (hw : w.awaits e = true) :
    w ∉ r'.armed := by
  have hnot : r.awaiting e = [] → w ∉ r.armed := fun hnone hin =>
    List.filter_eq_nil_iff.1 hnone w hin hw
  cases he with
  | holds unmatched _ =>
    cases hc
    exact hnot unmatched
  | drops unmatched _ =>
    cases hc
    exact hnot unmatched
  | offers _ fires =>
    cases hc
    rw [fires.armed_eq]
    intro hin
    simpa [hw] using (List.mem_filter.1 hin).2
  | _ => cases hc

end

section
variable {s s' : Session ρ} {t : List (Move ρ)} {w : WatchHandle}

/-- **A watch that is off the armed list** stays off it. -/
theorem Run.not_mem_armed (h : Run s t s') (hs : s.Sound) (hw : s.registry.handle? w.id = some w)
    (hout : w ∉ s.registry.armed) : w ∉ s'.registry.armed := by
  refine (h.keeps_sound hs (P := fun _ r _ => r.handle? w.id = some w ∧ w ∉ r.armed)
    (fun {op} t c r n rest he hr ⟨hw, hout⟩ => ?_) ⟨hw, hout⟩).2.2
  refine ⟨he.slots.handle? hr.numbered hw, fun hin => ?_⟩
  rcases he.mem_armed hin with hin | ⟨requestor, hm⟩
  · exact hout hin
  · exact Sound.id_ne_made hr.numbered (Cause.id_of_makes hm) hw rfl

theorem Run.not_mem_armed_of_dispatch {t₀ : List (Move ρ)} (h₀ : Run {} t₀ s) (h : Run s t s')
    {n : Nat} {e : PrepareEvent} {r : Registry ρ} (hm : ⟨n, .dispatch, .call (.dispatch e), r⟩ ∈ t)
    (hw : w.awaits e = true) (hknown : r.handle? w.id = some w) : w ∉ s'.registry.armed := by
  obtain ⟨t₁, t₂, s₁, s₂, -, h₁, htakes, h₂⟩ := h.split hm
  obtain ⟨-, rfl, hs₂⟩ := htakes.call_eq
  have hrun := (h₀.append h₁).append htakes.run
  have hout : w ∉ s₂.registry.armed := by
    rw [hs₂]
    exact (effect_start (Call.dispatch e : Call ρ .dispatch) _).not_mem_armed rfl hw
  have hknown₂ := htakes.run.handle? ((h₀.append h₁).sound .empty) hknown
  exact h₂.not_mem_armed (hrun.sound .empty) hknown₂ hout

theorem Run.first?_of_armed {t₀ : List (Move ρ)} (h₀ : Run {} t₀ s) (h : Run s t s')
    (hw : w ∈ s.registry.armed) (hw' : w ∈ s'.registry.armed) :
    w.first? (dispatched t) = none := by
  rw [first?_eq_none]
  intro e he
  obtain ⟨x, hx, hd⟩ := List.mem_filterMap.1 he
  rw [Move.eq_of_dispatches hd] at hx
  obtain ⟨t₁, t₂, s₁, s₂, -, h₁, htakes, -⟩ := h.split hx
  obtain ⟨-, hr, -⟩ := htakes.call_eq
  have hknown := h₁.handle? (h₀.sound .empty) (h₀.invariant.handle_armed hw)
  rw [← hr] at hknown
  by_contra hne
  exact h₀.not_mem_armed_of_dispatch h hx (by simpa using hne) hknown hw'

/-- A watch on the armed list has been returned by the registration that has made it, which is busy
with it no longer. -/
theorem Run.not_fresh {t₀ : List (Move ρ)} (h₀ : Run {} t₀ s) (h : Run s t s')
    (hw : w ∈ s.registry.armed) : ∀ p ∈ s'.stack, w ∉ p.frame.fresh := by
  intro p hp hfresh
  obtain ⟨m, hm, hn, requestor, hmade⟩ := (h₀.append h).fresh_made _ hp w hfresh
  rcases List.mem_append.1 hm with hm | hm
  · obtain ⟨u, v, s₃, s₄, rfl, h₃, htakes, -⟩ := h₀.split hm
    rcases hnext : m.next with f | result
    · -- it would have ended with the move in which it was made
      obtain ⟨x, hx, hne⟩ := h₃.ended_of_waits htakes hmade (by simp [hnext, Next.frame?])
      exact h₀.unlisted_after hx hne hw
    · have hret : Returned (u ++ m :: v ++ t) m.number result :=
        ⟨m.cause, m.before, List.mem_append_left _ hm, hnext⟩
      exact (h₀.append h).gone hret _ hp hn.symm
  · obtain ⟨u, v, rfl⟩ := List.append_of_mem hm
    exact h₀.unlisted_before h hmade hw

theorem Run.not_early {t₀ : List (Move ρ)} (h₀ : Run {} t₀ s) (h : Run s t s')
    (hw : w ∈ s.registry.armed) {n : Nat} {requestor : ρ} {type : RuntimeType} {a : Unit}
    {r : Registry ρ} : ⟨n, .arm, .answer (.clearingEarly w requestor type) a, r⟩ ∉ t := by
  intro hx
  obtain ⟨t₁, t₂, s₁, s₂, -, h₁, htakes, -⟩ := h.split hx
  obtain ⟨stack, hst, -⟩ := htakes.answer_eq
  exact h₀.not_fresh h₁ hw ⟨n, .arm, .clearingEarly w requestor type⟩ (hst ▸ List.mem_cons_self)
    List.mem_cons_self

theorem Run.not_offered (h : Run {} t s) (hw : w ∈ s.registry.armed) {n : Nat} {e : PrepareEvent}
    {r : Registry ρ} (hc : ⟨n, .dispatch, .call (.dispatch e), r⟩ ∈ t) : w ∉ r.awaiting e := by
  intro hawaiting
  obtain ⟨hin, hawaits⟩ := List.mem_filter.1 hawaiting
  obtain ⟨t₁, t₂, s₁, s₂, -, h₁, htakes, -⟩ := h.split hc
  obtain ⟨-, rfl, -⟩ := htakes.call_eq
  exact Run.not_mem_armed_of_dispatch .nil h hc hawaits (h₁.invariant.handle_armed hin) hw

/-- **An armed watch is fired by the first event** that it awaits: for no other does its requestor
start. -/
theorem Run.armed_first {t₀ : List (Move ρ)} (h₀ : Run {} t₀ s) (hw : w ∈ s.registry.armed)
    (h : Run s t s') {x : Move ρ} (hx : x ∈ t) {requestor : ρ} {type : RuntimeType}
    (hst : x.starts = some (w, requestor, type)) :
    ∃ e, w.first? (dispatched t) = some e ∧ e.type = type := by
  have hmem : x ∈ t₀ ++ t := List.mem_append_right _ hx
  rcases (h₀.append h).starts_cases hmem hst with ⟨a, hmove⟩ | ⟨e, r, hc, hawaiting, htype⟩
  · rw [hmove] at hx
    exact absurd hx (h₀.not_early h hw)
  · rcases List.mem_append.1 hc with hc | hc
    · exact absurd hawaiting (h₀.not_offered hw hc)
    · obtain ⟨hin, hawaits⟩ := List.mem_filter.1 hawaiting
      obtain ⟨t₁, t₂, s₁, s₂, rfl, h₁, htakes, -⟩ := h.split hc
      obtain ⟨-, rfl, -⟩ := htakes.call_eq
      refine ⟨e, ?_, htype⟩
      rw [dispatched_append, first?_append, h₀.first?_of_armed h₁ hw hin, Option.none_or]
      exact first?_cons_of_pos hawaits

end

/-! ## Registrations in flight -/

/-- **Whether a step lets an event overtake** that a watch awaits: it takes another one from the
held events, and the last of them moves into its place. -/
def Move.overtakes (m : Move ρ) (w : WatchHandle) : Bool :=
  (m.cause.takes? m.before).any fun i => w.overtakenAt m.before.held i

/-- **A registration is in flight** from `s`, where the run `t₀` leads to, until `s'`, where its
request is named with the move `m`. There is no detachment meanwhile, and no other watch has the
request. -/
structure Flight (t₀ : List (Move ρ)) (s : Session ρ) (t : List (Move ρ)) (s' : Session ρ)
    (m : Move ρ) (w : WatchHandle) (requestor : ρ) : Prop where
  before : Run {} t₀ s
  inFlight : ∃ p ∈ s.stack, p.frame.isRequesting = true ∧ p.number = m.number
  run : Run s t s'
  named : ∃ s'', Takes s' m s''
  makes : m.cause.makes m.before = some (w, requestor)
  attached : ¬ Detached (t₀ ++ t) m.number
  armed : ∀ v ∈ s.registry.armed, v.request ≠ w.request
  others : ∀ v requestor', Made t v requestor' → v.request ≠ w.request

theorem Cause.drops_eq_true {r : Registry ρ} {op : Operation} {c : Cause ρ op}
    (h : c.drops r = true) :
    c.detaches = true ∨ c.frame?.any Frame.isRequesting = true ∧ r.inFlight - 1 = 0 := by
  cases c with
  | call c =>
    cases c with
    | detach => exact .inl rfl
    | _ => cases h
  | answer f a => exact .inr (by simpa [Cause.drops, Cause.frame?] using h)

theorem Takes.number_eq {s s' : Session ρ} {m : Move ρ} (h : Takes s m s')
    (hc : m.cause.frame? = none) : m.number = s.calls := by
  cases h with
  | call => rfl
  | answer => cases hc

section
variable {t₀ t : List (Move ρ)} {s s' : Session ρ} {m : Move ρ} {w : WatchHandle} {requestor : ρ}

theorem Run.armed_requests (h : Run s t s') {request : RequestId}
    (hs : ∀ v ∈ s.registry.armed, v.request ≠ request)
    (ht : ∀ v requestor, Made t v requestor → v.request ≠ request) :
    ∀ v ∈ s'.registry.armed, v.request ≠ request := by
  induction h with
  | nil => exact hs
  | @snoc t s₁ s₂ x h hx ih =>
    obtain ⟨-, hr, -, hr', -⟩ := hx.shape
    intro v hv
    rw [hr'] at hv
    rcases (effect_step x.cause x.before).mem_armed hv with hv | ⟨requestor, hmade⟩
    · exact ih (fun v requestor hmade => ht v requestor (hmade.mono _)) v (hr ▸ hv)
    · exact ht v requestor ⟨x, List.mem_append_right _ List.mem_cons_self, hmade⟩

theorem Flight.pending (hf : Flight t₀ s t s' m w requestor) {t₁ t₂ : List (Move ρ)}
    {s₁ : Session ρ} (h₁ : Run s t₁ s₁) (h₂ : Run s₁ t₂ s') : m.number < s₁.calls ∧
      ∃ p ∈ s₁.stack, p.frame.isRequesting = true ∧ p.number = m.number := by
  obtain ⟨p₀, hp₀, -, hn₀⟩ := hf.inFlight
  have hlt := hf.before.ordered.lt_calls p₀ hp₀
  have hle := h₁.number_lt.1
  refine ⟨by omega, ?_⟩
  obtain ⟨epoch, hmove, -⟩ := Move.eq_of_makes hf.makes
  obtain ⟨s'', htakes⟩ := hf.named
  rw [hmove] at htakes
  obtain ⟨stack, hst, -⟩ := htakes.answer_eq
  have hp : (⟨m.number, .arm, .requesting w.className requestor epoch⟩ : Pending ρ) ∈ s'.stack := by
    rw [hst]
    exact List.mem_cons_self
  refine ⟨_, (h₂.requesting hp rfl).resolve_right fun hge => ?_, rfl, rfl⟩
  change s₁.calls ≤ m.number at hge
  omega

theorem Flight.below (hf : Flight t₀ s t s' m w requestor) {t₁ t₂ : List (Move ρ)}
    {s₁ s₂ : Session ρ} {x : Move ρ} (h₁ : Run s t₁ s₁) (hx : Takes s₁ x s₂) (h₂ : Run s₂ t₂ s') :
    (x.cause.frame?.elim 0 fun f => f.isRequesting.toNat) < x.before.inFlight := by
  obtain ⟨hlt, -⟩ := hf.pending h₁ (.cons hx h₂)
  obtain ⟨-, p, hp, hreq, hn⟩ := hf.pending (h₁.append hx.run) h₂
  obtain ⟨rest, hr, hst, -, hst'⟩ := hx.shape
  have hs := (hf.before.append h₁).invariant
  have hin := hs.inFlight
  rw [hst, requests_onStack, hr] at hin
  have hrest : p ∈ rest := by
    rw [hst'] at hp
    rcases List.mem_append.1 hp with hp | hp
    · exfalso
      obtain ⟨f, hnext, rfl⟩ := mem_onStack.1 hp
      -- it would have been called just now
      have hnone := (effect_step x.cause x.before).requesting hnext hreq
      have hcall := hx.number_eq hnone
      change x.number = m.number at hn
      omega
    · exact hp
  have hpos : 0 < requests rest := List.countP_pos_iff.2 ⟨p, hrest, hreq⟩
  omega

theorem Flight.not_drops (hf : Flight t₀ s t s' m w requestor) {t₁ t₂ : List (Move ρ)}
    {s₁ s₂ : Session ρ} {x : Move ρ} (ht : t = t₁ ++ x :: t₂) (h₁ : Run s t₁ s₁)
    (hx : Takes s₁ x s₂) (h₂ : Run s₂ t₂ s') : x.cause.drops x.before = false := by
  have hbelow := hf.below h₁ hx h₂
  obtain ⟨hlt, -⟩ := hf.pending h₁ (.cons hx h₂)
  by_contra hdrops
  rcases Cause.drops_eq_true (by simpa using hdrops) with hd | ⟨hreq, hlast⟩
  · have hmove := Move.eq_of_detaches hd
    have hmem : x ∈ t₀ ++ t := by
      rw [ht]
      simp
    rw [hmove] at hx hmem
    obtain ⟨hn, -, -⟩ := hx.call_eq
    exact hf.attached ⟨x.number, by omega, x.before, hmem⟩
  · obtain ⟨f, hc, hone⟩ := (Option.any_eq_true _ _).1 hreq
    rw [hc, Option.elim_some, hone, Bool.toNat_true] at hbelow
    omega

theorem Flight.holds (hf : Flight t₀ s t s' m w requestor) {t₁ t₂ : List (Move ρ)}
    {s₁ s₂ : Session ρ} {x : Move ρ} (ht : t = t₁ ++ x :: t₂) (h₁ : Run s t₁ s₁)
    (hx : Takes s₁ x s₂) (h₂ : Run s₂ t₂ s') :
    w.first? (x.cause.holds? x.before).toList = w.first? (dispatched [x]) := by
  rw [dispatched_singleton]
  rcases hd : x.cause.dispatches? with _ | e
  · rcases hh : x.cause.holds? x.before with _ | e
    · rfl
    · rw [(Move.eq_of_holds hh).1] at hd
      cases hd
  · have hbelow := hf.below h₁ hx h₂
    obtain ⟨-, hr, -⟩ := hx.shape
    have hmove := Move.eq_of_dispatches hd
    have hholds : x.cause.holds? x.before =
        if x.before.awaiting e = [] ∧ 0 < x.before.inFlight then some e else none := by
      rw [hmove]
      rfl
    have hpos : 0 < x.before.inFlight := Nat.lt_of_le_of_lt (Nat.zero_le _) hbelow
    cases he : w.awaits e with
    | true =>
      have harmed := h₁.armed_requests hf.armed fun v requestor' hmade =>
        hf.others v requestor' (ht ▸ hmade.mono _)
      have hnone : x.before.awaiting e = [] := by
        rw [Registry.awaiting, List.filter_eq_nil_iff]
        intro v hv hawaits
        exact harmed v (hr ▸ hv) ((request_of_awaits hawaits).symm.trans (request_of_awaits he))
      rw [hholds, if_pos ⟨hnone, hpos⟩]
    | false =>
      rw [hholds]
      split <;> simp [WatchHandle.first?, he]

/-- **A step keeps the first event** that is held for the registration, and adds the one dispatched,
unless one overtakes. -/
theorem Flight.step (hf : Flight t₀ s t s' m w requestor) {t₁ t₂ : List (Move ρ)}
    {s₁ s₂ : Session ρ} {x : Move ρ} (ht : t = t₁ ++ x :: t₂) (h₁ : Run s t₁ s₁)
    (hx : Takes s₁ x s₂) (h₂ : Run s₂ t₂ s') :
    w.first? s₂.registry.held = (w.first? s₁.registry.held).or (w.first? (dispatched [x])) ↔
      x.overtakes w = false := by
  obtain ⟨-, hr, -, hr', -⟩ := hx.shape
  have hheld : x.after.held = x.cause.keep x.before id x.before.held :=
    (effect_step x.cause x.before).held_eq
  rw [Cause.keep, if_neg (by simp [hf.not_drops ht h₁ hx h₂]), List.map_id] at hheld
  have hholds := hf.holds ht h₁ hx h₂
  rw [hr', hr, hheld, first?_append, hholds]
  rcases hi : x.cause.takes? x.before with _ | i
  · simp [Move.overtakes, hi]
  · obtain ⟨className, requestor', request, hmove, hfind⟩ := Move.eq_of_takes hi
    have hnone : w.first? (dispatched [x]) = none := by
      rw [hmove]
      rfl
    obtain ⟨hlt, hawaits, -⟩ := List.findIdx?_eq_some_iff_getElem.1 hfind
    -- what another registration takes is not for this one
    have hother : w.awaits x.before.held[i] = false := by
      by_contra hne
      have hmade : x.cause.makes x.before =
          some (made x.before className request, requestor') := by
        rw [hmove]
        rfl
      refine hf.others _ _ ⟨x, ?_, hmade⟩ ?_
      · rw [ht]
        exact List.mem_append_right _ List.mem_cons_self
      · exact (request_of_awaits hawaits).symm.trans (request_of_awaits (by simpa using hne))
    rw [hnone, Option.or_none, Option.or_none]
    have hswap := first?_swapRemove (List.getElem?_eq_getElem hlt) hother
    simpa [Move.overtakes, hi] using hswap

end

/-! ## What the new watch is fired for -/

/-- **A registration fires its watch for an event**, in its move `m` with the run `t` after it: the
requestor starts for the type of this event and for nothing else, and has started by the time when
the registration is over. -/
structure FiresFor (e : PrepareEvent) (m : Move ρ) (t : List (Move ρ)) (s : Session ρ)
    (w : WatchHandle) (requestor : ρ) : Prop where
  fired : m.after.state? w.id = some .fired
  start : ∀ x ∈ m :: t, ∀ requestor' type, x.starts = some (w, requestor', type) →
    x.number = m.number ∧ requestor' = requestor ∧ type = e.type
  once : (∀ p ∈ s.stack, p.number ≠ m.number) → starts (m :: t) w.id = 1

section
variable {s s' : Session ρ} {t u v : List (Move ρ)} {m : Move ρ} {w : WatchHandle} {requestor : ρ}

theorem Run.starts_before (h : Run {} t s) (hm : Takes s m s')
    (hmade : m.cause.makes m.before = some (w, requestor)) : starts t w.id = 0 := by
  rw [starts, List.countP_eq_zero]
  intro x hx hst
  rcases hsome : x.starts with _ | ⟨v, requestor', type⟩
  · rw [hsome] at hst
    cases hst
  · rw [hsome] at hst
    obtain ⟨⟨y, hy, hmade'⟩, -⟩ := h.starts_owned hx hsome
    exact h.handle?_before hm hmade (h.handle?_of_makes hy hmade') (by simpa using hst)

theorem Run.number_of_starts (h : Run {} (u ++ m :: v) s)
    (hmade : m.cause.makes m.before = some (w, requestor)) {x : WatchState}
    (hx : m.after.state? w.id = some x) (hne : x ≠ .armed) {y : Move ρ} (hy : y ∈ u ++ m :: v)
    {requestor' : ρ} {type : RuntimeType} (hst : y.starts = some (w, requestor', type)) :
    y.number = m.number := by
  have hm : m ∈ u ++ m :: v := List.mem_append_right _ List.mem_cons_self
  rcases h.starts_cases hy hst with ⟨a, hmove⟩ | ⟨e, r, hc, hawaiting, -⟩
  · rw [hmove] at hy
    exact h.number_of_early hm hmade hy
  · exact absurd (List.mem_filter.1 hawaiting).1 (h.unlisted hmade hx hne _ hc).1

theorem Run.number_of_due (h : Run {} (u ++ m :: v) s)
    (hmade : m.cause.makes m.before = some (w, requestor)) {x : WatchState}
    (hx : m.after.state? w.id = some x) (hne : x ≠ .armed) {p : Pending ρ} (hp : p ∈ s.stack)
    {requestor' : ρ} (hdue : (w, requestor') ∈ p.frame.due) : p.number = m.number := by
  have hm : m ∈ u ++ m :: v := List.mem_append_right _ List.mem_cons_self
  obtain ⟨n, op, f⟩ := p
  cases f with
  | clearingEarly w' requestor₁ type =>
    obtain rfl := congrArg Prod.fst (List.mem_singleton.1 hdue)
    obtain ⟨m', hm', hn, requestor₂, hmade'⟩ := h.fresh_made _ hp w List.mem_cons_self
    rw [← h.made_once hm' hm hmade' hmade]
    exact hn.symm
  | clearingFired w' requestor₁ type rest fired =>
    obtain rfl := congrArg Prod.fst (List.mem_singleton.1 hdue)
    obtain ⟨c, r, hc, hserves⟩ := h.told _ hp
    cases c with
    | dispatch e =>
      have hin := (List.mem_filter.1 (hserves.2 w List.mem_cons_self)).1
      exact absurd hin (h.unlisted hmade hx hne _ hc).1
  | _ => cases hdue

/-- **A registration takes the first event** that is held for it. -/
theorem Run.claims_first (h : Run {} t s) (hm : Takes s m s')
    (hmade : m.cause.makes m.before = some (w, requestor)) (hd : ¬ Detached t m.number)
    {e : PrepareEvent} (he : w.first? s.registry.held = some e) :
    ∃ d, d.event = e ∧ ⟨m.number, d⟩ ∈ (custody (t ++ [m])).claims := by
  obtain ⟨epoch, hmove, hw⟩ := Move.eq_of_makes hmade
  obtain ⟨-, hr, -⟩ := hm.shape
  have hepoch : m.before.detachEpoch = epoch := by
    rw [hmove] at hm
    obtain ⟨stack, hst, -⟩ := hm.answer_eq
    rw [← hr]
    exact (h.epoch_eq_iff (hst ▸ List.mem_cons_self)).2 hd
  have htakes : m.cause.takes? m.before = s.registry.held.findIdx? fun e => w.awaits e := by
    rw [hmove, hr, hw]
    exact if_pos hepoch
  rw [WatchHandle.first?, List.find?_eq_bind_findIdx?_getElem?] at he
  obtain ⟨i, hi, hget⟩ := Option.bind_eq_some_iff.1 he
  rw [h.held_eq, List.getElem?_map, Option.map_eq_some_iff] at hget
  obtain ⟨d, hget, hevent⟩ := hget
  have htaken : (custody t).taken? m = some d :=
    Option.bind_eq_some_iff.2 ⟨i, htakes.trans hi, hget⟩
  refine ⟨d, hevent, ?_⟩
  rw [custody_concat]
  refine List.mem_append_right _ ?_
  rw [htaken]
  exact List.mem_cons_self

/-- **A registration fires its watch for the first event** that is held for it. -/
theorem Run.fires_first (h : Run {} t s) (h' : Run s (m :: v) s')
    (hmade : m.cause.makes m.before = some (w, requestor)) (hd : ¬ Detached t m.number)
    {e : PrepareEvent} (he : w.first? s.registry.held = some e) :
    FiresFor e m v s' w requestor := by
  have hall := h.append h'
  have hm : m ∈ t ++ m :: v := List.mem_append_right _ List.mem_cons_self
  obtain ⟨s₁, htakes, h₁⟩ := run_cons_iff.1 h'
  obtain ⟨-, -, -, hr', -⟩ := htakes.shape
  obtain ⟨d, hevent, hclaim⟩ := h.claims_first htakes hmade hd he
  have hheld : ∃ d ∈ (custody t).held, w.awaits d.event = true := by
    have hin := List.mem_of_find?_eq_some he
    rw [h.held_eq] at hin
    obtain ⟨d', hd', rfl⟩ := List.mem_map.1 hin
    exact ⟨d', hd', List.find?_some he⟩
  have hfired : m.after.state? w.id = some .fired := (h.outcome htakes hmade).2.1 hd hheld
  refine ⟨hfired, fun x hx requestor' type hst => ?_, fun hover => ?_⟩
  · have hx' : x ∈ t ++ m :: v := List.mem_append_right _ hx
    have hn := hall.number_of_starts hmade hfired (by decide) hx' hst
    refine ⟨hn, ?_, ?_⟩
    · obtain ⟨⟨y, hy, hmade'⟩, -⟩ := hall.starts_owned hx' hst
      obtain rfl := hall.made_once hy hm hmade' hmade
      exact congrArg Prod.snd (Option.some.inj (hmade'.symm.trans hmade))
    · obtain ⟨d', hfeeds, -, htype⟩ := hall.fed hx' hst
      have hclaim' : Feeds (t ++ m :: v) d x.number := by
        rw [List.append_cons, hn]
        exact .inr (claims_subset _ _ hclaim)
      rw [← htype, hall.feeds_unique hfeeds hclaim', hevent]
  · have hcount := hall.starts_eq w.id
    have hstate : s'.registry.state? w.id = some .fired :=
      h₁.state?_ended ((h.append htakes.run).sound .empty) (hr' ▸ hfired) (by decide)
    have hdue : dueCount w.id (due s'.stack) = 0 := by
      rw [dueCount, List.countP_eq_zero]
      rintro ⟨w', requestor'⟩ hin hid
      obtain ⟨y, hy, hmade'⟩ := hall.owned.due _ hin
      obtain rfl : w' = w := Sound.eq_of_id (hall.handle?_of_makes hy hmade')
        (hall.handle?_of_makes hm hmade) (by simpa using hid)
      obtain ⟨p, hp, hin⟩ := List.mem_flatMap.1 hin
      exact hover p hp (hall.number_of_due hmade hfired (by decide) hp hin)
    rw [hdue, starts_append, h.starts_before htakes hmade, firedAt, hstate, if_pos rfl] at hcount
    omega

end

/-! ## The main statement -/

/-- **The first event held for a watch is the first dispatched**, at each point of a run, counting
from what was held at first. -/
def InOrder (s : Session ρ) (t : List (Move ρ)) (s' : Session ρ) (w : WatchHandle) : Prop :=
  ∀ t₁ t₂ s₁, t = t₁ ++ t₂ → Run s t₁ s₁ → Run s₁ t₂ s' →
    w.first? s₁.registry.held = w.first? (s.registry.held ++ dispatched t₁)

/-- **Which event fires the watch of a registration** that is in flight from `s` until `s'`, where
its request is named with the move `m`. -/
structure FirstFires (s : Session ρ) (t : List (Move ρ)) (s' : Session ρ) (m : Move ρ)
    (w : WatchHandle) (requestor : ρ) : Prop where
  inOrder : InOrder s t s' w ↔ ∀ x ∈ t, x.overtakes w = false
  /-- While no event overtakes, it is the first dispatched that fires the watch. -/
  first : (∀ x ∈ t, x.overtakes w = false) →
    ∀ e, w.first? (s.registry.held ++ dispatched t) = some e →
      ∀ v s'', Run s' (m :: v) s'' → FiresFor e m v s'' w requestor
  held : ∀ e, w.first? s'.registry.held = some e →
    ∀ v s'', Run s' (m :: v) s'' → FiresFor e m v s'' w requestor
  /-- Were the watch armed already, the first dispatched would fire it. -/
  armed : ∀ u₀ u (s₀ s₁ : Session ρ), Run {} u₀ s₀ → w ∈ s₀.registry.armed → Run s₀ u s₁ →
    ∀ x ∈ u, ∀ requestor' type, x.starts = some (w, requestor', type) →
      ∃ e, w.first? (dispatched u) = some e ∧ e.type = type

section
variable {t₀ t : List (Move ρ)} {s s' : Session ρ} {m : Move ρ} {w : WatchHandle} {requestor : ρ}

theorem Flight.inOrder_iff (hf : Flight t₀ s t s' m w requestor) :
    InOrder s t s' w ↔ ∀ x ∈ t, x.overtakes w = false := by
  constructor
  · intro hfirst x hx
    obtain ⟨t₁, t₂, s₁, s₂, ht, h₁, htakes, h₂⟩ := hf.run.split hx
    refine (hf.step ht h₁ htakes h₂).1 ?_
    rw [hfirst t₁ (x :: t₂) s₁ ht h₁ (.cons htakes h₂),
      hfirst (t₁ ++ [x]) t₂ s₂ (by rw [ht, List.append_cons]) (h₁.append htakes.run) h₂,
      dispatched_append, ← List.append_assoc, first?_append]
  · intro hnone t₁ t₂ s₁ ht h₁ h₂
    -- by induction on the moves of the flight so far
    induction h₁ generalizing t₂ with
    | nil => simp [dispatched]
    | @snoc t₁ s₁ s₂ x h₁ htakes ih =>
      rw [List.append_assoc, List.singleton_append] at ht
      have hx : x ∈ t := by
        rw [ht]
        exact List.mem_append_right _ List.mem_cons_self
      rw [(hf.step ht h₁ htakes h₂).2 (hnone x hx), ih (x :: t₂) ht (.cons htakes h₂),
        ← first?_append, List.append_assoc, ← dispatched_append]

/-- **The first event that a watch awaits fires it, while none overtakes.** -/
theorem first_event_fires (hf : Flight t₀ s t s' m w requestor) :
    FirstFires s t s' m w requestor := by
  have hfires : ∀ e, w.first? s'.registry.held = some e →
      ∀ v s'', Run s' (m :: v) s'' → FiresFor e m v s'' w requestor := fun e he v s'' h =>
    (hf.before.append hf.run).fires_first h hf.makes hf.attached he
  refine ⟨hf.inOrder_iff, fun hnone e he => hfires e ?_, hfires,
    fun u₀ u s₀ s₁ h₀ hw h x hx requestor' type hst => h₀.armed_first hw h hx hst⟩
  exact (hf.inOrder_iff.2 hnone t [] s' (List.append_nil t).symm hf.run .nil).trans he

end

/-- A registration for class A is in flight, and one for B nested in it. Two events for A are held
with one for B between them, which is taken: the second event for A moves into its place, and the
first stays in front. -/
theorem first_event_fires_nested : ∃ (t₀ t v : List (Move Nat)) (s s' s'' : Session Nat)
    (m : Move Nat), Flight t₀ s t s' m ⟨⟨2⟩, "A", ⟨1⟩⟩ 0 ∧
      dispatched t = [⟨⟨1⟩, ⟨⟨9⟩, "A"⟩⟩, ⟨⟨2⟩, ⟨⟨8⟩, "B"⟩⟩, ⟨⟨1⟩, ⟨⟨10⟩, "A"⟩⟩] ∧
      (∀ x ∈ t, x.overtakes ⟨⟨2⟩, "A", ⟨1⟩⟩ = false) ∧ Run s' (m :: v) s'' ∧ s''.stack = [] ∧
      ran (m :: v) = [(⟨⟨2⟩, "A", ⟨1⟩⟩, ⟨⟨9⟩, "A"⟩)] ∧
      FirstFires s t s' m ⟨⟨2⟩, "A", ⟨1⟩⟩ 0 := by
  have hstay : ∀ {t : List (Move Nat)} {s : Session Nat}, Run {} t s → Run s [] s := fun _ => .nil
  have h₀ := (Run.nil (s := ({} : Session Nat))).call (.arm "A" 0)
  have hheld := ((((hstay h₀).call (.arm "B" 1)).call (.dispatch ⟨⟨1⟩, ⟨⟨9⟩, "A"⟩⟩)).call
    (.dispatch ⟨⟨2⟩, ⟨⟨8⟩, "B"⟩⟩)).call (.dispatch ⟨⟨1⟩, ⟨⟨10⟩, "A"⟩⟩)
  have h := ((hheld.answer (Except.ok ⟨2⟩)).answer ()).answer ()
  have h' := (((hstay (h₀.append h)).answer (Except.ok ⟨1⟩)).answer ()).answer ()
  obtain ⟨_, hm, -⟩ := run_cons_iff.1 h'
  have hf : Flight _ _ _ _ _ ⟨⟨2⟩, "A", ⟨1⟩⟩ 0 :=
    ⟨h₀, ⟨_, List.mem_cons_self, rfl, rfl⟩, h, ⟨_, hm⟩, rfl, not_detached rfl _,
      List.forall_mem_nil _, fun v requestor hmade => ?_⟩
  · exact ⟨_, _, _, _, _, _, _, hf, rfl, by decide, h', rfl, rfl, first_event_fires hf⟩
  · -- the only other watch made is that for B
    have hin := hmade.mem
    change _ ∈ [((⟨⟨1⟩, "B", ⟨2⟩⟩ : WatchHandle), 1)] at hin
    cases List.mem_singleton.1 hin
    decide

/-- **The second event fires the watch.** It is the last held when the one for class B is taken,
moves into its place and so comes to stand before the first. -/
theorem first_event_overtaken : ∃ (t₀ t v : List (Move Nat)) (s s' s'' : Session Nat)
    (m : Move Nat), Flight t₀ s t s' m ⟨⟨2⟩, "A", ⟨1⟩⟩ 0 ∧ s.registry.held = [] ∧
      dispatched t = [⟨⟨2⟩, ⟨⟨8⟩, "B"⟩⟩, ⟨⟨1⟩, ⟨⟨9⟩, "A"⟩⟩, ⟨⟨1⟩, ⟨⟨10⟩, "A"⟩⟩] ∧
      (⟨⟨2⟩, "A", ⟨1⟩⟩ : WatchHandle).first? (dispatched t) = some ⟨⟨1⟩, ⟨⟨9⟩, "A"⟩⟩ ∧
      Run s' (m :: v) s'' ∧ s''.stack = [] ∧
      ran (m :: v) = [(⟨⟨2⟩, "A", ⟨1⟩⟩, ⟨⟨10⟩, "A"⟩)] := by
  have hstay : ∀ {t : List (Move Nat)} {s : Session Nat}, Run {} t s → Run s [] s := fun _ => .nil
  have h₀ := (Run.nil (s := ({} : Session Nat))).call (.arm "A" 0)
  have hheld := ((((hstay h₀).call (.arm "B" 1)).call (.dispatch ⟨⟨2⟩, ⟨⟨8⟩, "B"⟩⟩)).call
    (.dispatch ⟨⟨1⟩, ⟨⟨9⟩, "A"⟩⟩)).call (.dispatch ⟨⟨1⟩, ⟨⟨10⟩, "A"⟩⟩)
  have h := ((hheld.answer (Except.ok ⟨2⟩)).answer ()).answer ()
  have h' := (((hstay (h₀.append h)).answer (Except.ok ⟨1⟩)).answer ()).answer ()
  obtain ⟨_, hm, -⟩ := run_cons_iff.1 h'
  have hf : Flight _ _ _ _ _ ⟨⟨2⟩, "A", ⟨1⟩⟩ 0 :=
    ⟨h₀, ⟨_, List.mem_cons_self, rfl, rfl⟩, h, ⟨_, hm⟩, rfl, not_detached rfl _,
      List.forall_mem_nil _, fun v requestor hmade => ?_⟩
  · exact ⟨_, _, _, _, _, _, _, hf, rfl, rfl, rfl, h', rfl, rfl⟩
  · have hin := hmade.mem
    change _ ∈ [((⟨⟨1⟩, "B", ⟨2⟩⟩ : WatchHandle), 1)] at hin
    cases List.mem_singleton.1 hin
    decide

end DebugMap.Watch
