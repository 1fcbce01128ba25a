import DebugMap.Proofs.Watch.Steps
import Mathlib.Data.List.Perm.Basic

/-!
# The invariant of the registry

A dispatch and a detachment take watches off the armed list and end them one by one, so between two
steps a watch can be armed and stand in the list of an operation in progress only. `Sound` relates
the registry to these lists: it knows how many registrations wait for the process, which watches
are `loose` (on the lists of operations in progress) and which have `ended` at the hands of an
operation in progress. One lemma for each change of the registry says that the change keeps it;
`Effect.sound` assembles them to a step, `Run.sound` to a run.

Main statement: `coherent_of_run`, what `Sound` says of a session.
-/

set_option autoImplicit false

namespace DebugMap.Watch

variable {ρ : Type}

/-! ## What the operations in progress hold -/

namespace Frame

variable {op : Operation}

def isRequesting : Frame ρ op → Bool
  | .requesting .. => true
  | _ => false

/-- The watches that an operation has taken off the armed list and has yet to end. -/
def rest : Frame ρ op → List WatchHandle
  | .clearingFired _ _ _ rest _ => rest
  | .runningFired _ _ _ rest _ => rest
  | .clearingDrained _ rest _ => rest
  | _ => []

/-- The watch that an operation has ended and is busy with, and how it ended. -/
def ended : Frame ρ op → List (WatchHandle × WatchState)
  | .requesting .. => []
  | .clearingDetached w => [(w, .cancelled)]
  | .clearingEarly w _ _ => [(w, .fired)]
  | .runningEarly w _ _ => [(w, .fired)]
  | .clearingCancelled w => [(w, .cancelled)]
  | .clearingFired w _ _ _ _ => [(w, .fired)]
  | .runningFired w _ _ _ _ => [(w, .fired)]
  | .clearingDrained w _ _ => [(w, .cancelled)]

end Frame

def requests (stack : List (Pending ρ)) : Nat :=
  stack.countP fun p => p.frame.isRequesting

def loose (stack : List (Pending ρ)) : List WatchHandle :=
  stack.flatMap fun p => p.frame.rest

def ended (stack : List (Pending ρ)) : List (WatchHandle × WatchState) :=
  stack.flatMap fun p => p.frame.ended

/-- **The invariant of the registry** (module doc). -/
structure Sound (r : Registry ρ) (requests : Nat) (loose : List WatchHandle)
    (ended : List (WatchHandle × WatchState)) : Prop where
  numbered : r.Numbered
  inFlight : r.inFlight = requests
  held : r.held ≠ [] → 0 < r.inFlight
  sorted : r.armed.Sublist (r.slots.map Prod.fst)
  armed : ∀ w ∈ r.armed, r.state? w.id = some .armed
  known : ∀ w ∈ loose, r.handle? w.id = some w
  apart : (r.armed ++ loose).Nodup
  covered : ∀ w, r.handle? w.id = some w → r.state? w.id = some .armed → w ∈ r.armed ∨ w ∈ loose
  ended : ∀ e ∈ ended, e.2 ≠ .armed ∧ r.handle? e.1.id = some e.1 ∧ r.state? e.1.id = some e.2

namespace Sound

variable {r : Registry ρ} {q : Nat} {ws vs : List WatchHandle} {es : List (WatchHandle × WatchState)}

theorem empty : Sound ({} : Registry ρ) 0 [] [] where
  numbered := Registry.numbered_empty
  inFlight := rfl
  held h := absurd rfl h
  sorted := .slnil
  armed := by simp
  known := by simp
  apart := .nil
  covered w h := by cases h
  ended := by simp

theorem handle_armed (h : Sound r q ws es) {w : WatchHandle} (hw : w ∈ r.armed) :
    r.handle? w.id = some w :=
  h.numbered.handle?_of_mem (h.sorted.subset hw)

theorem keyed (h : Sound r q ws es) : (r.armed.map WatchHandle.id).Nodup := by
  have hsub := h.sorted.map WatchHandle.id
  rw [List.map_map] at hsub
  exact h.numbered.nodup.sublist hsub

theorem eq_of_id {w w' : WatchHandle} (h : r.handle? w.id = some w) (h' : r.handle? w'.id = some w')
    (hid : w.id = w'.id) : w = w' := by
  rw [hid, h'] at h
  exact (Option.some.inj h).symm

theorem held_eq_nil (h : Sound r q ws es) (hin : r.inFlight = 0) : r.held = [] := by
  by_contra hne
  exact absurd (h.held hne) (by rw [hin]; exact Nat.lt_irrefl 0)

theorem ended_tail {e : WatchHandle × WatchState} (h : Sound r q ws (e :: es)) : Sound r q ws es :=
  { h with ended := fun e he => h.ended e (List.mem_cons_of_mem _ he) }

theorem forget (h : Sound r q (vs ++ ws) es) (idle : ∀ w ∈ vs, r.state? w.id ≠ some .armed) :
    Sound r q ws es where
  numbered := h.numbered
  inFlight := h.inFlight
  held := h.held
  sorted := h.sorted
  armed := h.armed
  known w hw := h.known w (List.mem_append_right _ hw)
  apart := h.apart.sublist ((List.sublist_append_right _ _).append_left _)
  covered w hw ha := by
    rcases h.covered w hw ha with hw | hw
    · exact .inl hw
    · rcases List.mem_append.1 hw with hw | hw
      · exact absurd ha (idle w hw)
      · exact .inr hw
  ended := h.ended

/-- An armed watch is ended. It may still stand on the list of another operation, which will find
it ended. -/
theorem setSlot (h : Sound r q ws es) {w : WatchHandle} {x y : Slot ρ}
    (hw : r.handle? w.id = some w) (hslot : r.slot? w.id = some y) (hy : y.state = .armed)
    (hx : x.state ≠ .armed) (hout : w ∉ r.armed) :
    Sound (r.setSlot w.id x) q ws ((w, x.state) :: es) where
  numbered := h.numbered.of_map_fst (r.map_fst_setSlot w.id x) rfl
  inFlight := h.inFlight
  held := h.held
  sorted := (r.map_fst_setSlot w.id x).symm ▸ h.sorted
  armed v hv := by
    have hne : v.id ≠ w.id := fun hid => hout (eq_of_id (h.handle_armed hv) hw hid ▸ hv)
    rw [Registry.state?_setSlot_ne hne]
    exact h.armed v hv
  known v hv := by
    rw [Registry.handle?_setSlot]
    exact h.known v hv
  apart := h.apart
  covered v hv ha := by
    rw [Registry.handle?_setSlot] at hv
    rw [Registry.state?_setSlot hslot] at ha
    split at ha
    · exact absurd (Option.some.inj ha) hx
    · exact h.covered v hv ha
  ended e he := by
    rw [Registry.handle?_setSlot, Registry.state?_setSlot hslot]
    rcases List.mem_cons.1 he with rfl | he
    · exact ⟨hx, hw, if_pos rfl⟩
    · obtain ⟨hne, hh, hs⟩ := h.ended e he
      have hid : e.1.id ≠ w.id := by
        intro hid
        rw [hid, Registry.state?_of_slot? hslot, hy] at hs
        exact hne (Option.some.inj hs).symm
      rw [if_neg hid]
      exact ⟨hne, hh, hs⟩

theorem retire {w : WatchHandle} (h : Sound r q (vs ++ w :: ws) es)
    (idle : ∀ v ∈ vs, r.state? v.id ≠ some .armed) {requestor : ρ}
    (hslot : r.slot? w.id = some (.armed requestor)) {x : Slot ρ} (hx : x.state ≠ .armed) :
    Sound (r.setSlot w.id x) q ws ((w, x.state) :: es) := by
  have hmem : w ∈ vs ++ w :: ws := List.mem_append_right _ List.mem_cons_self
  have hout : w ∉ r.armed := fun hw => (List.nodup_append.1 h.apart).2.2 w hw w hmem rfl
  have hset := h.setSlot (h.known w hmem) hslot rfl hx hout
  rw [List.append_cons] at hset
  refine hset.forget fun v hv => ?_
  rw [Registry.state?_setSlot hslot]
  split
  · exact fun hh => hx (Option.some.inj hh)
  · rename_i hne
    rcases List.mem_append.1 hv with hv | hv
    · exact idle v hv
    · exact absurd (by rw [List.mem_singleton.1 hv]) hne

theorem cancel (h : Sound r q ws es) {w : WatchHandle} (hw : r.handle? w.id = some w) {requestor : ρ}
    (hslot : r.slot? w.id = some (.armed requestor)) :
    Sound ((r.setSlot w.id .cancelled).disarm w.id) q ws ((w, .cancelled) :: es) := by
  -- taking the watch off the list first leaves it to nobody's care for the moment
  let r₀ := r.disarm w.id
  have hsub : r₀.armed.Sublist r.armed := List.filter_sublist
  have hmem : ∀ v ∈ r.armed, v ∈ r₀.armed ∨ v = w := by
    intro v hv
    by_cases hid : v.id = w.id
    · exact .inr (eq_of_id (h.handle_armed hv) hw hid)
    · exact .inl (List.mem_filter.2 ⟨hv, by simpa using hid⟩)
  have hout : w ∉ r₀.armed := fun hin => by simpa using (List.mem_filter.1 hin).2
  by_cases hloose : w ∈ ws
  · have h₀ : Sound r₀ q ws es := {
      numbered := ⟨h.numbered.ids, h.numbered.next⟩
      inFlight := h.inFlight, held := h.held, known := h.known
      sorted := hsub.trans h.sorted
      armed := fun v hv => h.armed v (hsub.subset hv)
      apart := h.apart.sublist (hsub.append_right _)
      covered := fun v hv ha => by
        rcases h.covered v hv ha with hv | hv
        · rcases hmem v hv with hv | rfl
          · exact .inl hv
          · exact .inr hloose
        · exact .inr hv
      ended := h.ended }
    exact h₀.setSlot hw hslot rfl (by simp [Slot.state]) hout
  · have h₀ : Sound r₀ q ([] ++ w :: ws) es := {
      numbered := ⟨h.numbered.ids, h.numbered.next⟩
      inFlight := h.inFlight, held := h.held
      sorted := hsub.trans h.sorted
      armed := fun v hv => h.armed v (hsub.subset hv)
      known := List.forall_mem_cons.2 ⟨hw, h.known⟩
      apart := by
        have := h.apart.sublist (hsub.append_right _)
        rw [List.nil_append, List.nodup_middle, List.nodup_cons, List.mem_append, not_or]
        exact ⟨⟨hout, hloose⟩, this⟩
      covered := fun v hv ha => by
        rcases h.covered v hv ha with hv | hv
        · rcases hmem v hv with hv | rfl
          · exact .inl hv
          · exact .inr List.mem_cons_self
        · exact .inr (List.mem_cons_of_mem _ hv)
      ended := h.ended }
    exact h₀.retire (by simp) hslot (by simp [Slot.state])

theorem release (h : Sound r q ws es) (p : WatchHandle → Bool) :
    Sound { r with armed := r.armed.filter fun w => !p w } q (r.armed.filter p ++ ws) es where
  numbered := ⟨h.numbered.ids, h.numbered.next⟩
  inFlight := h.inFlight
  held := h.held
  sorted := List.filter_sublist.trans h.sorted
  armed w hw := h.armed w (List.mem_filter.1 hw).1
  known w hw := by
    rcases List.mem_append.1 hw with hw | hw
    · exact h.handle_armed (List.mem_filter.1 hw).1
    · exact h.known w hw
  apart := by
    have hperm : (r.armed.filter (fun w => !p w) ++ r.armed.filter p).Perm r.armed :=
      List.perm_append_comm.trans (List.filter_append_perm p r.armed)
    rw [← List.append_assoc]
    exact ((hperm.append_right ws).nodup_iff).2 h.apart
  covered w hw ha := by
    rcases h.covered w hw ha with hw | hw
    · by_cases hp : p w
      · exact .inr (List.mem_append_left _ (List.mem_filter.2 ⟨hw, hp⟩))
      · exact .inl (List.mem_filter.2 ⟨hw, by simpa using hp⟩)
    · exact .inr (List.mem_append_right _ hw)
  ended := h.ended

theorem detach (h : Sound r q ws es) :
    Sound { r with detachEpoch := r.detachEpoch + 1, held := [], armed := [] } q (r.armed ++ ws)
      es where
  numbered := ⟨h.numbered.ids, h.numbered.next⟩
  inFlight := h.inFlight
  held hne := absurd rfl hne
  sorted := List.nil_sublist _
  armed := by simp
  known w hw := by
    rcases List.mem_append.1 hw with hw | hw
    · exact h.handle_armed hw
    · exact h.known w hw
  apart := h.apart
  covered w hw ha := by
    rcases h.covered w hw ha with hw | hw
    · exact .inr (List.mem_append_left _ hw)
    · exact .inr (List.mem_append_right _ hw)
  ended := h.ended

theorem hold (h : Sound r q ws es) (hq : 0 < r.inFlight) (held : List PrepareEvent) :
    Sound { r with held } q ws es :=
  { h with numbered := ⟨h.numbered.ids, h.numbered.next⟩, held := fun _ => hq }

theorem begin (h : Sound r q ws es) :
    Sound { r with inFlight := r.inFlight + 1 } (q + 1) ws es :=
  { h with
    numbered := ⟨h.numbered.ids, h.numbered.next⟩
    inFlight := congrArg (· + 1) h.inFlight
    held := fun _ => Nat.succ_pos _ }

theorem finish (h : Sound r (q + 1) ws es) : Sound r.finishRegistration q ws es :=
  { h with
    numbered := ⟨h.numbered.ids, h.numbered.next⟩
    inFlight := by simp [Registry.finishRegistration, h.inFlight]
    held := fun hne => by
      simp only [Registry.finishRegistration] at hne ⊢
      split at hne
      · exact absurd rfl hne
      · omega }

/-! ## New watches -/

theorem id_ne_made (h : r.Numbered) {w v : WatchHandle} (hw : w.id = ⟨r.nextId⟩)
    (hv : r.handle? v.id = some v) : v.id ≠ w.id := by
  intro hid
  have hnone : r.slot? v.id = none := by rw [hid, hw]; exact h.slot?_nextId
  have := Registry.handle?_isSome r v.id
  rw [hv, hnone] at this
  cases this

theorem slot?_made (h : r.Numbered) {w : WatchHandle} (hw : w.id = ⟨r.nextId⟩) :
    r.slot? w.id = none := by
  rw [hw]; exact h.slot?_nextId

theorem addEnded (h : Sound r q ws es) {w : WatchHandle} (hw : w.id = ⟨r.nextId⟩) {x : Slot ρ}
    (hx : x.state ≠ .armed) : Sound (r.addWatch w x) q ws ((w, x.state) :: es) := by
  have hfree := slot?_made h.numbered hw
  have hkeep : ∀ v, r.handle? v.id = some v → (r.addWatch w x).handle? v.id = some v ∧
      (r.addWatch w x).state? v.id = r.state? v.id := by
    intro v hv
    have hne := id_ne_made h.numbered hw hv
    rw [Registry.handle?_addWatch hfree, Registry.state?_addWatch hfree, if_neg hne, if_neg hne]
    exact ⟨hv, rfl⟩
  exact {
    numbered := h.numbered.addWatch hw x
    inFlight := h.inFlight
    held := h.held
    sorted := h.sorted.trans (by simp [Registry.addWatch])
    armed := fun v hv => (hkeep v (h.handle_armed hv)).2.trans (h.armed v hv)
    known := fun v hv => (hkeep v (h.known v hv)).1
    apart := h.apart
    covered := fun v hv ha => by
      rw [Registry.handle?_addWatch hfree] at hv
      rw [Registry.state?_addWatch hfree] at ha
      split at hv
      · rename_i hid
        rw [if_pos hid] at ha
        exact absurd (Option.some.inj ha) hx
      · rename_i hid
        rw [if_neg hid] at ha
        exact h.covered v hv ha
    ended := fun e he => by
      rcases List.mem_cons.1 he with rfl | he
      · rw [Registry.handle?_addWatch hfree, Registry.state?_addWatch hfree, if_pos rfl, if_pos rfl]
        exact ⟨hx, rfl, rfl⟩
      · obtain ⟨hne, hh, hs⟩ := h.ended e he
        obtain ⟨hh', hs'⟩ := hkeep _ hh
        exact ⟨hne, hh', hs'.trans hs⟩ }

theorem addArmed (h : Sound r q ws es) {w : WatchHandle} (hw : w.id = ⟨r.nextId⟩) (requestor : ρ) :
    Sound { r.addWatch w (.armed requestor) with armed := r.armed ++ [w] } q ws es := by
  have hfree := slot?_made h.numbered hw
  have hkeep : ∀ v, r.handle? v.id = some v →
      (r.addWatch w (.armed requestor)).handle? v.id = some v ∧
        (r.addWatch w (.armed requestor)).state? v.id = r.state? v.id := by
    intro v hv
    have hne := id_ne_made h.numbered hw hv
    rw [Registry.handle?_addWatch hfree, Registry.state?_addWatch hfree, if_neg hne, if_neg hne]
    exact ⟨hv, rfl⟩
  have hnew : ∀ v, r.handle? v.id = some v → v ≠ w := by
    rintro v hv rfl
    exact id_ne_made h.numbered hw hv rfl
  exact {
    numbered := ⟨(h.numbered.addWatch hw _).ids, (h.numbered.addWatch hw _).next⟩
    inFlight := h.inFlight
    held := h.held
    sorted := by
      simp only [Registry.addWatch, List.map_append, List.map_cons, List.map_nil]
      exact h.sorted.append_right _
    armed := fun v hv => by
      rcases List.mem_append.1 hv with hv | hv
      · exact (hkeep v (h.handle_armed hv)).2.trans (h.armed v hv)
      · rw [List.mem_singleton.1 hv]
        exact (Registry.state?_addWatch hfree _ _).trans (if_pos rfl)
    known := fun v hv => (hkeep v (h.known v hv)).1
    apart := by
      rw [List.append_assoc, List.singleton_append, List.nodup_middle, List.nodup_cons,
        List.mem_append, not_or]
      exact ⟨⟨fun hin => hnew w (h.handle_armed hin) rfl, fun hin => hnew w (h.known w hin) rfl⟩,
        h.apart⟩
    covered := fun v hv ha => by
      have hv' : (if v.id = w.id then some w else r.handle? v.id) = some v :=
        (Registry.handle?_addWatch hfree _ _).symm.trans hv
      have ha' : (if v.id = w.id then some .armed else r.state? v.id) = some .armed :=
        (Registry.state?_addWatch hfree _ _).symm.trans ha
      split at hv'
      · exact .inl (by simp [Option.some.inj hv'])
      · rename_i hid
        rw [if_neg hid] at ha'
        rcases h.covered v hv' ha' with hv | hv
        · exact .inl (List.mem_append_left _ hv)
        · exact .inr hv
    ended := fun e he => by
      obtain ⟨hne, hh, hs⟩ := h.ended e he
      obtain ⟨hh', hs'⟩ := hkeep _ hh
      exact ⟨hne, hh', hs'.trans hs⟩ }

end Sound

/-! ## Steps and runs -/

section
variable {op : Operation} (n : Nat) (f : Option (Frame ρ op)) (stack : List (Pending ρ))

theorem requests_onStack :
    requests (onStack n f ++ stack) = requests stack + f.elim 0 fun f => f.isRequesting.toNat := by
  rcases f with _ | f
  · rfl
  · cases hf : f.isRequesting <;> simp [onStack, requests, hf]

theorem loose_onStack : loose (onStack n f ++ stack) = f.elim [] Frame.rest ++ loose stack := by
  cases f <;> rfl

theorem ended_onStack : ended (onStack n f ++ stack) = f.elim [] Frame.ended ++ ended stack := by
  cases f <;> rfl

end

section
variable {r r' : Registry ρ} {q : Nat} {vs ws : List WatchHandle}
  {es : List (WatchHandle × WatchState)}

structure Ends.Waits {op : Operation} (x : Slot ρ)
    (wait : WatchHandle → ρ → List WatchHandle → Frame ρ op) : Prop where
  rest : ∀ w requestor rest, (wait w requestor rest).rest = rest
  ended : ∀ w requestor rest, (wait w requestor rest).ended = [(w, x.state)]
  requesting : ∀ w requestor rest, (wait w requestor rest).isRequesting = false
  terminal : x.state ≠ .armed

theorem Fires.waits (type : RuntimeType) (fired : Nat) : Ends.Waits (ρ := ρ) .fired
    fun w requestor rest => .clearingFired w requestor type rest fired :=
  ⟨fun _ _ _ => rfl, fun _ _ _ => rfl, fun _ _ _ => rfl, by simp [Slot.state]⟩

theorem Drains.waits (cancelled : Nat) : Ends.Waits (ρ := ρ) .cancelled
    fun w _ rest => .clearingDrained w rest cancelled :=
  ⟨fun _ _ _ => rfl, fun _ _ _ => rfl, fun _ _ _ => rfl, by simp [Slot.state]⟩

theorem Ends.sound {op : Operation} {x : Slot ρ}
    {wait : WatchHandle → ρ → List WatchHandle → Frame ρ op} {result : op.Result}
    {next : Next ρ op} (he : Ends x wait result vs r r' next) (hw : Ends.Waits x wait)
    (h : Sound r q (vs ++ ws) es) :
    Sound r' (q + next.frame?.elim 0 fun f => f.isRequesting.toNat)
      (next.frame?.elim [] Frame.rest ++ ws) (next.frame?.elim [] Frame.ended ++ es) := by
  cases he with
  | done idle => exact h.forget idle
  | @next skipped rest w requestor split idle armed =>
    rw [split, List.append_assoc] at h
    simp only [Next.frame?, Option.elim, hw.rest, hw.ended, hw.requesting]
    exact h.retire idle armed hw.terminal

/-- **Each step keeps the invariant.** -/
theorem Effect.sound {op : Operation} {c : Cause ρ op} {next : Next ρ op} (he : Effect r c r' next)
    (h : Sound r (q + c.frame?.elim 0 fun f => f.isRequesting.toNat)
      (c.frame?.elim [] Frame.rest ++ ws) (c.frame?.elim [] Frame.ended ++ es)) :
    Sound r' (q + next.frame?.elim 0 fun f => f.isRequesting.toNat)
      (next.frame?.elim [] Frame.rest ++ ws) (next.frame?.elim [] Frame.ended ++ es) := by
  cases he with
  | refuses _ => exact h
  | asks _ => exact h.begin
  | cancels handle armed =>
    have hid := Registry.id_of_handle? handle
    subst hid
    exact h.cancel handle armed
  | leaves _ => exact h
  | holds _ pending => exact h.hold pending _
  | drops _ _ => exact h
  | offers _ fires => exact fires.sound (Fires.waits _ _) (h.release _)
  | detaches drains => exact drains.sound (Drains.waits _) h.detach
  | fails => exact h.finish
  | overtaken _ => exact (h.addEnded (x := .cancelled) rfl (by simp [Slot.state])).finish
  | @catches className requestor epoch request event held _ took =>
    have hpos : 0 < r.inFlight := h.inFlight ▸ Nat.succ_pos _
    have := (h.hold hpos held).addEnded (w := made r className request) (x := .fired) rfl
      (by simp [Slot.state])
    exact this.finish
  | arms _ _ => exact (h.addArmed rfl _).finish
  | clearedDetached => exact h.ended_tail
  | clearedEarly => exact h
  | ranEarly => exact h.ended_tail
  | clearedCancelled => exact h.ended_tail
  | clearedFired => exact h
  | ranFired fires => exact fires.sound (Fires.waits _ _) h.ended_tail
  | clearedDrained drains => exact drains.sound (Drains.waits _) h.ended_tail

end

def Session.Sound (s : Session ρ) : Prop :=
  Watch.Sound s.registry (requests s.stack) (loose s.stack) (ended s.stack)

/-- **What each step keeps** of moves so far, registry and stack, given the invariant, holds after a
run. -/
theorem Run.keeps_sound {s s' : Session ρ} {t : List (Move ρ)} (h : Run s t s') (hs : s.Sound)
    {P : List (Move ρ) → Registry ρ → List (Pending ρ) → Prop}
    (step : ∀ {op : Operation} (t : List (Move ρ)) (c : Cause ρ op) (r : Registry ρ) (n : Nat)
      (rest : List (Pending ρ)), Effect r c (c.step r).registry (c.step r).next →
        Watch.Sound r (requests rest + c.frame?.elim 0 fun f => f.isRequesting.toNat)
          (c.frame?.elim [] Frame.rest ++ loose rest) (c.frame?.elim [] Frame.ended ++ ended rest) →
        P t r (onStack n c.frame? ++ rest) →
        P (t ++ [⟨n, op, c, r⟩]) (c.step r).registry (onStack n (c.step r).next.frame? ++ rest))
    (init : P [] s.registry s.stack) : s'.Sound ∧ P t s'.registry s'.stack := by
  refine h.keeps (P := fun t r stack =>
    Watch.Sound r (requests stack) (loose stack) (ended stack) ∧ P t r stack)
    (fun t c r n rest ⟨hr, hP⟩ => ?_) ⟨hs, init⟩
  have he := effect_step c r
  rw [requests_onStack, loose_onStack, ended_onStack] at hr ⊢
  exact ⟨he.sound hr, step t c r n rest he hr hP⟩

/-- **Every run keeps the invariant.** -/
theorem Run.sound {s s' : Session ρ} {t : List (Move ρ)} (h : Run s t s') (hs : s.Sound) :
    s'.Sound :=
  (h.keeps_sound hs (P := fun _ _ _ => True) (fun _ _ _ _ _ _ _ _ => trivial) trivial).1

/-- **The invariant holds after every run** from the empty session. -/
theorem Run.invariant {s : Session ρ} {t : List (Move ρ)} (h : Run {} t s) :
    Watch.Sound s.registry (requests s.stack) (loose s.stack) (ended s.stack) :=
  h.sound .empty

theorem Reachable.sound {s : Session ρ} (h : Reachable s) : s.Sound := by
  obtain ⟨t, ht⟩ := h
  exact ht.sound .empty

/-! ## The invariant in terms of the registry -/

theorem mem_loose {stack : List (Pending ρ)} {w : WatchHandle} :
    w ∈ loose stack ↔ ∃ p ∈ stack, w ∈ p.frame.rest :=
  List.mem_flatMap

theorem Frame.op_of_mem_rest {op : Operation} {f : Frame ρ op} {w : WatchHandle} (h : w ∈ f.rest) :
    op = .dispatch ∨ op = .detach := by
  cases f with
  | clearingFired | runningFired => exact .inl rfl
  | clearingDrained => exact .inr rfl
  | _ => cases h

theorem Sound.mem_slots_iff {r : Registry ρ} {q : Nat} {ws : List WatchHandle}
    {es : List (WatchHandle × WatchState)} (h : Sound r q ws es) {w : WatchHandle} {x : WatchState} :
    (∃ y, (w, y) ∈ r.slots ∧ y.state = x) ↔
      r.handle? w.id = some w ∧ r.state? w.id = some x := by
  constructor
  · rintro ⟨y, hy, rfl⟩
    exact ⟨h.numbered.handle?_of_mem (List.mem_map_of_mem hy),
      Registry.state?_of_slot? (h.numbered.slot?_of_mem hy)⟩
  · rintro ⟨hw, hx⟩
    obtain ⟨⟨w', y⟩, hy, rfl⟩ := List.mem_map.1 (Registry.mem_of_handle? hw)
    rw [Registry.state?_of_slot? (h.numbered.slot?_of_mem hy)] at hx
    exact ⟨y, hy, Option.some.inj hx⟩

theorem Sound.armedCount_eq {r : Registry ρ} {q : Nat} {es : List (WatchHandle × WatchState)}
    (h : Sound r q [] es) : r.armedCount = r.count .armed := by
  have hcount : r.count .armed =
      ((r.slots.filter fun e => e.2.state = .armed).map Prod.fst).length := by
    rw [Registry.count, List.countP_eq_length_filter, List.length_map]
  rw [hcount]
  apply List.Perm.length_eq
  have hall : ((r.slots.filter fun e => e.2.state = .armed).map Prod.fst).Nodup :=
    h.numbered.nodup_handles.sublist (List.filter_sublist.map _)
  rw [List.perm_ext_iff_of_nodup (h.numbered.nodup_handles.sublist h.sorted) hall]
  intro w
  have hmem : w ∈ (r.slots.filter fun e => e.2.state = .armed).map Prod.fst ↔
      ∃ y, (w, y) ∈ r.slots ∧ y.state = .armed := by
    simp only [List.mem_map, List.mem_filter, decide_eq_true_eq]
    constructor
    · rintro ⟨e, ⟨he, hs⟩, rfl⟩
      exact ⟨e.2, he, hs⟩
    · rintro ⟨y, hy, hs⟩
      exact ⟨(w, y), ⟨hy, hs⟩, rfl⟩
  rw [hmem, h.mem_slots_iff]
  constructor
  · exact fun hw => ⟨h.handle_armed hw, h.armed w hw⟩
  · rintro ⟨hw, ha⟩
    rcases h.covered w hw ha with hw | hw
    · exact hw
    · cases hw

/-- **The registry at a point of a run.** -/
structure Session.Coherent (s : Session ρ) : Prop where
  inFlight : s.registry.inFlight = s.stack.countP fun p => p.frame.isRequesting
  positive : ∀ p ∈ s.stack, p.frame.isRequesting = true → 0 < s.registry.inFlight
  held : s.registry.held ≠ [] → 0 < s.registry.inFlight
  armed : ∀ w ∈ s.registry.armed,
    s.registry.handle? w.id = some w ∧ s.registry.state? w.id = some .armed
  keyed : (s.registry.armed.map WatchHandle.id).Nodup
  distinct : (s.registry.slots.map fun e => e.1.id).Nodup
  below : ∀ e ∈ s.registry.slots, e.1.id.raw < s.registry.nextId
  /-- An armed watch off the armed list is on the list of a dispatch or detachment in progress. -/
  covered : ∀ id, s.registry.state? id = some .armed →
    (∃ w ∈ s.registry.armed, w.id = id) ∨
      ∃ p ∈ s.stack, (p.op = .dispatch ∨ p.op = .detach) ∧ ∃ w ∈ p.frame.rest, w.id = id
  /-- While nothing is in progress, the armed list is the armed watches and nothing is held. -/
  quiescent : s.stack = [] →
    (∀ w, w ∈ s.registry.armed ↔
      s.registry.handle? w.id = some w ∧ s.registry.state? w.id = some .armed) ∧
    s.registry.armedCount = s.registry.count .armed ∧
    s.registry.inFlight = 0 ∧ s.registry.held = []

/-- **At every point of every run** the registry agrees with the operations in progress. -/
theorem coherent_of_run {s : Session ρ} {t : List (Move ρ)} (h : Run {} t s) : s.Coherent := by
  have hs : s.Sound := h.sound .empty
  have hin : s.registry.inFlight = s.stack.countP fun p => p.frame.isRequesting := hs.inFlight
  refine ⟨hin, fun p hp hq => ?_, hs.held, fun w hw => ⟨hs.handle_armed hw, hs.armed w hw⟩,
    hs.keyed, hs.numbered.nodup, fun e he => hs.numbered.lt_nextId he, fun id hid => ?_,
    fun hst => ?_⟩
  · rw [hin]
    exact List.countP_pos_iff.2 ⟨p, hp, hq⟩
  · obtain ⟨w, hw⟩ := Registry.handle?_isSome_of_state? hid
    have hwid := Registry.id_of_handle? hw
    subst hwid
    rcases hs.covered w hw hid with hw | hw
    · exact .inl ⟨w, hw, rfl⟩
    · obtain ⟨p, hp, hw⟩ := mem_loose.1 hw
      exact .inr ⟨p, hp, Frame.op_of_mem_rest hw, w, hw, rfl⟩
  · have hs' : Sound s.registry 0 [] [] := by
      have := hs
      unfold Session.Sound at this
      rwa [hst] at this
    refine ⟨fun w => ⟨fun hw => ⟨hs.handle_armed hw, hs.armed w hw⟩, fun ⟨hw, ha⟩ => ?_⟩,
      hs'.armedCount_eq, hs'.inFlight, hs'.held_eq_nil hs'.inFlight⟩
    exact (hs'.covered w hw ha).resolve_right (List.not_mem_nil)

/-- Two watches wait for one request. While the requestor of the first runs and registers another
watch, the second is armed but stands on the list of the dispatch only, and an event is held. -/
theorem coherent_while_firing : ∃ (t : List (Move Nat)) (s : Session Nat), Run {} t s ∧
    s.registry.armed = [] ∧ loose s.stack = [⟨⟨2⟩, "A", ⟨5⟩⟩] ∧
    s.registry.state? ⟨2⟩ = some .armed ∧ s.registry.held = [⟨⟨7⟩, ⟨⟨8⟩, "B"⟩⟩] ∧ s.Coherent := by
  have harm := (((Run.nil (s := ({} : Session Nat))).call (.arm "A" 0)).answer
    (Except.ok ⟨5⟩)).call (.arm "LA;" 1)
  have hrun := ((harm.answer (Except.ok ⟨5⟩)).call (.dispatch ⟨⟨5⟩, ⟨⟨9⟩, "A"⟩⟩)).answer ()
  have h := (hrun.call (.arm "B" 2)).call (.dispatch ⟨⟨7⟩, ⟨⟨8⟩, "B"⟩⟩)
  exact ⟨_, _, h, rfl, rfl, rfl, rfl, coherent_of_run h⟩

end DebugMap.Watch
