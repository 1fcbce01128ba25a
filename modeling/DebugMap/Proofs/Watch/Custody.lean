import DebugMap.Proofs.Watch.Alone
import DebugMap.Proofs.Watch.Origin
import Mathlib.Data.List.Perm.Subperm

/-!
# Held events

An event that no armed watch awaits is held while registrations are in flight, and one of them may
take it. `custody` follows the held events along a run, each with the number of the call that
dispatched it, and writes down which registration has taken which. `Cause.keep` says what a step
does to the held events whatever they are tagged with, so the tagged list and the registry's own go
the same way (`Run.held_eq`).

Main statements: `Run.deliveries_nodup` (a dispatch's event is held and taken at most once),
`Run.claims_nodup` (a registration takes at most one event), `Run.held_open` (a held event has a
registration in flight that was in flight at its dispatch), `Run.since` (what is held or taken after
a point of a run was held at that point or dispatched later).
-/

set_option autoImplicit false

namespace DebugMap

/-! ## Taking an entry out -/

theorem swapRemove_concat {α : Type} (ys : List α) (last : α) (i : Nat) :
    swapRemove (ys ++ [last]) i = ys.set i last := by
  simp [swapRemove]

theorem map_swapRemove {α β : Type} (f : α → β) (xs : List α) (i : Nat) :
    (swapRemove xs i).map f = swapRemove (xs.map f) i := by
  induction xs using List.reverseRecOn with
  | nil => rfl
  | append_singleton ys last =>
    rw [List.map_append, List.map_singleton, swapRemove_concat, swapRemove_concat, List.map_set]

/-- The entries before and after the one taken out. The last entry is its own successor. -/
theorem swapRemove_cases {α : Type} {xs : List α} {i : Nat} {x : α} (hx : xs[i]? = some x) :
    (∃ ys, xs = ys ++ [x] ∧ i = ys.length ∧ swapRemove xs i = ys) ∨
      ∃ a b last, xs = a ++ x :: b ++ [last] ∧ i = a.length ∧ swapRemove xs i = a ++ last :: b := by
  induction xs using List.reverseRecOn with
  | nil => simp at hx
  | append_singleton ys last =>
    rw [swapRemove_concat]
    rcases Nat.lt_trichotomy i ys.length with hlt | rfl | hgt
    · right
      rw [List.getElem?_append_left hlt, List.getElem?_eq_getElem hlt] at hx
      obtain rfl := Option.some.inj hx
      refine ⟨ys.take i, ys.drop (i + 1), last, ?_, ?_, ?_⟩
      · simp
      · simp [Nat.le_of_lt hlt]
      · exact List.set_eq_take_append_cons_drop.trans (if_pos hlt)
    · left
      refine ⟨ys, ?_, rfl, ?_⟩
      · simp at hx
        rw [hx]
      · exact List.set_eq_of_length_le (Nat.le_refl _)
    · rw [List.getElem?_eq_none (by simp; omega)] at hx
      cases hx

theorem swapRemove_subperm {α : Type} (xs : List α) (i : Nat) :
    (xs[i]?.toList ++ swapRemove xs i).Subperm xs := by
  rcases hx : xs[i]? with _ | x
  · induction xs using List.reverseRecOn with
    | nil => simp [swapRemove]
    | append_singleton ys last =>
      have hle : ys.length ≤ i := by
        have := List.getElem?_eq_none_iff.1 hx
        simp at this
        omega
      rw [swapRemove_concat, List.set_eq_of_length_le hle]
      exact (List.sublist_append_left ys [last]).subperm
  · rcases swapRemove_cases hx with ⟨ys, rfl, -, hs⟩ | ⟨a, b, last, rfl, -, hs⟩
    · rw [hs]
      exact (List.perm_append_singleton x ys).symm.subperm
    · rw [hs]
      apply List.Perm.subperm
      calc x :: (a ++ last :: b)
          _ |>.Perm (a ++ x :: (last :: b)) := List.perm_middle.symm
          _ |>.Perm (a ++ x :: (b ++ [last])) :=
            ((List.perm_append_singleton last b).symm.cons x).append_left a
          _ |>.Perm (a ++ x :: b ++ [last]) := by simp

end DebugMap

namespace DebugMap.Watch

variable {ρ : Type}

/-! ## What a step does to held events -/

def Frame.takes? {op : Operation} (r : Registry ρ) :
    (f : Frame ρ op) → f.question.Answer → Option Nat
  | .requesting className _ epoch, answer =>
    match answer with
    | Except.ok request =>
      if r.detachEpoch = epoch then r.held.findIdx? fun e => (made r className request).awaits e
      else none
    | Except.error _ => none
  | _, _ => none

namespace Cause

def takes? {op : Operation} (r : Registry ρ) : Cause ρ op → Option Nat
  | .call _ => none
  | .answer f a => f.takes? r a

/-- The event that a step holds: that of a dispatch which no armed watch awaits. -/
def holds? (r : Registry ρ) : {op : Operation} → Cause ρ op → Option PrepareEvent
  | _, .call (.dispatch e) => if r.awaiting e = [] ∧ 0 < r.inFlight then some e else none
  | _, _ => none

/-- Whether a step lets all held events go: a detachment, or the end of the last registration. -/
def drops (r : Registry ρ) : {op : Operation} → Cause ρ op → Bool
  | _, .call .detach => true
  | _, .call _ => false
  | _, .answer f _ => f.isRequesting && decide (r.inFlight - 1 = 0)

/-- **What a step does to the held events**, each under a tag. -/
def keep {op : Operation} {α : Type} (c : Cause ρ op) (r : Registry ρ) (tag : PrepareEvent → α)
    (xs : List α) : List α :=
  if c.drops r then []
  else (c.takes? r).elim xs (swapRemove xs) ++ (c.holds? r).toList.map tag

end Cause

section
variable {r r' : Registry ρ} {op : Operation} {c : Cause ρ op} {next : Next ρ op}

theorem takeHeld_eq_none {w : WatchHandle} :
    r.takeHeld w = none ↔ r.held.findIdx? (fun e => w.awaits e) = none := by
  constructor
  · intro h
    rcases hi : r.held.findIdx? (fun e => w.awaits e) with _ | i
    · rfl
    · obtain ⟨hlt, -⟩ := List.findIdx?_eq_some_iff_getElem.1 hi
      simp [Registry.takeHeld, hi, List.getElem?_eq_getElem hlt] at h
  · intro h
    simp [Registry.takeHeld, h]

theorem Cause.map_keep {α β : Type} (f : α → β) (tag : PrepareEvent → α) (xs : List α) :
    (c.keep r tag xs).map f = c.keep r (fun e => f (tag e)) (xs.map f) := by
  unfold Cause.keep
  split
  · rfl
  · rw [List.map_append, List.map_map]
    congr 1
    cases c.takes? r with
    | none => rfl
    | some i => exact map_swapRemove f xs i

theorem Cause.mem_keep {α : Type} {tag : PrepareEvent → α} {xs : List α} {x : α}
    (h : x ∈ c.keep r tag xs) :
    c.drops r = false ∧ (x ∈ xs ∨ ∃ e, c.holds? r = some e ∧ x = tag e) := by
  unfold Cause.keep at h
  split at h
  · cases h
  · rename_i hdrops
    refine ⟨by simpa using hdrops, ?_⟩
    rcases List.mem_append.1 h with h | h
    · left
      cases hi : c.takes? r with
      | none => rwa [hi] at h
      | some i =>
        rw [hi] at h
        exact (swapRemove_subperm xs i).subset (List.mem_append_right _ h)
    · right
      obtain ⟨e, he, rfl⟩ := List.mem_map.1 h
      exact ⟨e, by simpa using he, rfl⟩

theorem Cause.keep_of_idle {α : Type} (tag : PrepareEvent → α) (xs : List α)
    (hdrops : c.drops r = false) (htakes : c.takes? r = none) (hholds : c.holds? r = none) :
    c.keep r tag xs = xs := by
  simp [Cause.keep, hdrops, htakes, hholds]

theorem Cause.keep_requesting {α : Type} (tag : PrepareEvent → α) (xs : List α)
    {className : String} {requestor : ρ} {epoch : Nat} (a : Except HostError RequestId) :
    (Cause.answer (.requesting className requestor epoch) a).keep r tag xs =
      if r.inFlight - 1 = 0 then []
      else (Frame.takes? r (.requesting className requestor epoch) a).elim xs (swapRemove xs) := by
  simp [Cause.keep, Cause.drops, Cause.takes?, Cause.holds?, Frame.isRequesting]

/-- **The registry holds what `Cause.keep` says.** -/
theorem Effect.held_eq (he : Effect r c r' next) : r'.held = c.keep r id r.held := by
  cases he with
  | holds unmatched pending => simp [Cause.keep, Cause.drops, Cause.takes?, Cause.holds?, *]
  | drops unmatched idle => simp [Cause.keep, Cause.drops, Cause.takes?, Cause.holds?, *]
  | @offers event _ _ matched fires =>
    have hheld : r'.held = r.held := by cases fires <;> rfl
    have hholds : (Cause.call (ρ := ρ) (.dispatch event)).holds? r = none :=
      if_neg fun h => matched h.1
    exact hheld.trans (Cause.keep_of_idle id r.held rfl rfl hholds).symm
  | detaches drains => cases drains <;> rfl
  | fails =>
    rw [Cause.keep_requesting]
    rfl
  | overtaken detached =>
    rw [Cause.keep_requesting, Frame.takes?]
    simp only [if_neg detached]
    rfl
  | @catches _ _ _ _ _ held attached took =>
    obtain ⟨i, hi, -, hr⟩ := takeHeld_eq_some took
    obtain rfl : held = swapRemove r.held i := congrArg Registry.held hr
    rw [Cause.keep_requesting, Frame.takes?]
    simp only [if_pos attached, hi]
    rfl
  | arms attached unclaimed =>
    rw [Cause.keep_requesting, Frame.takes?]
    simp only [if_pos attached, takeHeld_eq_none.1 unclaimed]
    rfl
  | ranFired fires =>
    have hheld : r'.held = r.held := by cases fires <;> rfl
    exact hheld.trans (Cause.keep_of_idle id r.held rfl rfl rfl).symm
  | clearedDrained drains =>
    have hheld : r'.held = r.held := by cases drains <;> rfl
    exact hheld.trans (Cause.keep_of_idle id r.held rfl rfl rfl).symm
  | _ => exact (List.append_nil _).symm

end

/-! ## Custody -/

/-- **An event with the number of the call that dispatched it.** -/
structure Delivery where
  number : Nat
  event : PrepareEvent
  deriving DecidableEq, Repr

/-- A registration, by its number, and the held event that it took. -/
structure Claim where
  registration : Nat
  delivery : Delivery
  deriving DecidableEq, Repr

/-- **What became of held events:** those still held, and those that registrations took. -/
structure Custody where
  held : List Delivery := []
  claims : List Claim := []

namespace Custody

def taken? (cu : Custody) (m : Move ρ) : Option Delivery :=
  (m.cause.takes? m.before).bind fun i => cu.held[i]?

def move (cu : Custody) (m : Move ρ) : Custody where
  held := m.cause.keep m.before (Delivery.mk m.number) cu.held
  claims := cu.claims ++ ((cu.taken? m).map (Claim.mk m.number)).toList

def deliveries (cu : Custody) : List Delivery :=
  cu.held ++ cu.claims.map Claim.delivery

theorem deliveries_move (cu : Custody) (m : Move ρ) : (cu.move m).deliveries.Subperm
    (cu.deliveries ++ (m.cause.holds? m.before).toList.map (Delivery.mk m.number)) := by
  have htaken : ((cu.taken? m).toList ++
      (m.cause.takes? m.before).elim cu.held (swapRemove cu.held)).Subperm cu.held := by
    unfold taken?
    cases m.cause.takes? m.before with
    | none => exact List.Subperm.refl _
    | some i => exact swapRemove_subperm cu.held i
  have hheld : ((cu.taken? m).toList ++ (cu.move m).held).Subperm
      (cu.held ++ (m.cause.holds? m.before).toList.map (Delivery.mk m.number)) := by
    rw [move, Cause.keep]
    split
    · refine List.Subperm.trans (List.Sublist.subperm ?_)
        (htaken.trans (List.sublist_append_left _ _).subperm)
      exact (List.nil_sublist _).append_left _
    · rw [← List.append_assoc]
      exact htaken.append (List.Subperm.refl _)
  have hclaims : (cu.move m).claims.map Claim.delivery =
      cu.claims.map Claim.delivery ++ (cu.taken? m).toList := by
    cases h : cu.taken? m <;> simp [move, h]
  have hall := hheld.append (List.Subperm.refl (cu.claims.map Claim.delivery))
  rw [deliveries, hclaims, deliveries]
  refine (List.Perm.subperm ?_).trans (hall.trans (List.Perm.subperm ?_))
  · rw [← List.append_assoc, List.append_assoc (cu.taken? m).toList]
    exact List.perm_append_comm
  · rw [List.append_assoc, List.append_assoc]
    exact List.perm_append_comm.append_left _

end Custody

/-- **The held events of a run.** -/
def custody (t : List (Move ρ)) : Custody :=
  t.foldl Custody.move {}

theorem custody_concat (t : List (Move ρ)) (m : Move ρ) :
    custody (t ++ [m]) = (custody t).move m := by
  simp [custody]

theorem claims_subset (t t' : List (Move ρ)) : (custody t).claims ⊆ (custody (t ++ t')).claims := by
  induction t' using List.reverseRecOn with
  | nil =>
    rw [List.append_nil]
    exact List.Subset.refl _
  | append_singleton t' m ih =>
    rw [← List.append_assoc, custody_concat]
    exact fun x hx => List.mem_append_left _ (ih hx)

theorem Run.held_eq {s : Session ρ} {t : List (Move ρ)} (h : Run {} t s) :
    s.registry.held = (custody t).held.map Delivery.event := by
  refine h.keeps (P := fun t r _ => r.held = (custody t).held.map Delivery.event)
    (fun t c r n rest ih => ?_) rfl
  rw [custody_concat, (effect_step c r).held_eq, Custody.move, Cause.map_keep, ← ih]
  rfl

/-! ## The steps that hold and take -/

theorem Move.eq_of_holds {m : Move ρ} {e : PrepareEvent} (h : m.cause.holds? m.before = some e) :
    m = ⟨m.number, .dispatch, .call (.dispatch e), m.before⟩ ∧ m.before.awaiting e = [] ∧
      0 < m.before.inFlight := by
  obtain ⟨n, op, c, r⟩ := m
  cases c with
  | answer f a => cases h
  | call c =>
    cases c with
    | dispatch event =>
      simp only [Cause.holds?, Option.ite_none_right_eq_some, Option.some.injEq] at h
      obtain ⟨hheld, rfl⟩ := h
      exact ⟨rfl, hheld⟩
    | _ => cases h

theorem Move.eq_of_takes {m : Move ρ} {i : Nat} (h : m.cause.takes? m.before = some i) :
    ∃ className requestor request, m = ⟨m.number, .arm,
        .answer (.requesting className requestor m.before.detachEpoch) (Except.ok request),
          m.before⟩ ∧
      m.before.held.findIdx? (fun e => (made m.before className request).awaits e) = some i := by
  obtain ⟨n, op, c, r⟩ := m
  cases c with
  | call c => cases h
  | answer f a =>
    cases f with
    | requesting className requestor epoch =>
      rcases a with e | request
      · cases h
      · simp only [Cause.takes?, Frame.takes?, Option.ite_none_right_eq_some] at h
        obtain ⟨rfl, hi⟩ := h
        exact ⟨className, requestor, request, rfl, hi⟩
    | _ => cases h

theorem Run.called_lt {s : Session ρ} {t : List (Move ρ)} (h : Run {} t s) {n : Nat}
    {op : Operation} {c : Call ρ op} (hc : Called t n c) : n < s.calls := by
  obtain ⟨r, hm⟩ := hc
  exact (h.number_lt.2 hm).2

theorem Custody.mem_deliveries_move {cu : Custody} {m : Move ρ} {d : Delivery}
    (h : d ∈ (cu.move m).deliveries) :
    d ∈ cu.deliveries ∨ m.cause.holds? m.before = some d.event ∧ d.number = m.number := by
  rcases List.mem_append.1 ((cu.deliveries_move m).subset h) with h | h
  · exact .inl h
  · right
    obtain ⟨e, he, rfl⟩ := List.mem_map.1 h
    exact ⟨by simpa using he, rfl⟩

section
variable {s : Session ρ} {t : List (Move ρ)}

theorem Run.deliveries_held (h : Run {} t s) : ∀ d ∈ (custody t).deliveries,
    ∃ m ∈ t, m.number = d.number ∧ m.cause.holds? m.before = some d.event := by
  induction h with
  | nil => simp [custody, Custody.deliveries]
  | @snoc t s s' m h hm ih =>
    intro d hd
    rw [custody_concat] at hd
    rcases Custody.mem_deliveries_move hd with hd | ⟨he, hn⟩
    · obtain ⟨m', hm', hd'⟩ := ih d hd
      exact ⟨m', List.mem_append_left _ hm', hd'⟩
    · exact ⟨m, List.mem_append_right _ (List.mem_singleton.2 rfl), hn.symm, he⟩

theorem Run.deliveries_called (h : Run {} t s) :
    ∀ d ∈ (custody t).deliveries, Called t d.number (.dispatch d.event) := by
  intro d hd
  obtain ⟨m, hm, hn, he⟩ := h.deliveries_held d hd
  rw [(Move.eq_of_holds he).1, hn] at hm
  exact ⟨m.before, hm⟩

/-- **A dispatch's event is held and taken at most once.** -/
theorem Run.deliveries_nodup (h : Run {} t s) :
    ((custody t).deliveries.map Delivery.number).Nodup := by
  induction h with
  | nil => simp [custody, Custody.deliveries]
  | @snoc t s s' m h hm ih =>
    rw [custody_concat]
    have hall : (((custody t).deliveries ++
        (m.cause.holds? m.before).toList.map (Delivery.mk m.number)).map
          Delivery.number).Nodup := by
      rcases he : m.cause.holds? m.before with _ | e
      · simpa using ih
      · -- a new call has a new number
        rw [(Move.eq_of_holds he).1] at hm
        obtain ⟨hn, -, -⟩ := hm.call_eq
        rw [Option.toList_some, List.map_append, List.map_singleton, List.map_singleton,
          List.nodup_append]
        refine ⟨ih, List.nodup_singleton _, fun n hin k hk => ?_⟩
        obtain ⟨d, hd, rfl⟩ := List.mem_map.1 hin
        have hlt := h.called_lt (h.deliveries_called d hd)
        obtain rfl : k = m.number := by simpa using hk
        omega
    obtain ⟨l, hperm, hsub⟩ := (custody t).deliveries_move m
    exact (hperm.map _).nodup_iff.1 (hall.sublist (hsub.map _))

/-- **A registration takes an event that its watch awaits**, as it makes the watch. -/
theorem Run.claims_made (h : Run {} t s) : ∀ x ∈ (custody t).claims,
    ∃ m ∈ t, m.number = x.registration ∧ ∃ w requestor,
      m.cause.makes m.before = some (w, requestor) ∧ w.awaits x.delivery.event = true := by
  induction h with
  | nil => simp [custody]
  | @snoc t s s' m h hm ih =>
    intro x hx
    rw [custody_concat] at hx
    rcases List.mem_append.1 hx with hx | hx
    · obtain ⟨m', hm', hmade⟩ := ih x hx
      exact ⟨m', List.mem_append_left _ hm', hmade⟩
    · rw [Option.mem_toList, Option.map_eq_some_iff] at hx
      obtain ⟨d, hd, rfl⟩ := hx
      obtain ⟨i, hi, hd⟩ := Option.bind_eq_some_iff.1 hd
      obtain ⟨className, requestor, request, hmove, hfind⟩ := Move.eq_of_takes hi
      obtain ⟨-, hr, -⟩ := hm.shape
      refine ⟨m, List.mem_append_right _ (List.mem_singleton.2 rfl), rfl,
        made m.before className request, requestor, ?_, ?_⟩
      · rw [hmove]
        rfl
      · have hevent : m.before.held[i]? = some d.event := by
          rw [← hr, h.held_eq, List.getElem?_map, hd]
          rfl
        obtain ⟨hlt, hawaits, -⟩ := List.findIdx?_eq_some_iff_getElem.1 hfind
        rw [List.getElem?_eq_getElem hlt] at hevent
        rwa [Option.some.inj hevent] at hawaits

theorem Run.claims_called (h : Run {} t s) : ∀ x ∈ (custody t).claims,
    ∃ className requestor, Called t x.registration (.arm className requestor) := by
  intro x hx
  obtain ⟨m, hm, hn, w, requestor, hmade, -⟩ := h.claims_made x hx
  obtain ⟨className, hc, -⟩ := h.called_of_makes hm hmade
  exact ⟨className, requestor, hn ▸ hc⟩

end

/-! ## Registrations in flight -/

theorem Effect.requesting {r r' : Registry ρ} {op : Operation} {c : Cause ρ op} {next : Next ρ op}
    (he : Effect r c r' next) {f : Frame ρ op} (hn : next.frame? = some f)
    (hf : f.isRequesting = true) : c.frame? = none := by
  cases he with
  | asks _ => rfl
  | offers _ fires =>
    obtain ⟨w, requestor, rest, rfl, -⟩ := fires.frame_eq hn
    cases hf
  | detaches drains =>
    obtain ⟨w, requestor, rest, rfl, -⟩ := drains.frame_eq hn
    cases hf
  | ranFired fires =>
    obtain ⟨w, requestor, rest, rfl, -⟩ := fires.frame_eq hn
    cases hf
  | clearedDrained drains =>
    obtain ⟨w, requestor, rest, rfl, -⟩ := drains.frame_eq hn
    cases hf
  | cancels _ _ | overtaken _ | catches _ _ | clearedEarly | clearedFired =>
    cases hn
    cases hf
  | _ => cases hn

/-- **A registration in flight was in flight before the step**, or the step has begun it. -/
theorem Takes.requesting {s s' : Session ρ} {m : Move ρ} (h : Takes s m s') {p : Pending ρ}
    (hp : p ∈ s'.stack) (hf : p.frame.isRequesting = true) :
    p ∈ s.stack ∨ p.number = s.calls ∧ s'.calls = s.calls + 1 := by
  cases h with
  | call r stack n c =>
    rcases List.mem_append.1 hp with hp | hp
    · exact .inr ⟨number_of_mem_onStack hp, rfl⟩
    · exact .inl hp
  | answer r stack n k f a =>
    left
    rcases List.mem_append.1 hp with hp | hp
    · exfalso
      obtain ⟨f', hn, rfl⟩ := mem_onStack.1 hp
      cases (effect_resume f a r).requesting hn hf
    · exact List.mem_cons_of_mem _ hp

theorem Takes.not_requesting {s s' : Session ρ} {m : Move ρ} (h : Takes s m s') (hs : s.Ordered)
    (hf : m.cause.frame?.any Frame.isRequesting = true) {p : Pending ρ} (hp : p ∈ s'.stack)
    (hreq : p.frame.isRequesting = true) : p.number ≠ m.number := by
  obtain ⟨rest, -, hst, hlt, -⟩ := h.below hs
  rw [hst] at hp
  rcases List.mem_append.1 hp with hp | hp
  · obtain ⟨f, hnext, rfl⟩ := mem_onStack.1 hp
    rw [(effect_step m.cause m.before).requesting hnext hreq] at hf
    cases hf
  · exact Nat.ne_of_lt (hlt p hp)

theorem Run.requesting {s s' : Session ρ} {t : List (Move ρ)} (h : Run s t s') {p : Pending ρ}
    (hp : p ∈ s'.stack) (hf : p.frame.isRequesting = true) : p ∈ s.stack ∨ s.calls ≤ p.number := by
  induction h with
  | nil => exact .inl hp
  | @snoc t s₁ s₂ m h hm ih =>
    rcases hm.requesting hp hf with hp | ⟨hn, -⟩
    · exact ih hp
    · exact .inr (hn ▸ h.number_lt.1)

section
variable {s : Session ρ} {t : List (Move ρ)}

/-- **A registration takes at most one event**, and none before its request is named. -/
theorem Run.claims_nodup (h : Run {} t s) :
    ((custody t).claims.map Claim.registration).Nodup ∧
      ∀ p ∈ s.stack, p.frame.isRequesting = true →
        p.number ∉ (custody t).claims.map Claim.registration := by
  induction h with
  | nil => simp [custody]
  | @snoc t s s' m h hm ih =>
    obtain ⟨hnodup, hnot⟩ := ih
    rw [custody_concat]
    have hold : ∀ p ∈ s'.stack, p.frame.isRequesting = true →
        p.number ∉ (custody t).claims.map Claim.registration := by
      intro p hp hf hin
      rcases hm.requesting hp hf with hp | ⟨hn, -⟩
      · exact hnot p hp hf hin
      · obtain ⟨x, hx, hxn⟩ := List.mem_map.1 hin
        obtain ⟨className, requestor, hc⟩ := h.claims_called x hx
        have := h.called_lt hc
        omega
    rcases hd : (custody t).taken? m with _ | d
    · have hclaims : ((custody t).move m).claims = (custody t).claims := by
        simp [Custody.move, hd]
      rw [hclaims]
      exact ⟨hnodup, hold⟩
    · obtain ⟨i, hi, -⟩ := Option.bind_eq_some_iff.1 hd
      obtain ⟨className, requestor, request, hmove, -⟩ := Move.eq_of_takes hi
      obtain ⟨rest, -, hst, -⟩ := hm.shape
      have hmem : ⟨m.number, .arm, .requesting className requestor m.before.detachEpoch⟩ ∈
          s.stack := by
        rw [hst, hmove]
        exact List.mem_cons_self
      have hnew := hnot _ hmem rfl
      have hclaims : ((custody t).move m).claims.map Claim.registration =
          (custody t).claims.map Claim.registration ++ [m.number] := by
        simp [Custody.move, hd]
      rw [hclaims]
      refine ⟨?_, fun p hp hf hin => ?_⟩
      · rw [List.nodup_append]
        refine ⟨hnodup, List.nodup_singleton _, fun n hin k hk => ?_⟩
        rw [List.mem_singleton.1 hk]
        exact fun heq => hnew (heq ▸ hin)
      · rcases List.mem_append.1 hin with hin | hin
        · exact hold p hp hf hin
        · have hanswered : m.cause.frame?.any Frame.isRequesting = true := by
            rw [hmove]
            rfl
          exact hm.not_requesting h.ordered hanswered hp hf (List.mem_singleton.1 hin)

theorem Cause.drops_of_requesting {r : Registry ρ} {op : Operation} {c : Cause ρ op} {f : Frame ρ op}
    (hc : c.frame? = some f) (hf : f.isRequesting = true) :
    c.drops r = decide (r.inFlight - 1 = 0) := by
  cases c with
  | call c => cases hc
  | answer g a =>
    obtain rfl := Option.some.inj hc
    simp [Cause.drops, hf]

/-- **A held event has a registration in flight that was in flight at its dispatch.** -/
theorem Run.held_open (h : Run {} t s) : ∀ d ∈ (custody t).held,
    ∃ p ∈ s.stack, p.frame.isRequesting = true ∧ p.number < d.number := by
  induction h with
  | nil => simp [custody]
  | @snoc t s s' m h hm ih =>
    intro d hd
    rw [custody_concat] at hd
    obtain ⟨rest, hst, hst', hlt, -⟩ := hm.below h.ordered
    obtain ⟨-, hr, -, -, -⟩ := hm.shape
    have hs := h.invariant
    have hin := hs.inFlight
    rw [hst, requests_onStack, hr] at hin
    -- a registration below the step is in flight, and was called before the step's operation
    have hbelow : 0 < requests rest → m.number ≤ d.number →
        ∃ p ∈ s'.stack, p.frame.isRequesting = true ∧ p.number < d.number := by
      intro hpos hle
      obtain ⟨p, hp, hf⟩ := List.countP_pos_iff.1 hpos
      exact ⟨p, hst' ▸ List.mem_append_right _ hp, hf, Nat.lt_of_lt_of_le (hlt p hp) hle⟩
    obtain ⟨hdrops, hd | ⟨e, he, rfl⟩⟩ := Cause.mem_keep hd
    · obtain ⟨p, hp, hf, hn⟩ := ih d hd
      rw [hst] at hp
      rcases List.mem_append.1 hp with hp | hp
      · -- this registration ends, but it is not the last
        obtain ⟨f, hc, rfl⟩ := mem_onStack.1 hp
        rw [Cause.drops_of_requesting hc hf, decide_eq_false_iff_not] at hdrops
        rw [hc, Option.elim_some, hf, Bool.toNat_true] at hin
        exact hbelow (by omega) (Nat.le_of_lt hn)
      · exact ⟨p, hst' ▸ List.mem_append_right _ hp, hf, hn⟩
    · obtain ⟨hmove, -, hpos⟩ := Move.eq_of_holds he
      have hc : m.cause.frame? = none := by
        rw [hmove]
        rfl
      rw [hc] at hin
      have hpos' : 0 < requests rest := by simpa [hin] using hpos
      exact hbelow hpos' (Nat.le_refl _)

def Frame.early? {op : Operation} : Frame ρ op → Option (WatchHandle × RuntimeType)
  | .clearingEarly w _ type => some (w, type)
  | .runningEarly w _ type => some (w, type)
  | _ => none

theorem Effect.early {r r' : Registry ρ} {op : Operation} {c : Cause ρ op} {next : Next ρ op}
    (he : Effect r c r' next) {w : WatchHandle} {type : RuntimeType}
    (hn : next.frame?.bind Frame.early? = some (w, type)) :
    c.frame?.bind Frame.early? = some (w, type) ∨ ∃ i e, c.takes? r = some i ∧
      r.held[i]? = some e ∧ w.awaits e = true ∧ e.type = type := by
  cases he with
  | @catches className requestor epoch request event held attached took =>
    cases hn
    obtain ⟨i, hi, hevent, -⟩ := takeHeld_eq_some took
    refine .inr ⟨i, event, ?_, hevent, ?_, rfl⟩
    · exact (if_pos attached).trans hi
    · obtain ⟨hlt, hawaits, -⟩ := List.findIdx?_eq_some_iff_getElem.1 hi
      rw [List.getElem?_eq_getElem hlt] at hevent
      rwa [← Option.some.inj hevent]
  | clearedEarly => exact .inl hn
  | offers _ fires => cases fires <;> cases hn
  | detaches drains => cases drains <;> cases hn
  | ranFired fires => cases fires <;> cases hn
  | clearedDrained drains => cases drains <;> cases hn
  | _ => cases hn

/-- **A registration that fires its watch has taken an event** that the watch awaits, and fires it
for the event's type. -/
theorem Run.early_claimed (h : Run {} t s) : ∀ p ∈ s.stack, ∀ w type,
    p.frame.early? = some (w, type) → ∃ d, ⟨p.number, d⟩ ∈ (custody t).claims ∧
      w.awaits d.event = true ∧ d.event.type = type := by
  induction h with
  | nil => simp
  | @snoc t s s' m h hm ih =>
    intro p hp w type hearly
    rw [custody_concat]
    obtain ⟨rest, hr, hst, -, hst'⟩ := hm.shape
    have hkeep : ∀ n, (∃ d, ⟨n, d⟩ ∈ (custody t).claims ∧ w.awaits d.event = true ∧
        d.event.type = type) → ∃ d, ⟨n, d⟩ ∈ ((custody t).move m).claims ∧
          w.awaits d.event = true ∧ d.event.type = type := by
      rintro n ⟨d, hd, hw⟩
      exact ⟨d, List.mem_append_left _ hd, hw⟩
    rw [hst'] at hp
    rcases List.mem_append.1 hp with hp | hp
    · obtain ⟨f, hn, rfl⟩ := mem_onStack.1 hp
      have hnext : m.next.frame?.bind Frame.early? = some (w, type) := by
        rw [hn]
        exact hearly
      rcases (effect_step m.cause m.before).early hnext with hc | ⟨i, e, hi, he, hw, htype⟩
      · obtain ⟨g, hg, hearly⟩ := Option.bind_eq_some_iff.1 hc
        refine hkeep _ (ih ⟨m.number, m.op, g⟩ ?_ w type hearly)
        rw [hst, hg]
        exact List.mem_cons_self
      · rw [← hr, h.held_eq, List.getElem?_map, Option.map_eq_some_iff] at he
        obtain ⟨d, hd, rfl⟩ := he
        have htaken : (custody t).taken? m = some d := Option.bind_eq_some_iff.2 ⟨i, hi, hd⟩
        refine ⟨d, List.mem_append_right _ ?_, hw, htype⟩
        rw [htaken]
        exact List.mem_singleton.2 rfl
    · exact hkeep _ (ih p (hst ▸ List.mem_append_right _ hp) w type hearly)

/-- **What is held or taken after a point of a run** was held at that point or is dispatched
later. -/
theorem Run.since {s₁ : Session ρ} (t₁ : List (Move ρ)) (h : Run s₁ t s) :
    (∀ d ∈ (custody (t₁ ++ t)).held, d ∈ (custody t₁).held ∨ s₁.calls ≤ d.number) ∧
      ∀ x ∈ (custody (t₁ ++ t)).claims, x ∈ (custody t₁).claims ∨
        (x.delivery ∈ (custody t₁).held ∨ s₁.calls ≤ x.delivery.number) := by
  induction h with
  | nil =>
    rw [List.append_nil]
    exact ⟨fun d hd => .inl hd, fun x hx => .inl hx⟩
  | @snoc t s s' m h hm ih =>
    obtain ⟨hheld, hclaims⟩ := ih
    rw [← List.append_assoc, custody_concat]
    refine ⟨fun d hd => ?_, fun x hx => ?_⟩
    · obtain ⟨-, hd | ⟨e, he, rfl⟩⟩ := Cause.mem_keep hd
      · exact hheld d hd
      · rw [(Move.eq_of_holds he).1] at hm
        obtain ⟨hn, -, -⟩ := hm.call_eq
        exact .inr (hn ▸ h.number_lt.1)
    · rcases List.mem_append.1 hx with hx | hx
      · exact hclaims x hx
      · rw [Option.mem_toList, Option.map_eq_some_iff] at hx
        obtain ⟨d, hd, rfl⟩ := hx
        obtain ⟨i, -, hd⟩ := Option.bind_eq_some_iff.1 hd
        exact .inr (hheld d (List.mem_of_getElem? hd))

end

end DebugMap.Watch
