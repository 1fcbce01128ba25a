import DebugMap.Watch.Basic
import Mathlib.Data.List.Nodup

/-!
# Looking watches up

What ending a watch (`Registry.setSlot`) and adding one (`Registry.addWatch`) do to the slot, the
handle and the state found under each id. A registry is `Numbered` when its watches carry the ids
1, 2, 3, … and `nextId` is the next of them: then each watch is found under its id
(`Numbered.slot?_of_mem`), the next id is free (`Numbered.slot?_nextId`), and ending one watch
changes the number of watches in a state by that watch alone (`Numbered.count_setSlot`).
-/

set_option autoImplicit false

namespace DebugMap.Registry

variable {ρ : Type} {r : Registry ρ}

/-! ## States and slots -/

theorem state?_eq (r : Registry ρ) (id : WatchId) : r.state? id = (r.slot? id).map Slot.state := rfl

theorem state?_of_slot? {id : WatchId} {x : Slot ρ} (h : r.slot? id = some x) :
    r.state? id = some x.state := by
  rw [state?_eq, h]; rfl

theorem state?_eq_armed {id : WatchId} :
    r.state? id = some .armed ↔ ∃ requestor, r.slot? id = some (.armed requestor) := by
  rw [state?_eq]
  rcases r.slot? id with _ | (requestor | _ | _) <;> simp [Slot.state]

theorem handle?_isSome (r : Registry ρ) (id : WatchId) :
    (r.handle? id).isSome = (r.slot? id).isSome := by
  simp [handle?, slot?]

theorem handle?_isSome_of_state? {id : WatchId} {x : WatchState} (h : r.state? id = some x) :
    ∃ w, r.handle? id = some w := by
  apply Option.isSome_iff_exists.1
  rw [handle?_isSome]
  rw [state?_eq, Option.map_eq_some_iff] at h
  obtain ⟨s, hs, -⟩ := h
  rw [hs]; rfl

theorem id_of_handle? {id : WatchId} {w : WatchHandle} (h : r.handle? id = some w) : w.id = id := by
  obtain ⟨e, he, rfl⟩ := Option.map_eq_some_iff.1 h
  simpa using List.find?_some he

theorem mem_of_handle? {id : WatchId} {w : WatchHandle} (h : r.handle? id = some w) :
    w ∈ r.slots.map Prod.fst := by
  obtain ⟨e, he, rfl⟩ := Option.map_eq_some_iff.1 h
  exact List.mem_map_of_mem (List.mem_of_find?_eq_some he)

theorem slot?_congr {r' : Registry ρ} (h : r'.slots = r.slots) (id : WatchId) :
    r'.slot? id = r.slot? id := by
  unfold slot?
  rw [h]

theorem handle?_congr {r' : Registry ρ} (h : r'.slots = r.slots) (id : WatchId) :
    r'.handle? id = r.handle? id := by
  unfold handle?
  rw [h]

theorem state?_congr {r' : Registry ρ} (h : r'.slots = r.slots) (id : WatchId) :
    r'.state? id = r.state? id := by
  rw [state?_eq, slot?_congr h, state?_eq]

/-! ## Ending a watch -/

theorem find?_setSlot (r : Registry ρ) (id i : WatchId) (x : Slot ρ) :
    (r.setSlot id x).slots.find? (fun e => e.1.id = i) =
      (r.slots.find? fun e => e.1.id = i).map fun e => if e.1.id = id then (e.1, x) else e := by
  rw [setSlot, List.find?_map]
  congr 2
  funext e
  by_cases h : e.1.id = id <;> simp [h]

theorem slot?_setSlot (r : Registry ρ) (id i : WatchId) (x : Slot ρ) :
    (r.setSlot id x).slot? i = if i = id then (r.slot? i).map fun _ => x else r.slot? i := by
  unfold slot?
  rw [find?_setSlot]
  obtain h | ⟨e, h⟩ := Option.eq_none_or_eq_some (r.slots.find? fun e => e.1.id = i)
  · rw [h]
    exact (ite_self _).symm
  · have he : e.1.id = i := by simpa using List.find?_some h
    rw [h, ← he]
    by_cases hid : e.1.id = id <;> simp [hid]

theorem handle?_setSlot (r : Registry ρ) (id i : WatchId) (x : Slot ρ) :
    (r.setSlot id x).handle? i = r.handle? i := by
  unfold handle?
  rw [find?_setSlot, Option.map_map]
  congr 1
  funext e
  by_cases h : e.1.id = id <;> simp [h]

theorem map_fst_setSlot (r : Registry ρ) (id : WatchId) (x : Slot ρ) :
    (r.setSlot id x).slots.map Prod.fst = r.slots.map Prod.fst := by
  rw [setSlot, List.map_map]
  congr 1
  funext e
  by_cases h : e.1.id = id <;> simp [h]

theorem state?_setSlot_self {id : WatchId} {x y : Slot ρ} (h : r.slot? id = some y) :
    (r.setSlot id x).state? id = some x.state := by
  rw [state?_eq, slot?_setSlot, h]; simp

theorem state?_setSlot_ne {id i : WatchId} (h : i ≠ id) (x : Slot ρ) :
    (r.setSlot id x).state? i = r.state? i := by
  rw [state?_eq, slot?_setSlot, if_neg h, state?_eq]

theorem state?_setSlot {id : WatchId} {x y : Slot ρ} (h : r.slot? id = some y) (i : WatchId) :
    (r.setSlot id x).state? i = if i = id then some x.state else r.state? i := by
  by_cases hi : i = id
  · subst hi
    rw [if_pos rfl, state?_setSlot_self h]
  · rw [if_neg hi, state?_setSlot_ne hi]

theorem retire_eq_some {id : WatchId} {x : Slot ρ} {requestor : ρ} {r' : Registry ρ} :
    r.retire id x = some (requestor, r') ↔
      r.slot? id = some (.armed requestor) ∧ r' = r.setSlot id x := by
  unfold retire
  rcases r.slot? id with _ | (q | _ | _) <;> simp
  intro _
  exact eq_comm

theorem retire_eq_none {id : WatchId} {x : Slot ρ} :
    r.retire id x = none ↔ r.state? id ≠ some .armed := by
  unfold retire
  rw [state?_eq]
  rcases r.slot? id with _ | (q | _ | _) <;> simp [Slot.state]

/-! ## Adding a watch -/

theorem slot?_addWatch {w : WatchHandle} (h : r.slot? w.id = none) (x : Slot ρ) (i : WatchId) :
    (r.addWatch w x).slot? i = if i = w.id then some x else r.slot? i := by
  unfold slot? addWatch
  rw [List.find?_append]
  by_cases hi : i = w.id
  · subst hi
    have hn : r.slots.find? (fun e => e.1.id = w.id) = none := Option.map_eq_none_iff.1 h
    simp [hn]
  · simp [hi, Ne.symm hi]

theorem handle?_addWatch {w : WatchHandle} (h : r.slot? w.id = none) (x : Slot ρ) (i : WatchId) :
    (r.addWatch w x).handle? i = if i = w.id then some w else r.handle? i := by
  unfold handle? addWatch
  rw [List.find?_append]
  by_cases hi : i = w.id
  · subst hi
    have hn : r.slots.find? (fun e => e.1.id = w.id) = none := Option.map_eq_none_iff.1 h
    simp [hn]
  · simp [hi, Ne.symm hi]

theorem state?_addWatch {w : WatchHandle} (h : r.slot? w.id = none) (x : Slot ρ) (i : WatchId) :
    (r.addWatch w x).state? i = if i = w.id then some x.state else r.state? i := by
  rw [state?_eq, slot?_addWatch h]
  split <;> rfl

/-! ## Numbered registries -/

/-- **The watches carry the ids 1, 2, 3, …** in the order of the list. -/
structure Numbered (r : Registry ρ) : Prop where
  ids : r.slots.map (fun e => e.1.id.raw) = List.range' 1 r.slots.length
  next : r.nextId = r.slots.length + 1

theorem numbered_empty : Numbered ({} : Registry ρ) := ⟨rfl, rfl⟩

theorem Numbered.of_map_fst (h : Numbered r) {r' : Registry ρ}
    (hs : r'.slots.map Prod.fst = r.slots.map Prod.fst) (hn : r'.nextId = r.nextId) :
    Numbered r' := by
  have hl : r'.slots.length = r.slots.length := by simpa using congrArg List.length hs
  refine ⟨?_, by rw [hn, h.next, hl]⟩
  have := congrArg (List.map fun w : WatchHandle => w.id.raw) hs
  rw [List.map_map, List.map_map] at this
  rw [hl, ← h.ids]
  exact this

theorem Numbered.addWatch (h : Numbered r) {w : WatchHandle} (hw : w.id = ⟨r.nextId⟩)
    (x : Slot ρ) : Numbered (r.addWatch w x) := by
  refine ⟨?_, by simp [Registry.addWatch, h.next]⟩
  simp only [Registry.addWatch, List.map_append, List.map_cons, List.map_nil, List.length_append,
    List.length_singleton, List.range'_concat, h.ids, hw, h.next]
  rw [Nat.one_mul, Nat.add_comm]

theorem Numbered.nodup (h : Numbered r) : (r.slots.map fun e => e.1.id).Nodup := by
  have : ((r.slots.map fun e => e.1.id).map WatchId.raw).Nodup := by
    rw [List.map_map]
    exact h.ids ▸ List.nodup_range'
  exact this.of_map _

theorem Numbered.nodup_handles (h : Numbered r) : (r.slots.map Prod.fst).Nodup := by
  have : ((r.slots.map Prod.fst).map WatchHandle.id).Nodup := by
    rw [List.map_map]
    exact h.nodup
  exact this.of_map _

theorem Numbered.lt_nextId (h : Numbered r) {e : WatchHandle × Slot ρ} (he : e ∈ r.slots) :
    e.1.id.raw < r.nextId := by
  have : e.1.id.raw ∈ List.range' 1 r.slots.length := h.ids ▸ List.mem_map_of_mem he
  rw [List.mem_range'_1] at this
  rw [h.next]
  omega

theorem Numbered.slot?_nextId (h : Numbered r) : r.slot? ⟨r.nextId⟩ = none := by
  unfold slot?
  rw [Option.map_eq_none_iff, List.find?_eq_none]
  intro e he hid
  have := h.lt_nextId he
  rw [of_decide_eq_true hid] at this
  exact absurd this (Nat.lt_irrefl _)

theorem Numbered.find?_of_mem (h : Numbered r) {e : WatchHandle × Slot ρ} (he : e ∈ r.slots) :
    r.slots.find? (fun e' => e'.1.id = e.1.id) = some e := by
  have key : ∀ (l : List (WatchHandle × Slot ρ)), (l.map fun e => e.1.id).Nodup → e ∈ l →
      l.find? (fun e' => e'.1.id = e.1.id) = some e := by
    intro l hl hm
    induction l with
    | nil => cases hm
    | cons a l ih =>
      rw [List.map_cons, List.nodup_cons] at hl
      rcases List.mem_cons.1 hm with rfl | hm
      · simp
      · have hne : ¬ a.1.id = e.1.id := fun heq => hl.1 (heq ▸ List.mem_map_of_mem hm)
        rw [List.find?_cons_of_neg (by simpa using hne)]
        exact ih hl.2 hm
  exact key _ h.nodup he

theorem Numbered.slot?_of_mem (h : Numbered r) {w : WatchHandle} {x : Slot ρ}
    (he : (w, x) ∈ r.slots) : r.slot? w.id = some x := by
  unfold slot?
  rw [h.find?_of_mem he]; rfl

theorem Numbered.handle?_of_mem (h : Numbered r) {w : WatchHandle}
    (hw : w ∈ r.slots.map Prod.fst) : r.handle? w.id = some w := by
  obtain ⟨e, he, rfl⟩ := List.mem_map.1 hw
  unfold handle?
  rw [h.find?_of_mem he]; rfl

def count (r : Registry ρ) (x : WatchState) : Nat :=
  r.slots.countP fun e => e.2.state = x

theorem Numbered.count_setSlot (h : Numbered r) {id : WatchId} {y : Slot ρ}
    (hid : r.slot? id = some y) (x : Slot ρ) (st : WatchState) :
    (r.setSlot id x).count st + (if y.state = st then 1 else 0) =
      r.count st + (if x.state = st then 1 else 0) := by
  have key : ∀ (l : List (WatchHandle × Slot ρ)), (l.map fun e => e.1.id).Nodup →
      (l.find? fun e => e.1.id = id).map Prod.snd = some y →
      (l.map fun e => if e.1.id = id then (e.1, x) else e).countP (fun e => e.2.state = st) +
          (if y.state = st then 1 else 0) =
        l.countP (fun e => e.2.state = st) + (if x.state = st then 1 else 0) := by
    intro l hl hf
    induction l with
    | nil => simp at hf
    | cons a l ih =>
      rw [List.map_cons, List.nodup_cons] at hl
      rw [List.map_cons, List.countP_cons, List.countP_cons]
      by_cases ha : a.1.id = id
      · have hy : a.2 = y := by simpa [ha] using hf
        -- no later entry has this id, so the rest of the list stays as it is
        have hrest : (l.map fun e => if e.1.id = id then (e.1, x) else e) = l := by
          conv => rhs; rw [← List.map_id l]
          apply List.map_congr_left
          intro e he
          have : ¬ e.1.id = id := fun hh => hl.1 (ha.trans hh.symm ▸ List.mem_map_of_mem he)
          rw [if_neg this]; rfl
        subst hy
        simp only [hrest, ha, if_true, decide_eq_true_eq]
        omega
      · have hf' : (l.find? fun e => e.1.id = id).map Prod.snd = some y := by
          simpa [ha] using hf
        have := ih hl.2 hf'
        simp only [ha, if_false]
        omega
  exact key _ h.nodup hid

theorem count_addWatch (r : Registry ρ) (w : WatchHandle) (x : Slot ρ) (st : WatchState) :
    (r.addWatch w x).count st = r.count st + (if x.state = st then 1 else 0) := by
  simp [count, addWatch, List.countP_append]

end DebugMap.Registry
