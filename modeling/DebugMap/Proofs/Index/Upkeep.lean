import DebugMap.Proofs.Index.Updates
import DebugMap.Proofs.Store.Lookup

/-!
# An index kept beside a store

Files are added, edited and removed, and the index is told of one file after another as it is
then, in any order, or built anew over some files. `Upkeep` is such a run, with the files that
changed since the index was last told of them. Main statement: `Upkeep.records_current` (once the
index has been told of every change, it records what the store holds). The invariant that carries
it is `Upkeep.records`: at any time the index records the store as far as no change is
outstanding.
-/

set_option autoImplicit false

namespace DebugMap

/-- **A store and an index beside it**, both empty at first, with the files that changed since the
index was last told of them. An index built anew may leave files out. -/
inductive Upkeep : Store → SymbolIndex → List FileId → Prop
  | start : Upkeep {} {} []
  | insert {store index stale} (file : SourceFile) : Upkeep store index stale →
      Upkeep (store.insert file).2 index ((store.insert file).1 :: stale)
  | set {store index stale} (id : FileId) (file : SourceFile) : Upkeep store index stale →
      Upkeep (store.set id file).2 index (id :: stale)
  | remove {store index stale} (id : FileId) : Upkeep store index stale →
      Upkeep (store.remove id).2 index (id :: stale)
  | reindex {store index stale} (id : FileId) : Upkeep store index stale →
      Upkeep store (index.update id (store.file? id)) (stale.filter (· ≠ id))
  | rebuild {store index stale} (ids : List FileId) : Upkeep store index stale →
      Upkeep store (.ofStore store ids) (store.ids.filter (· ∉ ids))

namespace Upkeep

variable {store : Store} {index : SymbolIndex} {stale : List FileId}

theorem ordered (h : Upkeep store index stale) : store.Ordered := by
  induction h with
  | start => exact Store.ordered_empty
  | insert file _ ih => exact ih.insert file
  | set id file _ ih => exact ih.set id file
  | remove id _ ih => exact ih.remove id
  | reindex id _ ih => exact ih
  | rebuild ids _ ih => exact ih

/-- A change of one file is outstanding from then on; no other file is concerned. -/
theorem agrees_of_change {t : ClassTable} {store' : Store} {id : FileId}
    (h : ∀ i, i ∉ stale → t i = store.classDef? i)
    (hsame : ∀ i, i ≠ id → store'.file? i = store.file? i) (i : FileId) (hi : i ∉ id :: stale) :
    t i = store'.classDef? i := by
  obtain ⟨hne, hi⟩ := not_or.1 (mt List.mem_cons.2 hi)
  rw [h i hi, Store.classDef?, Store.classDef?, hsame i hne]

theorem records (h : Upkeep store index stale) :
    ∃ t, index.Records t ∧ ∀ id, id ∉ stale → t id = store.classDef? id := by
  induction h with
  | start => exact ⟨_, SymbolIndex.records_empty, fun _ _ => rfl⟩
  | insert file hrun ih =>
    obtain ⟨t, ht, hstore⟩ := ih
    refine ⟨t, ht, agrees_of_change hstore fun i hne => ?_⟩
    exact (hrun.ordered.file?_insert file i).trans (if_neg hne)
  | set id file _ ih =>
    obtain ⟨t, ht, hstore⟩ := ih
    refine ⟨t, ht, agrees_of_change hstore fun i hne => ?_⟩
    exact (Store.file?_set _ id file i).trans (if_neg hne)
  | remove id _ ih =>
    obtain ⟨t, ht, hstore⟩ := ih
    refine ⟨t, ht, agrees_of_change hstore fun i hne => ?_⟩
    exact (Store.file?_remove _ id i).trans (if_neg hne)
  | @reindex store index stale id _ ih =>
    -- The entry of `id` is as the store has it now, whatever it was before.
    obtain ⟨t, ht, hstore⟩ := ih
    refine ⟨_, ht.update id (store.file? id), fun i hi => ?_⟩
    by_cases hne : i = id
    · subst hne
      rw [Function.update_self]
      rfl
    · rw [Function.update_of_ne hne]
      exact hstore i fun hmem => hi (List.mem_filter.2 ⟨hmem, by simpa using hne⟩)
  | @rebuild store _ _ ids _ _ =>
    refine ⟨_, SymbolIndex.records_ofStore store ids, fun i hi => ?_⟩
    by_cases hmem : i ∈ ids
    · exact if_pos hmem
    · have habsent : store.file? i = none := by
        rw [← Option.not_isSome_iff_eq_none, ← store.mem_ids_iff]
        exact fun hid => hi (List.mem_filter.2 ⟨hid, decide_eq_true hmem⟩)
      rw [if_neg hmem, Store.classDef?, habsent, Option.bind_none]

/-- **An index told of every change** records what the store holds. -/
theorem records_current (h : Upkeep store index []) : index.Records store.classDef? := by
  obtain ⟨t, ht, hstore⟩ := h.records
  obtain rfl : t = store.classDef? := funext fun id => hstore id List.not_mem_nil
  exact ht

end Upkeep

end DebugMap
