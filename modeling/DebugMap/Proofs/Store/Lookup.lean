import DebugMap.Proofs.Index.Entries
import DebugMap.Store

/-!
# Looking files up

What each change of a store does to the file found under every id. A store is `Ordered` when its
files stand in increasing order of their ids, all of them given out before: every change keeps that
(`Ordered.insert`, `Ordered.set`, `Ordered.remove`), and then the first file found that has some
property is the one with the lowest id (`Ordered.find?_eq_some_iff`).
-/

set_option autoImplicit false

namespace DebugMap.Store

/-- **The files stand in the order of their ids**, all of them given out before. -/
structure Ordered (s : Store) : Prop where
  increasing : s.ids.Pairwise (· < ·)
  below : ∀ id ∈ s.ids, id.raw < s.nextId

variable {s : Store}

theorem ordered_empty : Ordered {} where
  increasing := .nil
  below _ h := absurd h List.not_mem_nil

theorem mem_ids_iff (s : Store) (id : FileId) : id ∈ s.ids ↔ (s.file? id).isSome := by
  unfold ids file?
  rw [List.lookup_isSome_iff, List.mem_map]
  simp only [beq_iff_eq, eq_comm (a := id)]

theorem ids_set (s : Store) (id : FileId) (file : SourceFile) : (s.set id file).2.ids = s.ids := by
  unfold Store.set
  split_ifs
  · unfold ids
    rw [List.map_map]
    apply List.map_congr_left
    intro entry _
    by_cases he : entry.1 = id <;> simp [he]
  · rfl

theorem ids_remove_sublist (s : Store) (id : FileId) : (s.remove id).2.ids.Sublist s.ids := by
  unfold Store.remove
  cases s.file? id with
  | none => exact .refl _
  | some file => exact List.filter_sublist.map Prod.fst

theorem nextId_set (s : Store) (id : FileId) (file : SourceFile) :
    (s.set id file).2.nextId = s.nextId := by
  unfold Store.set
  split_ifs <;> rfl

theorem nextId_remove (s : Store) (id : FileId) : (s.remove id).2.nextId = s.nextId := by
  unfold Store.remove
  cases s.file? id <;> rfl

/-! ## The order of the files -/

theorem Ordered.insert (h : s.Ordered) (file : SourceFile) : (s.insert file).2.Ordered := by
  have hids : (s.insert file).2.ids = s.ids ++ [⟨s.nextId⟩] := by
    simp [Store.insert, ids]
  refine ⟨?_, fun id hid => ?_⟩
  · rw [hids, List.pairwise_append]
    exact ⟨h.increasing, List.pairwise_singleton _ _, fun id hid j hj => by
      rw [List.mem_singleton.1 hj]
      exact h.below id hid⟩
  · show id.raw < s.nextId + 1
    rw [hids, List.mem_append, List.mem_singleton] at hid
    rcases hid with hid | rfl
    · exact Nat.lt_succ_of_lt (h.below id hid)
    · exact Nat.lt_succ_self _

theorem Ordered.set (h : s.Ordered) (id : FileId) (file : SourceFile) :
    (s.set id file).2.Ordered := by
  refine ⟨?_, fun i hi => ?_⟩
  · rw [ids_set]
    exact h.increasing
  · rw [ids_set] at hi
    rw [nextId_set]
    exact h.below i hi

theorem Ordered.remove (h : s.Ordered) (id : FileId) : (s.remove id).2.Ordered := by
  refine ⟨h.increasing.sublist (ids_remove_sublist s id), fun i hi => ?_⟩
  rw [nextId_remove]
  exact h.below i ((ids_remove_sublist s id).subset hi)

theorem Ordered.file?_nextId (h : s.Ordered) : s.file? ⟨s.nextId⟩ = none := by
  rw [← Option.not_isSome_iff_eq_none, ← mem_ids_iff]
  exact fun hid => Nat.lt_irrefl _ (h.below _ hid)

/-! ## The file found under an id -/

theorem Ordered.file?_insert (h : s.Ordered) (file : SourceFile) (i : FileId) :
    (s.insert file).2.file? i = if i = (s.insert file).1 then some file else s.file? i := by
  show (s.files ++ [((⟨s.nextId⟩ : FileId), file)]).lookup i = if i = ⟨s.nextId⟩ then _ else _
  rw [List.lookup_append, lookup_row]
  by_cases hi : i = ⟨s.nextId⟩
  · have hfree : s.files.lookup ⟨s.nextId⟩ = none := h.file?_nextId
    rw [hi, if_pos rfl, if_pos rfl, hfree]
    rfl
  · rw [if_neg hi, if_neg hi]
    exact Option.or_none

theorem file?_set (s : Store) (id : FileId) (file : SourceFile) (i : FileId) :
    (s.set id file).2.file? i =
      if i = id then (s.file? id).map fun _ => file else s.file? i := by
  unfold Store.set
  split_ifs with hsome hi hi
  · exact (lookup_map_row s.files id file i).trans (if_pos hi)
  · exact (lookup_map_row s.files id file i).trans (if_neg hi)
  · rw [Option.not_isSome_iff_eq_none] at hsome
    rw [hi, hsome]
    rfl
  · rfl

theorem file?_remove (s : Store) (id i : FileId) :
    (s.remove id).2.file? i = if i = id then none else s.file? i := by
  unfold Store.remove
  cases hf : s.file? id with
  | none =>
    by_cases hi : i = id
    · rw [if_pos hi, hi, hf]
    · rw [if_neg hi]
  | some file => exact lookup_filter_ne s.files id i

/-! ## The lowest file with a property -/

instance : Std.Asymm fun a b : FileId × SourceFile => a.1 < b.1 where
  asymm a b := asymm_of (· < ·) (a := a.1) (b := b.1)

theorem Ordered.enumerates (h : s.Ordered) :
    Enumerates (fun a b => a.1 < b.1) (fun entry => s.file? entry.1 = some entry.2) s.files := by
  have hrows : s.files.Pairwise fun a b => a.1 < b.1 := List.pairwise_map.1 h.increasing
  refine ⟨hrows, fun ⟨id, file⟩ => ?_⟩
  unfold file?
  rw [List.lookup_eq_some_iff]
  constructor
  · intro hmem
    obtain ⟨before, after, hsplit⟩ := List.append_of_mem hmem
    refine ⟨before, after, hsplit, fun entry hentry => ?_⟩
    rw [hsplit, List.pairwise_append] at hrows
    have hlt : entry.1 < id := hrows.2.2 entry hentry _ List.mem_cons_self
    rw [bne_iff_ne]
    rintro rfl
    exact irrefl_of (· < ·) entry.1 hlt
  · rintro ⟨before, after, hsplit, -⟩
    rw [hsplit]
    exact List.mem_append_right _ List.mem_cons_self

theorem Ordered.find?_eq_none_iff (h : s.Ordered) (p : SourceFile → Bool) :
    s.files.find? (fun entry => p entry.2) = none ↔
      ∀ id file, s.file? id = some file → p file = false := by
  rw [← List.head?_filter, (h.enumerates.filter fun entry => p entry.2).head?_eq_none_iff]
  simp

/-- **The first file with a property** is the one with the lowest id. -/
theorem Ordered.find?_eq_some_iff (h : s.Ordered) (p : SourceFile → Bool) {id : FileId}
    {file : SourceFile} :
    s.files.find? (fun entry => p entry.2) = some (id, file) ↔
      (s.file? id = some file ∧ p file = true) ∧
        ∀ i f, s.file? i = some f → p f = true → i = id ∨ id < i := by
  rw [← List.head?_filter, (h.enumerates.filter fun entry => p entry.2).head?_eq_some_iff]
  refine and_congr_right fun hfile => ⟨fun hleast i f hf hp => ?_, fun hleast ⟨i, f⟩ hf => ?_⟩
  · exact (hleast (i, f) ⟨hf, hp⟩).imp_left (congrArg Prod.fst)
  · refine (hleast i f hf.1 hf.2).imp_left ?_
    rintro rfl
    exact congrArg (i, ·) (Option.some_inj.1 (hf.1.symm.trans hfile.1))

end DebugMap.Store
