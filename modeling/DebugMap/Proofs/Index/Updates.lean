import DebugMap.Proofs.Index.Records
import DebugMap.Query.SourcePosition
import Mathlib.Data.List.Induction

/-!
# The last source of each file

An index may be given sources of any files in any order, the same file again and again. Main
statement: `SymbolIndex.records_ofUpdates` (after any updates the index records the class of the
last source given for each file). An index over some files of a store was given just these
(`SymbolIndex.ofStore_eq`, `SymbolIndex.records_ofStore`).
-/

set_option autoImplicit false

namespace DebugMap

/-- The last source given for each file; a file that was dropped last, or never given, has none. -/
def lastSource? (updates : List (FileId × Option SourceFile)) (id : FileId) : Option SourceFile :=
  ((updates.filter fun u => u.1 = id).getLast?).bind Prod.snd

def lastClasses (updates : List (FileId × Option SourceFile)) : ClassTable :=
  fun id => (lastSource? updates id).bind SourceFile.classDef?

theorem lastSource?_concat (updates : List (FileId × Option SourceFile)) (id i : FileId)
    (source : Option SourceFile) :
    lastSource? (updates ++ [(id, source)]) i =
      if i = id then source else lastSource? updates i := by
  unfold lastSource?
  rw [List.filter_append]
  by_cases hi : i = id
  · simp [hi]
  · simp [hi, Ne.symm hi]

theorem lastClasses_concat (updates : List (FileId × Option SourceFile)) (id : FileId)
    (source : Option SourceFile) :
    lastClasses (updates ++ [(id, source)]) =
      Function.update (lastClasses updates) id (source.bind SourceFile.classDef?) := by
  funext i
  rw [lastClasses, lastSource?_concat, Function.update_apply]
  split_ifs <;> rfl

theorem lastSource?_map (store : Store) (ids : List FileId) (id : FileId) :
    lastSource? (ids.map fun i => (i, store.file? i)) id =
      if id ∈ ids then store.file? id else none := by
  induction ids using List.reverseRecOn with
  | nil => rfl
  | append_singleton ids i ih =>
    rw [List.map_append, List.map_singleton, lastSource?_concat, ih]
    by_cases hi : id = i
    · simp [hi]
    · simp [hi]

namespace SymbolIndex

def ofUpdates (updates : List (FileId × Option SourceFile)) : SymbolIndex :=
  updates.foldl (fun index u => index.update u.1 u.2) {}

theorem records_ofUpdates (updates : List (FileId × Option SourceFile)) :
    (ofUpdates updates).Records (lastClasses updates) := by
  induction updates using List.reverseRecOn with
  | nil => exact records_empty
  | append_singleton updates u ih =>
    rw [ofUpdates, List.foldl_concat, lastClasses_concat]
    exact ih.update u.1 u.2

theorem ofStore_eq (store : Store) (ids : List FileId) :
    ofStore store ids = ofUpdates (ids.map fun id => (id, store.file? id)) := by
  rw [ofStore, ofUpdates, List.foldl_map]

theorem records_ofStore (store : Store) (ids : List FileId) :
    (ofStore store ids).Records fun id => if id ∈ ids then store.classDef? id else none := by
  have htable : lastClasses (ids.map fun id => (id, store.file? id)) =
      fun id => if id ∈ ids then store.classDef? id else none := by
    funext id
    rw [lastClasses, lastSource?_map]
    split_ifs <;> rfl
  rw [ofStore_eq, ← htable]
  exact records_ofUpdates _

end SymbolIndex

end DebugMap
