import DebugMap.Proofs.Index.Upkeep

/-!
# An index answers as a scan of the sources

`Scans` says that the answers of an index are those of a look through all classes of a table, file
by file. Main statement: `answers_of_updates`: after any updates that table is the one of the last
source given for each file (`lastClasses`), so nothing is left of earlier sources, and the order
in which different files were given does not show.
-/

set_option autoImplicit false

namespace DebugMap

namespace SymbolIndex

/-- **The answers of an index are those of a scan** of a table of classes. -/
structure Scans (index : SymbolIndex) (t : ClassTable) : Prop where
  classes : ∀ query scope, Enumerates ClassSymbol.Before (t.FoundClass query scope)
    (index.classesByName query scope)
  methods : ∀ key scope, Enumerates MethodSymbol.Before (t.FoundMethod key scope)
    (index.methodsBySignature key scope)
  isEmpty : index.isEmpty = true ↔ ∀ id, t id = none

/-- Two indexes answer every question alike. -/
structure Agrees (a b : SymbolIndex) : Prop where
  classes : ∀ query scope, a.classesByName query scope = b.classesByName query scope
  methods : ∀ key scope, a.methodsBySignature key scope = b.methodsBySignature key scope
  isEmpty : a.isEmpty = b.isEmpty

variable {index other : SymbolIndex} {t : ClassTable}

theorem Records.scans (h : index.Records t) : index.Scans t :=
  ⟨h.classesByName, h.methodsBySignature, h.isEmpty_iff⟩

theorem Scans.agrees (h : index.Scans t) (h' : other.Scans t) : index.Agrees other where
  classes query scope := (h.classes query scope).unique (h'.classes query scope)
  methods key scope := (h.methods key scope).unique (h'.methods key scope)
  isEmpty := Bool.eq_iff_iff.2 (h.isEmpty.trans h'.isEmpty.symm)

/-- **An index is a plain map from files to their last sources**, whatever the updates: it answers
as a scan of the last sources, and as any other index that was given the same last sources. An
index over some files of a store was given just these files, and an index told of every change of
a store answers as a scan of the store. -/
theorem answers_of_updates (updates : List (FileId × Option SourceFile)) :
    (ofUpdates updates).Scans (lastClasses updates) ∧
      (∀ others, (∀ id, lastSource? others id = lastSource? updates id) →
        (ofUpdates others).Agrees (ofUpdates updates)) ∧
      (∀ store ids, ofStore store ids = ofUpdates (ids.map fun id => (id, store.file? id)) ∧
        (ofStore store ids).Scans fun id => if id ∈ ids then store.classDef? id else none) ∧
      ∀ store index, Upkeep store index [] → index.Scans store.classDef? := by
  have hscans := fun us => (records_ofUpdates us).scans
  refine ⟨hscans updates, fun others hsame => ?_, fun store ids =>
    ⟨ofStore_eq store ids, (records_ofStore store ids).scans⟩,
    fun store index h => h.records_current.scans⟩
  have htable : lastClasses others = lastClasses updates := by
    funext id
    rw [lastClasses, lastClasses, hsame]
  exact (htable ▸ hscans others).agrees (hscans updates)

/-- File 0 is renamed from class A to a name that is none and keeps two methods with one signature.
The index that was only given the last sources, in another order, gives the same answers; so does a
store in which the same was done. -/
theorem answers_of_updates_renamed : ∃ (index : SymbolIndex) (store : Store),
    index.Agrees (ofUpdates
      [(⟨0⟩, some ⟨"a", "", .smali ⟨"A", ⟨0, 9⟩, [⟨"g", "()V", ⟨0, 9⟩, []⟩]⟩⟩),
      (⟨1⟩, some ⟨"b", "", .smali ⟨"LA;", ⟨0, 9⟩, [⟨"f", "()V", ⟨0, 9⟩, []⟩]⟩⟩),
      (⟨0⟩, some ⟨"a", "", .smali ⟨"A;", ⟨0, 9⟩,
        [⟨"f", "()V", ⟨0, 3⟩, []⟩, ⟨"f", "()V", ⟨3, 9⟩, []⟩]⟩⟩)]) ∧
    index.Scans store.classDef? ∧
    index.classesByName "A" .project = [⟨⟨1⟩, "A"⟩] ∧
    index.methodsBySignature "g()V" .project = [] ∧
    index.methodsBySignature "f()V" .project =
      [⟨⟨0⟩, 0, "f()V"⟩, ⟨⟨0⟩, 1, "f()V"⟩, ⟨⟨1⟩, 0, "f()V"⟩] := by
  have hrun := Upkeep.start
    |>.insert ⟨"a", "", .smali ⟨"A", ⟨0, 9⟩, [⟨"g", "()V", ⟨0, 9⟩, []⟩]⟩⟩
    |>.insert ⟨"b", "", .smali ⟨"LA;", ⟨0, 9⟩, [⟨"f", "()V", ⟨0, 9⟩, []⟩]⟩⟩
    |>.set ⟨0⟩ ⟨"a", "", .smali ⟨"A;", ⟨0, 9⟩,
      [⟨"f", "()V", ⟨0, 3⟩, []⟩, ⟨"f", "()V", ⟨3, 9⟩, []⟩]⟩⟩
    |>.reindex ⟨1⟩ |>.reindex ⟨0⟩
  refine ⟨_, _, (answers_of_updates _).2.1
    [(⟨1⟩, some ⟨"b", "", .smali ⟨"LA;", ⟨0, 9⟩, [⟨"f", "()V", ⟨0, 9⟩, []⟩]⟩⟩),
      (⟨0⟩, some ⟨"a", "", .smali ⟨"A;", ⟨0, 9⟩,
        [⟨"f", "()V", ⟨0, 3⟩, []⟩, ⟨"f", "()V", ⟨3, 9⟩, []⟩]⟩⟩)] ?_,
    (answers_of_updates []).2.2.2 _ _ hrun, ?_, ?_, ?_⟩
  · intro id
    by_cases h0 : id = ⟨0⟩
    · subst h0
      decide +kernel
    · by_cases h1 : id = ⟨1⟩
      · subst h1
        decide +kernel
      · simp [lastSource?, Ne.symm h0, Ne.symm h1]
  · decide +kernel
  · decide +kernel
  · decide +kernel

end SymbolIndex

end DebugMap
