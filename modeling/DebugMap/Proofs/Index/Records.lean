import DebugMap.Proofs.Index.Entries
import Mathlib.Logic.Function.Basic

/-!
# What an index records

A `ClassTable` says which class each file defines. An index `Records` a table when it has, under
each class name and each signature, exactly the files and the places that the table has there, and
knows the keys of each file. That is what makes the removal of a file complete: every entry of the
file stands under one of its recorded keys (`Records.remove`). Main statement: `Records.update`
(to index a file anew changes the table at that file alone). The answers of an index are then read
off its table (`Records.classesByName`, `Records.methodsBySignature`, `Records.isEmpty_iff`).
-/

set_option autoImplicit false

namespace DebugMap

open Smali

def ClassSymbol.Before (a b : ClassSymbol) : Prop :=
  a.file < b.file

instance : Std.Asymm ClassSymbol.Before where
  asymm a b := asymm_of (· < ·) (a := a.file) (b := b.file)

def MethodSymbol.place (s : MethodSymbol) : MethodPlace :=
  ⟨s.file, s.method⟩

def MethodSymbol.Before (a b : MethodSymbol) : Prop :=
  a.place < b.place

instance : Std.Asymm MethodSymbol.Before where
  asymm a b := asymm_of (· < ·) (a := a.place) (b := b.place)

abbrev ClassTable : Type := FileId → Option ClassDef

namespace ClassTable

def Defines (t : ClassTable) (name : String) (id : FileId) : Prop :=
  ∃ c, t id = some c ∧ c.qualifiedName? = some name

def Declares (t : ClassTable) (key : String) (place : MethodPlace) : Prop :=
  ∃ c m, t place.file = some c ∧ c.methods[place.method]? = some m ∧ m.signature = key

instance (t : ClassTable) (name : String) (id : FileId) : Decidable (t.Defines name id) :=
  decidable_of_iff ((t id).bind ClassDef.qualifiedName? = some name) Option.bind_eq_some_iff

instance (t : ClassTable) (key : String) (place : MethodPlace) : Decidable (t.Declares key place) :=
  decidable_of_iff
    (((t place.file).bind fun c => c.methods[place.method]?).map Method.signature = some key)
    (by simp [Declares, Option.bind_eq_some_iff])

/-- What a scan for a class name finds, the name being in any spelling: the files of the scope that
define the class. -/
def FoundClass (t : ClassTable) (query : String) (scope : SearchScope) (s : ClassSymbol) : Prop :=
  scope.contains s.file = true ∧ ClassName.binary? query = some s.name ∧ t.Defines s.name s.file

def FoundMethod (t : ClassTable) (key : String) (scope : SearchScope) (s : MethodSymbol) : Prop :=
  scope.contains s.file = true ∧ s.signature = key ∧ t.Declares key s.place

variable {t : ClassTable} {name key : String} {id i : FileId} {place : MethodPlace}

theorem defines_update_none :
    Defines (Function.update t id none) name i ↔ t.Defines name i ∧ i ≠ id := by
  unfold Defines
  by_cases hi : i = id
  · subst hi
    simp
  · simp [hi]

theorem declares_update_none :
    Declares (Function.update t id none) key place ↔ t.Declares key place ∧ place.file ≠ id := by
  unfold Declares
  by_cases hi : place.file = id
  · simp [hi]
  · simp [hi]

theorem defines_update_some (hfree : t id = none) {c : ClassDef} :
    Defines (Function.update t id (some c)) name i ↔
      i = id ∧ c.qualifiedName? = some name ∨ t.Defines name i := by
  unfold Defines
  by_cases hi : i = id
  · subst hi
    simp [hfree]
  · simp [hi]

theorem declares_update_some (hfree : t id = none) {c : ClassDef} :
    Declares (Function.update t id (some c)) key place ↔
      t.Declares key place ∨
        place.file = id ∧ ∃ m, c.methods[place.method]? = some m ∧ m.signature = key := by
  unfold Declares
  by_cases hi : place.file = id
  · simp [hi, hfree]
  · simp [hi]

end ClassTable

def FileKeys.ofClass (c : ClassDef) : FileKeys :=
  ⟨c.qualifiedName?, c.methods.map Method.signature⟩

namespace Postings

variable {α : Type}

theorem get_foldl_erase (keys : List String) (gone : α → Bool) (p : Postings α) (key : String) :
    (keys.foldl (fun p k => p.erase k gone) p).get key =
      if key ∈ keys then (p.get key).filter fun x => !gone x else p.get key := by
  induction keys generalizing p with
  | nil => simp
  | cons k rest ih =>
    rw [List.foldl_cons, ih, get_erase]
    by_cases hk : key = k
    · subst hk
      simp
    · simp [hk]

end Postings

namespace SymbolIndex

/-- **The index holds the entries of a table** and no others. -/
structure Records (index : SymbolIndex) (t : ClassTable) : Prop where
  keys : ∀ id, index.files.lookup id = (t id).map FileKeys.ofClass
  classes : ∀ name, Enumerates (· < ·) (t.Defines name) (index.classes.get name)
  methods : ∀ key, Enumerates (· < ·) (t.Declares key) (index.methods.get key)

variable {index : SymbolIndex} {t : ClassTable}

theorem records_empty : Records {} fun _ => none where
  keys _ := rfl
  classes _ := .nil fun _ ⟨_, h, _⟩ => by cases h
  methods _ := .nil fun _ ⟨_, _, h, _⟩ => by cases h

/-! ## Taking a file out -/

section
variable {id : FileId} {keys : FileKeys}

theorem lookup_remove (index : SymbolIndex) (id i : FileId) :
    (index.remove id).files.lookup i = if i = id then none else index.files.lookup i := by
  unfold SymbolIndex.remove
  cases hk : index.files.lookup id with
  | none =>
    by_cases hi : i = id
    · rw [if_pos hi, hi, hk]
    · rw [if_neg hi]
  | some keys => exact lookup_filter_ne index.files id i

theorem get_classes_remove (h : index.files.lookup id = some keys) (name : String) :
    (index.remove id).classes.get name =
      if keys.className = some name then (index.classes.get name).filter (· ≠ id)
      else index.classes.get name := by
  unfold SymbolIndex.remove
  rw [h]
  cases hn : keys.className with
  | none => simp [hn]
  | some own =>
    simp only [hn, Postings.get_erase, Option.some_inj]
    by_cases ho : name = own
    · subst ho
      simp
    · rw [if_neg ho, if_neg (Ne.symm ho)]

theorem get_methods_remove (h : index.files.lookup id = some keys) (key : String) :
    (index.remove id).methods.get key =
      if key ∈ keys.signatures then (index.methods.get key).filter (·.file ≠ id)
      else index.methods.get key := by
  unfold SymbolIndex.remove
  rw [h]
  simp only [Postings.get_foldl_erase, decide_not]

end

/-- Every entry of a file stands under one of its keys, so none is left behind. -/
theorem Records.remove (h : index.Records t) (id : FileId) :
    (index.remove id).Records (Function.update t id none) := by
  have hkeys := h.keys id
  cases hc : t id with
  | none =>
    have hsame : index.remove id = index := by
      rw [hc, Option.map_none] at hkeys
      unfold SymbolIndex.remove
      rw [hkeys]
    rw [hsame, ← hc, Function.update_eq_self]
    exact h
  | some c =>
    rw [hc, Option.map_some] at hkeys
    refine ⟨fun i => ?_, fun name => ?_, fun key => ?_⟩
    · rw [lookup_remove, h.keys]
      by_cases hi : i = id
      · simp [hi]
      · rw [if_neg hi, Function.update_of_ne hi]
    · rw [get_classes_remove hkeys]
      split_ifs with hown
      · exact ((h.classes name).filter _).congr fun i => by
          rw [ClassTable.defines_update_none, decide_eq_true_iff]
      · -- The file is recorded under another name, so it has no entry here.
        refine (h.classes name).congr fun i => ?_
        rw [ClassTable.defines_update_none]
        refine ⟨fun hi => ⟨hi, ?_⟩, And.left⟩
        rintro rfl
        obtain ⟨c', hc', hname⟩ := hi
        rw [hc, Option.some_inj] at hc'
        exact hown (hc' ▸ hname)
    · rw [get_methods_remove hkeys]
      split_ifs with hown
      · exact ((h.methods key).filter _).congr fun place => by
          rw [ClassTable.declares_update_none, decide_eq_true_iff]
      · refine (h.methods key).congr fun place => ?_
        rw [ClassTable.declares_update_none]
        refine ⟨fun hp => ⟨hp, ?_⟩, And.left⟩
        rintro rfl
        obtain ⟨c', m, hc', hm, rfl⟩ := hp
        rw [hc, Option.some_inj] at hc'
        subst hc'
        exact hown (List.mem_map_of_mem (List.mem_of_getElem? hm))

/-! ## Filing a class -/

section
variable {id : FileId} {source : SourceFile} {c : ClassDef}

theorem get_classes_add (h : source.classDef? = some c) (id : FileId) (name : String) :
    (index.add id source).classes.get name =
      if c.qualifiedName? = some name then insertSorted id (index.classes.get name)
      else index.classes.get name := by
  unfold SymbolIndex.add
  rw [h]
  cases hn : c.qualifiedName? with
  | none => simp [hn]
  | some own =>
    simp only [hn, Postings.get_insert, Option.some_inj]
    by_cases ho : name = own
    · subst ho
      simp
    · rw [if_neg ho, if_neg (Ne.symm ho)]

theorem enumerates_addMethods {p : Postings MethodPlace} {key : String}
    {before : MethodPlace → Prop} (h : Enumerates (· < ·) before (p.get key)) (id : FileId)
    (start : Nat) (ms : List Method) :
    Enumerates (· < ·)
      (fun place => before place ∨ place.file = id ∧
        ∃ j m, place.method = start + j ∧ ms[j]? = some m ∧ m.signature = key)
      ((addMethods id start ms p).get key) := by
  -- Each method is filed on top of those before it, so `before` grows along the list.
  induction ms generalizing start p before with
  | nil => exact h.congr (by simp)
  | cons m rest ih =>
    have hfirst : Enumerates (· < ·)
        (fun place => m.signature = key ∧ place = ⟨id, start⟩ ∨ before place)
        ((p.insert m.signature ⟨id, start⟩).get key) := by
      rw [Postings.get_insert]
      by_cases hk : key = m.signature
      · subst hk
        rw [if_pos rfl]
        exact (h.insertSorted _).congr (by simp)
      · rw [if_neg hk]
        exact h.congr fun place => by simp [Ne.symm hk]
    refine (ih hfirst (start + 1)).congr fun place => ?_
    constructor
    · rintro ((⟨hk, rfl⟩ | hp) | ⟨hf, j, m', hj, hm', hk⟩)
      · exact .inr ⟨rfl, 0, m, rfl, rfl, hk⟩
      · exact .inl hp
      · exact .inr ⟨hf, j + 1, m', by omega, by simpa using hm', hk⟩
    · rintro (hp | ⟨hf, j, m', hj, hm', hk⟩)
      · exact .inl (.inr hp)
      · cases j with
        | zero =>
          obtain rfl : m = m' := by simpa using hm'
          obtain ⟨f, n⟩ := place
          obtain rfl : n = start := hj
          exact .inl (.inl ⟨hk, by rw [show f = id from hf]⟩)
        | succ j => exact .inr ⟨hf, j, m', by omega, by simpa using hm', hk⟩

end

theorem Records.add (h : index.Records t) {id : FileId} (hfree : t id = none)
    (source : SourceFile) :
    (index.add id source).Records (Function.update t id source.classDef?) := by
  cases hc : source.classDef? with
  | none =>
    have hsame : index.add id source = index := by
      unfold SymbolIndex.add
      rw [hc]
    rw [hsame, ← hfree, Function.update_eq_self]
    exact h
  | some c =>
    refine ⟨fun i => ?_, fun name => ?_, fun key => ?_⟩
    · have hfiles : (index.add id source).files = (id, FileKeys.ofClass c) :: index.files := by
        unfold SymbolIndex.add
        rw [hc]
        rfl
      rw [hfiles, lookup_row, h.keys]
      by_cases hi : i = id
      · simp [hi]
      · rw [if_neg hi, Function.update_of_ne hi]
    · rw [get_classes_add hc]
      split_ifs with hown
      · exact ((h.classes name).insertSorted id).congr fun i => by
          rw [ClassTable.defines_update_some hfree, and_iff_left hown]
      · exact (h.classes name).congr fun i => by
          rw [ClassTable.defines_update_some hfree, or_iff_right fun hi => hown hi.2]
    · have hmethods : (index.add id source).methods = addMethods id 0 c.methods index.methods := by
        unfold SymbolIndex.add
        rw [hc]
      rw [hmethods]
      refine (enumerates_addMethods (h.methods key) id 0 c.methods).congr fun place => ?_
      rw [ClassTable.declares_update_some hfree]
      refine or_congr_right (and_congr_right fun _ => ?_)
      constructor
      · rintro ⟨j, m, hj, hm, hk⟩
        rw [Nat.zero_add] at hj
        exact ⟨m, hj ▸ hm, hk⟩
      · rintro ⟨m, hm, hk⟩
        exact ⟨_, m, (Nat.zero_add _).symm, hm, hk⟩

/-- **To index a file anew** changes the table at that file alone. -/
theorem Records.update (h : index.Records t) (id : FileId) (source : Option SourceFile) :
    (index.update id source).Records
      (Function.update t id (source.bind SourceFile.classDef?)) := by
  cases source with
  | none => exact h.remove id
  | some file =>
    have hremoved := h.remove id
    have hadded := hremoved.add (Function.update_self id none t) file
    rw [Function.update_idem] at hadded
    exact hadded

/-! ## Answers -/

theorem Records.isEmpty_iff (h : index.Records t) : index.isEmpty = true ↔ ∀ id, t id = none := by
  have hnone : ∀ id, t id = none ↔ index.files.lookup id = none := fun id => by
    rw [h.keys, Option.map_eq_none_iff]
  simp only [hnone, SymbolIndex.isEmpty, List.isEmpty_iff]
  refine ⟨fun he id => by rw [he]; rfl, fun hlookup => ?_⟩
  cases hfiles : index.files with
  | nil => rfl
  | cons row rest =>
    have hrow := hlookup row.1
    rw [hfiles, lookup_row, if_pos rfl] at hrow
    cases hrow

/-- **An index answers** a class name with what a scan of its table finds. -/
theorem Records.classesByName (h : index.Records t) (query : String) (scope : SearchScope) :
    Enumerates ClassSymbol.Before (t.FoundClass query scope)
      (index.classesByName query scope) := by
  unfold SymbolIndex.classesByName
  cases hq : ClassName.binary? query with
  | none => exact .nil fun s hs => by rw [ClassTable.FoundClass, hq] at hs; cases hs.2.1
  | some name =>
    have hmap : Enumerates ClassSymbol.Before _
        (((index.classes.get name).filter scope.contains).map fun id => ⟨id, name⟩) :=
      ((h.classes name).filter scope.contains).map _ fun _ _ hlt => hlt
    refine hmap.congr fun s => ?_
    rw [ClassTable.FoundClass, hq, Option.some_inj]
    constructor
    · rintro ⟨id, ⟨hdef, hscope⟩, rfl⟩
      exact ⟨hscope, rfl, hdef⟩
    · rintro ⟨hscope, rfl, hdef⟩
      exact ⟨s.file, ⟨hdef, hscope⟩, rfl⟩

/-- **An index answers** a signature with what a scan of its table finds. -/
theorem Records.methodsBySignature (h : index.Records t) (key : String) (scope : SearchScope) :
    Enumerates MethodSymbol.Before (t.FoundMethod key scope)
      (index.methodsBySignature key scope) := by
  have hmap : Enumerates MethodSymbol.Before _ (index.methodsBySignature key scope) :=
    ((h.methods key).filter fun place => scope.contains place.file).map _ fun _ _ hlt => hlt
  refine hmap.congr fun s => ?_
  constructor
  · rintro ⟨place, ⟨hdecl, hscope⟩, rfl⟩
    exact ⟨hscope, rfl, hdecl⟩
  · rintro ⟨hscope, rfl, hdecl⟩
    exact ⟨s.place, ⟨hdecl, hscope⟩, rfl⟩

end SymbolIndex

end DebugMap
