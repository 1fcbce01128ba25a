import DebugMap.Proofs.Index.Upkeep
import DebugMap.Proofs.Query.Result

/-!
# A location is shown as a scan of the store would show it

`Store.scanPosition` looks a location up without an index and without machine arithmetic: the
lowest file that defines the class, in it the first method with the signature, in that the first
instruction at or past the code offset. Main statement: `sourcePosition_eq_scan` (with an index
that was told of every change, a query comes to just that). Its parts are
`MethodSite.positionAt_eq` (a product that does not fit in 64 bits lies past every instruction)
and `chosenClass?_indexed`, `chosenSite?_indexed` (the first candidate of each kind that holds).
-/

set_option autoImplicit false

namespace DebugMap

open Smali

/-! ## Code offsets without a bound -/

/-- The first instruction of a method at or past a code offset, however large. -/
def Smali.Method.instructionFrom? (m : Method) (codeOffset : Nat) : Option (Nat × Instruction) :=
  first? (fun x => codeOffset ≤ x.codeOffset.toNat) m.instructions

def Config.fullOffset (config : Config) (codeIndex : UInt64) : Nat :=
  codeIndex.toNat * config.codeUnitBytes.toNat

theorem Smali.Method.instructionAtCodeOffset?_eq (m : Method) (codeOffset : UInt64) :
    m.instructionAtCodeOffset? codeOffset = m.instructionFrom? codeOffset.toNat := by
  unfold instructionAtCodeOffset? instructionFrom?
  simp only [UInt64.le_iff_toNat_le]

theorem Smali.Method.instructionFrom?_eq_none (m : Method) {codeOffset : Nat}
    (h : UInt64.size ≤ codeOffset) : m.instructionFrom? codeOffset = none := by
  refine first?_eq_none_iff.2 fun x _ => ?_
  have := x.codeOffset.toNat_lt_size
  rw [decide_eq_false_iff_not]
  omega

/-- **The 64-bit check changes no position:** where the code offset does not fit, there is no
instruction either. An error tells the code offset, or the largest number where it does not fit. -/
theorem MethodSite.positionAt_eq (site : MethodSite) (config : Config) (codeIndex : UInt64) :
    site.positionAt config codeIndex =
      match site.method.instructionFrom? (config.fullOffset codeIndex) with
      | none =>
        .error (.noMapping (.noInstruction site.method.signature
          (UInt64.ofNat (min (config.fullOffset codeIndex) (UInt64.size - 1)))))
      | some (index, x) =>
        .ok
          { file := site.symbol.file
            offset := x.range.start
            line := site.file.lines.lineOf x.range.start
            element := .instruction site.symbol.method index } := by
  unfold positionAt
  cases hoffset : config.codeOffset? codeIndex with
  | none =>
    have hlarge : UInt64.size ≤ config.fullOffset codeIndex :=
      Config.codeOffset?_eq_none_iff.1 hoffset
    rw [site.method.instructionFrom?_eq_none hlarge, Nat.min_eq_right (by omega)]
  | some codeOffset =>
    have hnat : codeOffset.toNat = config.fullOffset codeIndex :=
      Config.toNat_of_codeOffset? hoffset
    have hfits : config.fullOffset codeIndex ≤ UInt64.size - 1 := by
      have := codeOffset.toNat_lt_size
      omega
    have hword :
        UInt64.ofNat (min (config.fullOffset codeIndex) (UInt64.size - 1)) = codeOffset := by
      rw [Nat.min_eq_left hfits, ← hnat, UInt64.ofNat_toNat]
    rw [hword, ← hnat]
    rcases hx : site.method.instructionFrom? codeOffset.toNat with _ | ⟨index, x⟩ <;>
      simp only [Method.instructionAtCodeOffset?_eq, hx]

/-! ## The scan -/

def SourceFile.definesClass (file : SourceFile) (name : String) : Bool :=
  file.classDef?.bind ClassDef.qualifiedName? = some name

def SourceFile.method? (file : SourceFile) (signature : String) : Option (Nat × Method) :=
  file.classDef?.bind fun c => first? (fun m => m.signature = signature) c.methods

/-- **The position of a location by a scan** of the store, for a class of this binary name: the
first file listed that defines it, the first method with the signature there, and the first
instruction of that at or past the code offset. -/
def Store.scanPosition (store : Store) (config : Config) (name : String)
    (location : RuntimeLocation) : Outcome FilePosition :=
  match store.files.find? fun entry => entry.2.definesClass name with
  | none => .error (.noMapping (.unknownType name))
  | some (id, file) =>
    match file.method? location.signature with
    | none => .error (.noMapping (.unknownMethod name location.signature))
    | some (k, m) =>
      let codeOffset := config.fullOffset location.codeIndex
      match m.instructionFrom? codeOffset with
      | none =>
        .error (.noMapping (.noInstruction location.signature
          (UInt64.ofNat (min codeOffset (UInt64.size - 1)))))
      | some (index, x) =>
        .ok
          { file := id
            offset := x.range.start
            line := file.lines.lineOf x.range.start
            element := .instruction k index }

theorem SourceFile.definesClass_iff {file : SourceFile} {name : String} :
    file.definesClass name = true ↔
      ∃ c, file.classDef? = some c ∧ c.qualifiedName? = some name := by
  rw [definesClass, decide_eq_true_iff, Option.bind_eq_some_iff]

theorem SourceFile.method?_eq_some_iff {file : SourceFile} {signature : String} {k : Nat}
    {m : Method} :
    file.method? signature = some (k, m) ↔
      ∃ c, file.classDef? = some c ∧ c.methods[k]? = some m ∧ m.signature = signature ∧
        ∀ j other, j < k → c.methods[j]? = some other → other.signature ≠ signature := by
  simp only [method?, Option.bind_eq_some_iff, first?_eq_some_iff, decide_eq_true_iff,
    decide_eq_false_iff_not, ne_eq]

theorem Store.defines_iff {store : Store} {name : String} {id : FileId} :
    ClassTable.Defines store.classDef? name id ↔
      ∃ file, store.file? id = some file ∧ file.definesClass name = true := by
  unfold ClassTable.Defines Store.classDef?
  simp only [Option.bind_eq_some_iff, SourceFile.definesClass_iff]
  constructor
  · rintro ⟨c, ⟨file, hfile, hc⟩, hname⟩
    exact ⟨file, hfile, c, hc, hname⟩
  · rintro ⟨file, hfile, c, hc, hname⟩
    exact ⟨c, ⟨file, hfile, hc⟩, hname⟩

theorem Store.definesClass_iff {store : Store} {name : String} {s : ClassSymbol} :
    store.definesClass name s = true ↔ ClassTable.Defines store.classDef? name s.file := by
  unfold Store.definesClass ClassTable.Defines
  cases store.classDef? s.file <;> simp

/-! ## The first candidates of an index -/

namespace Query.Surroundings

variable {store : Store} {index : SymbolIndex} {process : Process}

theorem chosenClass?_indexed (h : index.Records store.classDef?) (ho : store.Ordered)
    {name : String} (hname : ClassName.binary? name = some name) :
    (indexed store index process).chosenClass? name =
      (store.files.find? fun entry => entry.2.definesClass name).map fun entry =>
        ⟨entry.1, name⟩ := by
  have hscan := (h.classesByName name .project).filter (store.definesClass name)
  show ((index.classesByName name .project).filter (store.definesClass name)).head? = _
  cases hfind : store.files.find? fun entry => entry.2.definesClass name with
  | none =>
    have hnone := (ho.find?_eq_none_iff (·.definesClass name)).1 hfind
    refine hscan.head?_eq_none_iff.2 fun s hs => ?_
    obtain ⟨file, hfile, hdef⟩ := Store.defines_iff.1 (Store.definesClass_iff.1 hs.2)
    rw [hnone s.file file hfile] at hdef
    cases hdef
  | some entry =>
    obtain ⟨id, file⟩ := entry
    obtain ⟨⟨hfile, hdef⟩, hleast⟩ := (ho.find?_eq_some_iff (·.definesClass name)).1 hfind
    have hdefines := Store.defines_iff.2 ⟨file, hfile, hdef⟩
    refine hscan.head?_eq_some_iff.2
      ⟨⟨⟨rfl, hname, hdefines⟩, Store.definesClass_iff.2 hdefines⟩, fun s hs => ?_⟩
    obtain ⟨f, hf, hdef'⟩ := Store.defines_iff.1 (Store.definesClass_iff.1 hs.2)
    refine (hleast s.file f hf hdef').imp_left fun hid => ?_
    obtain ⟨i, n⟩ := s
    obtain rfl : i = id := hid
    obtain rfl : name = n := Option.some.inj (hname.symm.trans hs.1.2.1)
    rfl

theorem head?_methodsBySignature (h : index.Records store.classDef?) {id : FileId}
    {file : SourceFile} (hfile : store.file? id = some file) (signature : String) :
    (index.methodsBySignature signature (.file id)).head? =
      (file.method? signature).map fun found => ⟨id, found.1, signature⟩ := by
  have hscan := h.methodsBySignature signature (.file id)
  have hfound : ∀ s, ClassTable.FoundMethod store.classDef? signature (.file id) s ↔
      s.file = id ∧ s.signature = signature ∧ ∃ c m, file.classDef? = some c ∧
        c.methods[s.method]? = some m ∧ m.signature = signature := fun s => by
    unfold ClassTable.FoundMethod ClassTable.Declares
    rw [SearchScope.contains, decide_eq_true_iff, eq_comm (a := id)]
    refine and_congr_right fun hid => ?_
    simp only [MethodSymbol.place, hid, Store.classDef?, hfile, Option.bind_some]
  cases hm : file.method? signature with
  | none =>
    refine hscan.head?_eq_none_iff.2 fun s hs => ?_
    obtain ⟨-, -, c, m, hc, hmethod, hsig⟩ := (hfound s).1 hs
    rw [SourceFile.method?, hc, Option.bind_some, first?_eq_none_iff] at hm
    simpa [hsig] using hm m (List.mem_of_getElem? hmethod)
  | some found =>
    obtain ⟨k, m⟩ := found
    obtain ⟨c, hc, hmethod, hsig, hbefore⟩ := SourceFile.method?_eq_some_iff.1 hm
    refine hscan.head?_eq_some_iff.2
      ⟨(hfound _).2 ⟨rfl, rfl, c, m, hc, hmethod, hsig⟩, fun s hs => ?_⟩
    obtain ⟨i, j, sig⟩ := s
    obtain ⟨rfl, rfl, c', m', hc', hmethod', hsig'⟩ := (hfound _).1 hs
    obtain rfl : c = c' := Option.some.inj (hc.symm.trans hc')
    rcases Nat.lt_trichotomy j k with hj | rfl | hj
    · exact absurd hsig' (hbefore j m' hj hmethod')
    · exact .inl rfl
    · exact .inr (.inr ⟨rfl, hj⟩)

theorem chosenSite?_indexed (h : index.Records store.classDef?) {id : FileId} {file : SourceFile}
    (hfile : store.file? id = some file) (signature : String) :
    (indexed store index process).chosenSite? signature id =
      (file.method? signature).map fun found => ⟨⟨id, found.1, signature⟩, file, found.2⟩ := by
  have hhead := head?_methodsBySignature h hfile signature
  show ((index.methodsBySignature signature (.file id)).filterMap
    (store.methodSite? signature)).head? = _
  cases hm : file.method? signature with
  | none =>
    rw [hm, Option.map_none, List.head?_eq_none_iff] at hhead
    rw [hhead]
    rfl
  | some found =>
    obtain ⟨k, m⟩ := found
    obtain ⟨c, hc, hmethod, hsig, -⟩ := SourceFile.method?_eq_some_iff.1 hm
    rw [hm, Option.map_some, List.head?_eq_some_iff] at hhead
    obtain ⟨rest, hlist⟩ := hhead
    -- The first candidate holds, so none after it is looked at.
    have hsite : store.methodSite? signature ⟨id, k, signature⟩ =
        some ⟨⟨id, k, signature⟩, file, m⟩ :=
      Store.methodSite?_eq_some_iff.2
        ⟨file, m, hfile, SourceFile.methodAt?_eq_some_iff.2 ⟨c, hc, hmethod⟩, hsig, rfl⟩
    rw [hlist, List.filterMap_cons_some hsite]
    rfl

/-- **A query comes to what a scan finds.** -/
theorem result_sourcePosition_indexed (h : index.Records store.classDef?) (ho : store.Ordered)
    {location : RuntimeLocation} {name : String}
    (hlocation : ClassName.binary? location.declaringType = some name)
    (hname : ClassName.binary? name = some name) (config : Config) :
    (indexed store index process).result (sourcePosition config location) =
      store.scanPosition config name location := by
  rw [result_sourcePosition, hlocation]
  dsimp only
  rw [chosenClass?_indexed h ho hname, Store.scanPosition]
  cases hfind : store.files.find? fun entry => entry.2.definesClass name with
  | none => rfl
  | some entry =>
    obtain ⟨id, file⟩ := entry
    have hfile := ((ho.find?_eq_some_iff (·.definesClass name)).1 hfind).1.1
    dsimp only [Option.map_some]
    rw [chosenSite?_indexed h hfile]
    cases hm : file.method? location.signature with
    | none => rfl
    | some found =>
      obtain ⟨k, m⟩ := found
      obtain ⟨c, -, -, hsig, -⟩ := SourceFile.method?_eq_some_iff.1 hm
      dsimp only [Option.map_some]
      rw [MethodSite.positionAt_eq, ← hsig]

/-- **With an index that was told of every change**, a location is shown as a scan of the store
shows it, files by increasing id: the errors are the scan's, and a code offset that does not fit
in 64 bits is past all instructions. -/
theorem sourcePosition_eq_scan (h : Upkeep store index []) (process : Process) (config : Config)
    (location : RuntimeLocation) {name : String}
    (hlocation : ClassName.binary? location.declaringType = some name)
    (hname : ClassName.binary? name = some name) :
    (indexed store index process).result (sourcePosition config location) =
        store.scanPosition config name location ∧
      store.ids.Pairwise (· < ·) ∧
      (config.codeOffset? location.codeIndex = none →
        ∀ m : Method, m.instructionFrom? (config.fullOffset location.codeIndex) = none) := by
  refine ⟨result_sourcePosition_indexed h.records_current h.ordered hlocation hname config,
    h.ordered.increasing, fun hlarge m => ?_⟩
  exact m.instructionFrom?_eq_none (Config.codeOffset?_eq_none_iff.1 hlarge)

/-- Two files define class A. The lower one was edited after it was first indexed, and the method
`g` is in the higher one alone. -/
theorem sourcePosition_eq_scan_twins : ∃ store index, Upkeep store index [] ∧
    store.ids = [⟨0⟩, ⟨1⟩] ∧
    (∀ process : Process,
      (indexed store index process).result
          (sourcePosition {} ⟨⟨7⟩, "LA;", "f", "()V", 1⟩) =
        .ok ⟨⟨0⟩, 5, 2, .instruction 1 1⟩ ∧
      (indexed store index process).result
          (sourcePosition {} ⟨⟨7⟩, "LA;", "f", "()V", 0x8000000000000000⟩) =
        .error (.noMapping (.noInstruction "f()V" 0xFFFFFFFFFFFFFFFF)) ∧
      (indexed store index process).result
          (sourcePosition {} ⟨⟨7⟩, "LA;", "g", "()V", 0⟩) =
        .error (.noMapping (.unknownMethod "A" "g()V"))) := by
  have hrun := Upkeep.start
    |>.insert ⟨"a", "", .smali ⟨"LB;", ⟨0, 4⟩, [⟨"g", "()V", ⟨0, 4⟩, [⟨⟨0, 4⟩, 0⟩]⟩]⟩⟩
    |>.reindex ⟨0⟩
    |>.insert ⟨"b", "", .smali ⟨"A", ⟨0, 4⟩, [⟨"g", "()V", ⟨0, 4⟩, [⟨⟨0, 4⟩, 0⟩]⟩]⟩⟩
    |>.set ⟨0⟩ ⟨"a", "nop.\nnop.\nend.", .smali ⟨"LA;", ⟨0, 14⟩, [⟨"h", "()V", ⟨10, 14⟩, []⟩,
      ⟨"f", "()V", ⟨0, 9⟩, [⟨⟨0, 4⟩, 0⟩, ⟨⟨5, 9⟩, 2⟩]⟩]⟩⟩
    |>.reindex ⟨1⟩ |>.reindex ⟨0⟩
  have hspelled : ClassName.binary? "LA;" = some "A" := rfl
  have hname : ClassName.binary? "A" = some "A" := rfl
  have hscan := fun (process : Process) (name : String) codeIndex =>
    (sourcePosition_eq_scan hrun process {} ⟨⟨7⟩, "LA;", name, "()V", codeIndex⟩ hspelled hname).1
  refine ⟨_, _, hrun, rfl, fun process => ⟨?_, ?_, ?_⟩⟩
  · rw [hscan]
    decide +kernel
  · rw [hscan]
    decide +kernel
  · rw [hscan]
    decide +kernel

end Query.Surroundings

end DebugMap
