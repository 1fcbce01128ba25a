import DebugMap.Proofs.Query.Candidates
import DebugMap.Proofs.Smali.WellFormed

/-!
# From a location to its position and back

In a well-formed class, a position that is shown for a location leads back to that location, and a
location that is given for a position is shown at the instruction there. Main statements:
`locations_of_shown` (a stop and the locations of the position where it is shown) and
`shown_of_location` (a breakpoint and the position where a stop at it is shown).

Code indices count whole code units, and `Config.le_codeIndex_iff` is all that has to be known of
them: multiplying up one way and dividing down the other are adjoint. So an index loses nothing on
the way to the first instruction at or past it, except where the instruction starts later.
-/

set_option autoImplicit false

namespace DebugMap

open Smali

/-! ## Code indices and instructions -/

theorem Config.le_codeIndex_iff (config : Config) {codeIndex codeOffset : UInt64} :
    codeIndex ≤ config.codeIndex codeOffset ↔ config.fullOffset codeIndex ≤ codeOffset.toNat := by
  have hpos : 0 < config.codeUnitBytes.toNat := config.codeUnitBytes_pos
  rw [UInt64.le_iff_toNat_le, config.toNat_codeIndex, Nat.le_div_iff_mul_le hpos, fullOffset]

theorem Config.codeIndex_le (config : Config) {a b : UInt64} (h : a ≤ b) :
    config.codeIndex a ≤ config.codeIndex b := by
  rw [UInt64.le_iff_toNat_le, config.toNat_codeIndex, config.toNat_codeIndex]
  exact Nat.div_le_div_right (UInt64.le_iff_toNat_le.1 h)

namespace Smali.Method

variable {m : Method} {config : Config} {codeIndex : UInt64} {i : Nat} {x : Instruction}

theorem instructionFrom?_eq_some_iff :
    m.instructionFrom? (config.fullOffset codeIndex) = some (i, x) ↔
      m.instructions[i]? = some x ∧ codeIndex ≤ config.codeIndex x.codeOffset ∧
        ∀ j y, j < i → m.instructions[j]? = some y →
          ¬ codeIndex ≤ config.codeIndex y.codeOffset := by
  simp only [instructionFrom?, first?_eq_some_iff, decide_eq_true_iff, decide_eq_false_iff_not,
    config.le_codeIndex_iff]

theorem Ascends.codeIndex_eq_iff (h : m.Ascends)
    (hx : m.instructionFrom? (config.fullOffset codeIndex) = some (i, x)) :
    config.codeIndex x.codeOffset = codeIndex ↔
      ∃ y ∈ m.instructions, config.codeIndex y.codeOffset = codeIndex := by
  obtain ⟨hi, hle, hbefore⟩ := instructionFrom?_eq_some_iff.1 hx
  refine ⟨fun heq => ⟨x, List.mem_of_getElem? hi, heq⟩, fun ⟨y, hy, heq⟩ => ?_⟩
  obtain ⟨j, hj⟩ := List.getElem?_of_mem hy
  have hxy : x.codeOffset ≤ y.codeOffset := by
    rcases Nat.lt_trichotomy j i with hji | rfl | hij
    · exact absurd (heq ▸ UInt64.le_refl codeIndex) (hbefore j y hji hj)
    · obtain rfl : x = y := Option.some.inj (hi.symm.trans hj)
      exact UInt64.le_refl _
    · exact rel_of_pairwise h hij hi hj
  exact UInt64.le_antisymm (heq ▸ config.codeIndex_le hxy) hle

/-- Where code offsets increase, the code index of an instruction that starts on a code unit leads
to it and to no other. -/
theorem StrictlyAscends.instructionFrom?_codeIndex (h : m.StrictlyAscends)
    (hi : m.instructions[i]? = some x) (hunit : config.codeUnitBytes.toNat ∣ x.codeOffset.toNat) :
    m.instructionFrom? (config.fullOffset (config.codeIndex x.codeOffset)) = some (i, x) := by
  refine instructionFrom?_eq_some_iff.2 ⟨hi, UInt64.le_refl _, fun j y hji hj hle => ?_⟩
  have hfull : config.fullOffset (config.codeIndex x.codeOffset) = x.codeOffset.toNat := by
    rw [Config.fullOffset, config.toNat_codeIndex, Nat.div_mul_cancel hunit]
  rw [config.le_codeIndex_iff, hfull] at hle
  exact absurd (rel_of_pairwise h hji hj hi) (UInt64.not_lt.2 hle)

end Smali.Method

/-! ## The code for a position -/

theorem Store.coverage_eq_coverageIn {store : Store} (config : Config) {pos : FilePosition}
    {c : ClassDef} {name : String} (hc : store.classDef? pos.file = some c)
    (hin : c.range.contains pos.offset = true) (hname : c.qualifiedName? = some name) :
    store.coverage config pos = .ok (coverageIn config c name pos.offset) := by
  obtain ⟨file, hfile, hclass⟩ := Option.bind_eq_some_iff.1 hc
  simp only [coverage, classAt, hfile, hclass, hin, if_true, ClassDef.binaryName, hname]

/-- **The code for an offset of a method** of a nested class is that of the instruction found
there. -/
theorem Store.coverage_of_nested {store : Store} (config : Config) {pos : FilePosition}
    {c : ClassDef} {name : String} {k i : Nat} {m : Method} {x : Instruction}
    (hc : store.classDef? pos.file = some c) (hnested : c.Nested)
    (hname : c.qualifiedName? = some name) (hm : c.methods[k]? = some m)
    (hin : m.range.contains pos.offset = true)
    (hx : m.instructionAtOrAfter? pos.offset = some (i, x)) :
    store.coverage config pos =
      .ok (.code ⟨name, m.name, m.descriptor, config.codeIndex x.codeOffset⟩) := by
  have hinside := hnested.inside m (List.mem_of_getElem? hm) _ hin
  rw [coverage_eq_coverageIn config hc hinside hname]
  simp only [coverageIn, hnested.methodContaining? hm hin, hx]

theorem Store.coverage_eq_code {store : Store} (config : Config) {pos : FilePosition} {c : ClassDef}
    {name : String} {k i : Nat} {m : Method} {x : Instruction}
    (hc : store.classDef? pos.file = some c) (hwf : c.WellFormed)
    (hname : c.qualifiedName? = some name) (hm : c.methods[k]? = some m)
    (hin : m.range.contains pos.offset = true)
    (hx : m.instructionAtOrAfter? pos.offset = some (i, x)) :
    store.coverage config pos =
      .ok (.code ⟨name, m.name, m.descriptor, config.codeIndex x.codeOffset⟩) :=
  coverage_of_nested config hc hwf.nested hname hm hin hx

/-! ## What is behind a position -/

/-- **What a scan shows:** in the lowest file of a class, in the first method there with the
signature, the first instruction that the code index reaches. -/
theorem Store.Ordered.scanPosition_eq_ok {store : Store} (ho : store.Ordered) (config : Config)
    {name : String} {id : FileId} {file : SourceFile} {c : ClassDef} {k i : Nat} {m : Method}
    {x : Instruction} {location : RuntimeLocation} (hfile : store.file? id = some file)
    (hc : file.classDef? = some c) (hqualified : c.qualifiedName? = some name)
    (hlowest : ∀ other, ClassTable.Defines store.classDef? name other → other = id ∨ id < other)
    (hm : c.methods[k]? = some m)
    (hfirst : ∀ j other, j < k → c.methods[j]? = some other → other.signature ≠ m.signature)
    (hsig : m.signature = location.signature)
    (hx : m.instructionFrom? (config.fullOffset location.codeIndex) = some (i, x)) :
    store.scanPosition config name location =
      .ok
        { file := id
          offset := x.range.start
          line := file.lines.lineOf x.range.start
          element := .instruction k i } := by
  have hfind : (store.files.find? fun entry => entry.2.definesClass name) = some (id, file) := by
    rw [ho.find?_eq_some_iff (·.definesClass name)]
    refine ⟨⟨hfile, SourceFile.definesClass_iff.2 ⟨c, hc, hqualified⟩⟩, ?_⟩
    intro other f hf hdefines
    exact hlowest other (Store.defines_iff.2 ⟨f, hf, hdefines⟩)
  have hmethod : file.method? location.signature = some (k, m) :=
    SourceFile.method?_eq_some_iff.2 ⟨c, hc, hm, hsig, hsig ▸ hfirst⟩
  simp only [scanPosition, hfind, hmethod, hx]

namespace Query.Surroundings

/-! ## From a stop to its position and back -/

variable {s : Surroundings} {config : Config} {location : RuntimeLocation} {pos : FilePosition}

/-- **Where a location is shown:** in a file of its class, in a method with its signature, at the
first instruction that its code index reaches. An index that is asked about one file has to keep to
it. -/
theorem shown_at (hindex : ∀ key id, ∀ symbol ∈ s.methodSymbols key (.file id), symbol.file = id)
    (h : s.result (sourcePosition config location) = .ok pos) :
    ∃ name c k m i x, ClassName.binary? location.declaringType = some name ∧
      s.store.classDef? pos.file = some c ∧ c.qualifiedName? = some name ∧
      c.methods[k]? = some m ∧ m.signature = location.signature ∧
      m.instructionFrom? (config.fullOffset location.codeIndex) = some (i, x) ∧
      pos.offset = x.range.start ∧ pos.element = .instruction k i := by
  obtain ⟨name, hname⟩ := binary?_of_result h
  obtain ⟨symbol, file, c, m, i, x, hshown⟩ :=
    (shown_iff fun id => hindex _ id).1 ((result_eq_ok_iff hname).1 h)
  exact ⟨name, c, symbol.method, m, i, x, hname, hshown.classDef?, hshown.qualifiedName,
    hshown.method, hshown.signature, hshown.instructionFrom?, hshown.offset, hshown.element⟩

/-- **A stop leads back to where it was shown from.** The position of a location in a well-formed
class has one location in each loaded type of the class that has the method, if the process has to
be asked. All are in the method of the location and at the code index of the instruction shown,
which is that of the location unless no instruction has that. -/
theorem locations_of_shown (s : Surroundings) {loadedTypes : String → List RuntimeType}
    {declares : RuntimeType → String → String → Bool}
    (hprocess : s.process = .answering loadedTypes declares)
    (hindex : ∀ key id, ∀ symbol ∈ s.methodSymbols key (.file id), symbol.file = id)
    (config : Config) {location : RuntimeLocation} {pos : FilePosition}
    (h : s.result (sourcePosition config location) = .ok pos) {c : ClassDef}
    (hc : s.store.classDef? pos.file = some c) (hwf : c.WellFormed)
    (hascends : ∀ m ∈ c.methods, m.Ascends) :
    ∃ name k m i x, ClassName.binary? location.declaringType = some name ∧
      c.methods[k]? = some m ∧ m.signature = location.signature ∧
      m.instructions[i]? = some x ∧ pos.element = .instruction k i ∧
      s.result (runtimeLocations config pos) = .ok
        (((loadedTypes name).filter fun type => ClassName.binary? type.name = some name ∧
            (config.verifyMethods = true → declares type m.name m.descriptor = true)).map
          fun type => ⟨type.id, type.name, m.name, m.descriptor, config.codeIndex x.codeOffset⟩) ∧
      (config.codeIndex x.codeOffset).toNat =
        x.codeOffset.toNat / config.codeUnitBytes.toNat ∧
      location.codeIndex ≤ config.codeIndex x.codeOffset ∧
      (config.codeIndex x.codeOffset = location.codeIndex ↔
        ∃ y ∈ m.instructions, config.codeIndex y.codeOffset = location.codeIndex) := by
  obtain ⟨name, c', k, m, i, x, hname, hc', hqualified, hm, hsig, hx, hoffset, helement⟩ :=
    shown_at hindex h
  obtain rfl : c = c' := Option.some.inj (hc.symm.trans hc')
  have hordered := hwf.ordered m (List.mem_of_getElem? hm)
  obtain ⟨hi, hle, -⟩ := Method.instructionFrom?_eq_some_iff.1 hx
  have hcover := Store.coverage_eq_code config hc hwf hqualified hm
    (hoffset ▸ hordered.contains_start hi) (hoffset ▸ hordered.instructionAtOrAfter?_start hi)
  refine ⟨name, k, m, i, x, hname, hm, hsig, hi, helement, ?_, config.toNat_codeIndex _, hle,
    (hascends m (List.mem_of_getElem? hm)).codeIndex_eq_iff hx⟩
  -- The way back runs through the text: the offset lies in `m`, and `x` is what stands there.
  rw [result_runtimeLocations, hcover, hprocess]
  show s.result (locationsIn config _ (loadedTypes name)) = _
  rw [s.result_locationsIn_answering hprocess]
  rfl

/-- Code unit 1 is inside the first instruction of `f`, so the second is shown. It is at code unit
2 of both classes A that have the method; a third has not, and the last type is no class A. The
index names `f` in every file. -/
theorem locations_of_shown_loaders : ∃ (s : Surroundings) (pos : FilePosition),
    s.result (sourcePosition {} ⟨⟨9⟩, "LA;", "f", "()V", 1⟩) = .ok pos ∧
      s.result (runtimeLocations {} pos) =
        .ok [⟨⟨1⟩, "A", "f", "()V", 2⟩, ⟨⟨2⟩, "LA;", "f", "()V", 2⟩] := by
  have hshown : Surroundings.result
      { store := ⟨[(⟨0⟩, ⟨"a", "goto\nend\n", .smali ⟨"LA;", ⟨0, 9⟩,
          [⟨"f", "()V", ⟨0, 9⟩, [⟨⟨0, 4⟩, 0⟩, ⟨⟨5, 8⟩, 4⟩]⟩]⟩⟩)], 1, 1⟩
        classSymbols := fun name _ => [⟨⟨0⟩, name⟩]
        methodSymbols := fun key scope =>
          match scope with
          | .file id => [⟨id, 0, key⟩]
          | .project => []
        process := .answering (fun _ => [⟨⟨1⟩, "A"⟩, ⟨⟨2⟩, "LA;"⟩, ⟨⟨3⟩, "A"⟩, ⟨⟨4⟩, "B"⟩])
          fun type _ _ => type.id ≠ ⟨3⟩ }
      (sourcePosition {} ⟨⟨9⟩, "LA;", "f", "()V", 1⟩) =
        .ok ⟨⟨0⟩, 5, 2, .instruction 0 1⟩ := by
    decide +kernel
  obtain ⟨name, k, m, i, x, hname, hm, -, hi, helement, hlocations, -⟩ :=
    locations_of_shown _ rfl (by simp) {} hshown rfl (by decide) (by decide)
  have hbinary : ClassName.binary? "LA;" = some "A" := rfl
  obtain rfl : "A" = name := Option.some.inj (hbinary.symm.trans hname)
  cases helement
  cases hm
  cases hi
  refine ⟨_, _, hshown, hlocations.trans ?_⟩
  decide +kernel

/-- **A breakpoint stops where it was placed.** A position in a method has an instruction to stop
at, if it is before the end of the last one: the instruction there or else the next. Whatever the
process answers, each location it is given for the position is shown at that instruction, if the
file is the lowest of its class, the method the first with its signature there, and each
instruction starts on a code unit of its own. -/
theorem shown_of_location {store : Store} {index : SymbolIndex} (h : Upkeep store index [])
    (config : Config) (pos : FilePosition) {file : SourceFile} {c : ClassDef} {name : String}
    (hfile : store.file? pos.file = some file) (hc : file.classDef? = some c) (hwf : c.WellFormed)
    (hqualified : c.qualifiedName? = some name) (hname : ClassName.binary? name = some name)
    (hlowest : ∀ other, ClassTable.Defines store.classDef? name other →
      other = pos.file ∨ pos.file < other)
    {k : Nat} {m : Method} (hm : c.methods[k]? = some m)
    (hfirst : ∀ j other, j < k → c.methods[j]? = some other → other.signature ≠ m.signature)
    (hascends : m.StrictlyAscends)
    (hunits : ∀ x ∈ m.instructions, config.codeUnitBytes.toNat ∣ x.codeOffset.toNat)
    {last : Instruction} (hin : m.range.contains pos.offset = true)
    (hlast : m.instructions.getLast? = some last) (hbefore : pos.offset < last.range.stop) :
    ∃ i x, m.IsStop pos.offset i x ∧
      (runtimeLocations config pos).Always (standing store) (EachLocation fun location =>
        ∀ process, (indexed store index process).result (sourcePosition config location) =
          .ok
            { file := pos.file
              offset := x.range.start
              line := file.lines.lineOf x.range.start
              element := .instruction k i }) := by
  have hclass : store.classDef? pos.file = some c := by
    rw [Store.classDef?, hfile, Option.bind_some, hc]
  obtain ⟨i, x, hx, hstop⟩ :=
    (hwf.ordered m (List.mem_of_getElem? hm)).exists_stop hin hlast hbefore
  have hcover := Store.coverage_eq_code config hclass hwf hqualified hm hin hx
  refine ⟨i, x, hstop, (always_runtimeLocations store config pos).mono ?_⟩
  intro outcome hlocates locations hlocations location hmem process
  obtain ⟨target, htarget, type, htype, hlocation⟩ := hlocates locations hlocations location hmem
  have hcode := Coverage.code.inj (Except.ok.inj (hcover.symm.trans htarget))
  subst hcode
  have hdeclaring : ClassName.binary? location.declaringType = some name := by
    rw [hlocation]
    exact htype
  have hsig : m.signature = location.signature := by
    rw [hlocation]
    rfl
  have hmet : m.instructionFrom? (config.fullOffset location.codeIndex) = some (i, x) := by
    rw [hlocation]
    exact hascends.instructionFrom?_codeIndex hstop.1 (hunits x (List.mem_of_getElem? hstop.1))
  rw [result_sourcePosition_indexed h.records_current h.ordered hdeclaring hname]
  exact h.ordered.scanPosition_eq_ok config hfile hc hqualified hlowest hm hfirst hsig hmet

/-- A breakpoint on the blank line between two instructions stops at the second, which starts on
line 3. The other file of the class and the other method with the signature come later. -/
theorem shown_of_location_blank : ∃ store index, Upkeep store index [] ∧
    (runtimeLocations {} ⟨⟨0⟩, 4, 2, .method 0⟩).Always (standing store)
      (EachLocation fun location => ∀ process,
        (indexed store index process).result (sourcePosition {} location) =
          .ok ⟨⟨0⟩, 5, 3, .instruction 0 1⟩) ∧
    (indexed store index (.answering (fun name => [⟨⟨7⟩, name⟩]) fun _ _ _ => true)).result
        (runtimeLocations {} ⟨⟨0⟩, 4, 2, .method 0⟩) = .ok [⟨⟨7⟩, "A", "f", "()V", 1⟩] := by
  have hrun := Upkeep.start
    |>.insert ⟨"a", "nop\n\nend\n", .smali ⟨"LA;", ⟨0, 20⟩,
      [⟨"f", "()V", ⟨0, 9⟩, [⟨⟨0, 3⟩, 0⟩, ⟨⟨5, 8⟩, 2⟩]⟩, ⟨"f", "()V", ⟨9, 20⟩, []⟩]⟩⟩
    |>.insert ⟨"b", "", .smali ⟨"A", ⟨0, 0⟩, [⟨"f", "()V", ⟨0, 0⟩, []⟩]⟩⟩
    |>.rebuild [⟨1⟩, ⟨0⟩]
  have hlowest (other : FileId) : other = ⟨0⟩ ∨ ⟨0⟩ < other :=
    match other with
    | ⟨0⟩ => .inl rfl
    | ⟨n + 1⟩ => .inr n.succ_pos
  obtain ⟨i, x, hstop, halways⟩ :=
    shown_of_location (k := 0) hrun {} ⟨⟨0⟩, 4, 2, .method 0⟩ rfl rfl (by decide) rfl rfl
      (fun other _ => hlowest other) rfl (fun j _ hj => absurd hj j.not_lt_zero) (by decide)
      (by decide) (by decide) rfl (by decide)
  refine ⟨_, _, hrun, ?_, by decide +kernel⟩
  match i, x, hstop with
  | 0, _, ⟨rfl, .inl hin⟩ => cases hin
  | 0, _, ⟨rfl, .inr ⟨_, hstart, _⟩⟩ => exact absurd hstart (by decide)
  | 1, _, ⟨rfl, _⟩ => exact halways
  | _ + 2, _, ⟨hnone, _⟩ => cases hnone

end Query.Surroundings

end DebugMap
