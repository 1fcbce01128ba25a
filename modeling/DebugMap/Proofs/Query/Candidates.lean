import DebugMap.Proofs.Query.Scan

/-!
# A stale index shows no wrong position

Here an index may answer anything: candidates in any order, twice, of files that were removed or
edited since, at methods that are not there. All that is asked of it is to keep to the file it is
asked about. What is shown then is read off the store alone, at the first class candidate and the
first method candidate that hold there (`Shown`).

Main statement: `outcome_of_candidates`. Its parts are which candidate is taken
(`chosenClass?_eq_some_iff`, `chosenSite?_eq_some_iff`), what it means that none is, and what the
candidates taken lead to in the store (`shown_iff`).
-/

set_option autoImplicit false

namespace DebugMap

open Smali

def FirstThat {α : Type} (holds : α → Prop) (xs : List α) (a : α) : Prop :=
  ∃ before after, xs = before ++ a :: after ∧ holds a ∧ ∀ b ∈ before, ¬ holds b

theorem FirstThat.holds {α : Type} {holds : α → Prop} {xs : List α} {a : α}
    (h : FirstThat holds xs a) : holds a := by
  obtain ⟨_, _, _, ha, _⟩ := h
  exact ha

theorem FirstThat.mem {α : Type} {holds : α → Prop} {xs : List α} {a : α}
    (h : FirstThat holds xs a) : a ∈ xs := by
  obtain ⟨before, after, rfl, _, _⟩ := h
  exact List.mem_append_right _ List.mem_cons_self

theorem head?_filter_eq_some_iff {α : Type} {p : α → Bool} {holds : α → Prop}
    (hp : ∀ a, p a = true ↔ holds a) {xs : List α} {a : α} :
    (xs.filter p).head? = some a ↔ FirstThat holds xs a := by
  rw [List.head?_filter, List.find?_eq_some_iff_append, hp]
  constructor
  · rintro ⟨ha, before, after, rfl, hbefore⟩
    exact ⟨before, after, rfl, ha, fun b hb => by simpa [← hp] using hbefore b hb⟩
  · rintro ⟨before, after, rfl, ha, hbefore⟩
    exact ⟨ha, before, after, rfl, fun b hb => by simpa [← hp] using hbefore b hb⟩

theorem head?_filter_eq_none_iff {α : Type} {p : α → Bool} {holds : α → Prop}
    (hp : ∀ a, p a = true ↔ holds a) {xs : List α} :
    (xs.filter p).head? = none ↔ ∀ a ∈ xs, ¬ holds a := by
  simp only [List.head?_eq_none_iff, List.filter_eq_nil_iff, hp]

theorem SourceFile.classDef?_eq_some_iff {file : SourceFile} {c : ClassDef} :
    file.classDef? = some c ↔ file.content = .smali c := by
  unfold classDef?
  cases file.content <;> simp

theorem Store.of_methodSite? {store : Store} {signature : String} {symbol : MethodSymbol}
    {site : MethodSite} (h : store.methodSite? signature symbol = some site) :
    ∃ file c m, store.file? symbol.file = some file ∧ file.classDef? = some c ∧
      c.methods[symbol.method]? = some m ∧ m.signature = signature ∧
      site = ⟨symbol, file, m⟩ := by
  obtain ⟨file, m, hfile, hm, hsig, hsite⟩ := methodSite?_eq_some_iff.1 h
  obtain ⟨c, hc, hm⟩ := SourceFile.methodAt?_eq_some_iff.1 hm
  exact ⟨file, c, m, hfile, hc, hm, hsig, hsite⟩

theorem Store.declaresMethod_iff {store : Store} {signature : String} {symbol : MethodSymbol} :
    store.declaresMethod signature symbol = true ↔
      ClassTable.Declares store.classDef? signature symbol.place := by
  rw [← isSome_methodSite?, Option.isSome_iff_exists]
  constructor
  · rintro ⟨site, hsite⟩
    obtain ⟨file, c, m, hfile, hc, hm, hsig, -⟩ := of_methodSite? hsite
    exact ⟨c, m, Option.bind_eq_some_iff.2 ⟨file, hfile, hc⟩, hm, hsig⟩
  · rintro ⟨c, m, hclass, hm, hsig⟩
    obtain ⟨file, hfile, hc⟩ := Option.bind_eq_some_iff.1 hclass
    exact ⟨_, methodSite?_eq_some_iff.2
      ⟨file, m, hfile, SourceFile.methodAt?_eq_some_iff.2 ⟨c, hc, hm⟩, hsig, rfl⟩⟩

theorem MethodSite.positionAt_eq_ok_iff {site : MethodSite} {config : Config} {codeIndex : UInt64}
    {pos : FilePosition} :
    site.positionAt config codeIndex = .ok pos ↔
      ∃ i x, site.method.instructionFrom? (config.fullOffset codeIndex) = some (i, x) ∧
        pos =
          { file := site.symbol.file
            offset := x.range.start
            line := site.file.lines.lineOf x.range.start
            element := .instruction site.symbol.method i } := by
  rw [positionAt_eq]
  rcases site.method.instructionFrom? (config.fullOffset codeIndex) with _ | ⟨i, x⟩
  · simp
  · simp [eq_comm]

theorem MethodSite.noInstruction_of_positionAt {site : MethodSite} {config : Config}
    {codeIndex : UInt64} {e : PositionError} (h : site.positionAt config codeIndex = .error e) :
    ∃ codeOffset, e = .noMapping (.noInstruction site.method.signature codeOffset) := by
  rw [positionAt_eq] at h
  cases hx : site.method.instructionFrom? (config.fullOffset codeIndex) with
  | none =>
    rw [hx] at h
    exact ⟨_, (Except.error.inj h).symm⟩
  | some found =>
    rw [hx] at h
    cases h

namespace Query.Surroundings

variable (s : Surroundings) (config : Config) (name : String) (location : RuntimeLocation)

/-! ## The candidates that hold -/

abbrev FirstClass (chosen : ClassSymbol) : Prop :=
  FirstThat (fun symbol => ClassTable.Defines s.store.classDef? name symbol.file)
    (s.classSymbols name .project) chosen

abbrev FirstMethod (key : String) (file : FileId) (chosen : MethodSymbol) : Prop :=
  FirstThat (fun symbol => ClassTable.Declares s.store.classDef? key symbol.place)
    (s.methodSymbols key (.file file)) chosen

variable {s config name location}

theorem chosenClass?_eq_some_iff {chosen : ClassSymbol} :
    s.chosenClass? name = some chosen ↔ s.FirstClass name chosen :=
  head?_filter_eq_some_iff fun _ => Store.definesClass_iff

theorem chosenClass?_eq_none_iff :
    s.chosenClass? name = none ↔
      ∀ symbol ∈ s.classSymbols name .project,
        ¬ ClassTable.Defines s.store.classDef? name symbol.file :=
  head?_filter_eq_none_iff fun _ => Store.definesClass_iff

theorem chosenSite?_eq_some_iff {key : String} {id : FileId} {site : MethodSite} :
    s.chosenSite? key id = some site ↔
      s.FirstMethod key id site.symbol ∧ s.store.methodSite? key site.symbol = some site := by
  rw [chosenSite?_eq, Option.bind_eq_some_iff]
  simp only [head?_filter_eq_some_iff fun _ => Store.declaresMethod_iff]
  constructor
  · rintro ⟨symbol, hfirst, hsite⟩
    obtain ⟨file, m, -, -, -, rfl⟩ := Store.methodSite?_eq_some_iff.1 hsite
    exact ⟨hfirst, hsite⟩
  · rintro ⟨hfirst, hsite⟩
    exact ⟨site.symbol, hfirst, hsite⟩

theorem chosenSite?_eq_none_iff {key : String} {id : FileId} :
    s.chosenSite? key id = none ↔
      ∀ symbol ∈ s.methodSymbols key (.file id),
        ¬ ClassTable.Declares s.store.classDef? key symbol.place := by
  rw [← head?_filter_eq_none_iff fun _ => Store.declaresMethod_iff, chosenSite?_eq]
  cases hfound : ((s.methodSymbols key (.file id)).filter (s.store.declaresMethod key)).head? with
  | none => simp
  | some symbol =>
    have hholds := (List.mem_filter.1 (List.mem_of_head? hfound)).2
    rw [← Store.isSome_methodSite?, Option.isSome_iff_ne_none] at hholds
    simp [hholds]

/-! ## What a query comes to -/

theorem binary?_of_result {pos : FilePosition}
    (h : s.result (sourcePosition config location) = .ok pos) :
    ∃ name, ClassName.binary? location.declaringType = some name := by
  rw [result_sourcePosition] at h
  cases hname : ClassName.binary? location.declaringType with
  | none =>
    rw [hname] at h
    cases h
  | some name => exact ⟨name, rfl⟩

theorem result_eq_ok_iff (hname : ClassName.binary? location.declaringType = some name)
    {pos : FilePosition} :
    s.result (sourcePosition config location) = .ok pos ↔
      ∃ chosen site, s.chosenClass? name = some chosen ∧
        s.chosenSite? location.signature chosen.file = some site ∧
        site.positionAt config location.codeIndex = .ok pos := by
  rw [result_sourcePosition, hname]
  dsimp only
  cases s.chosenClass? name with
  | none => simp
  | some chosen =>
    cases hsite : s.chosenSite? location.signature chosen.file with
    | none => simp [hsite]
    | some site => simp [hsite]

theorem result_eq_error_iff (hname : ClassName.binary? location.declaringType = some name)
    {e : PositionError} (he : ∀ key codeOffset, e ≠ .noMapping (.noInstruction key codeOffset)) :
    s.result (sourcePosition config location) = .error e ↔
      (s.chosenClass? name = none ∧ e = .noMapping (.unknownType name)) ∨
      ∃ chosen, s.chosenClass? name = some chosen ∧
        s.chosenSite? location.signature chosen.file = none ∧
        e = .noMapping (.unknownMethod name location.signature) := by
  rw [result_sourcePosition, hname]
  dsimp only
  cases s.chosenClass? name with
  | none => simp [eq_comm]
  | some chosen =>
    cases hsite : s.chosenSite? location.signature chosen.file with
    | none => simp [hsite, eq_comm]
    | some site =>
      have hne : site.positionAt config location.codeIndex ≠ .error e := fun h =>
        have ⟨codeOffset, heq⟩ := site.noInstruction_of_positionAt h
        he _ codeOffset heq
      simp [hsite, hne]

/-! ## The main statement -/

/-- **What is behind a position** that is shown for a location of a class: candidates that hold, the
first of each kind, and the first instruction that the code index reaches. -/
structure Shown (s : Surroundings) (config : Config) (name : String) (location : RuntimeLocation)
    (pos : FilePosition) (symbol : MethodSymbol) (file : SourceFile) (c : ClassDef) (m : Method)
    (i : Nat) (x : Instruction) : Prop where
  first_class : ∃ chosen, s.FirstClass name chosen ∧ pos.file = chosen.file
  file_eq : s.store.file? pos.file = some file
  content : file.content = .smali c
  qualifiedName : c.qualifiedName? = some name
  first_method : s.FirstMethod location.signature pos.file symbol
  method : c.methods[symbol.method]? = some m
  signature : m.signature = location.signature
  /-- The instruction is the first of the method that the code index reaches. -/
  instruction : m.instructions[i]? = some x
  reached : location.codeIndex.toNat * config.codeUnitBytes.toNat ≤ x.codeOffset.toNat
  earlier : ∀ j y, j < i → m.instructions[j]? = some y →
    y.codeOffset.toNat < location.codeIndex.toNat * config.codeUnitBytes.toNat
  offset : pos.offset = x.range.start
  line : pos.line = file.lines.lineOf x.range.start
  element : pos.element = .instruction symbol.method i

section
variable {pos : FilePosition} {symbol : MethodSymbol} {file : SourceFile} {c : ClassDef}
  {m : Method} {i : Nat} {x : Instruction} (h : Shown s config name location pos symbol file c m i x)

include h

theorem Shown.classDef? : s.store.classDef? pos.file = some c :=
  Option.bind_eq_some_iff.2 ⟨file, h.file_eq, SourceFile.classDef?_eq_some_iff.2 h.content⟩

theorem Shown.instructionFrom? :
    m.instructionFrom? (config.fullOffset location.codeIndex) = some (i, x) :=
  first?_eq_some_iff.2 ⟨h.instruction, decide_eq_true h.reached, fun j y hj hy =>
    decide_eq_false (Nat.not_le_of_lt (h.earlier j y hj hy))⟩

end

/-- **What a query comes to with an index that may be stale or wrong**, but keeps to the file that
it is asked about. -/
structure FromCandidates (s : Surroundings) (config : Config) (name : String)
    (location : RuntimeLocation) (outcome : Outcome FilePosition) : Prop where
  ok_iff : ∀ pos, outcome = .ok pos ↔
    ∃ symbol file c m i x, Shown s config name location pos symbol file c m i x
  unknownType_iff : ∀ other, outcome = .error (.noMapping (.unknownType other)) ↔
    other = name ∧ ∀ symbol ∈ s.classSymbols name .project,
      ¬ ClassTable.Defines s.store.classDef? name symbol.file
  /-- The method is unknown if some class candidate holds, and in the file of the first one no
  method candidate does. -/
  unknownMethod_iff : ∀ other key, outcome = .error (.noMapping (.unknownMethod other key)) ↔
    other = name ∧ key = location.signature ∧ ∃ chosen, s.FirstClass name chosen ∧
      ∀ symbol ∈ s.methodSymbols location.signature (.file chosen.file),
        ¬ ClassTable.Declares s.store.classDef? location.signature symbol.place
  not_missing : ∀ id, outcome ≠ .error (.noMapping (.missingFile id))

theorem shown_iff (hindex : ∀ id, ∀ symbol ∈ s.methodSymbols location.signature (.file id),
      symbol.file = id) {pos : FilePosition} :
    (∃ chosen site, s.chosenClass? name = some chosen ∧
        s.chosenSite? location.signature chosen.file = some site ∧
        site.positionAt config location.codeIndex = .ok pos) ↔
      ∃ symbol file c m i x, Shown s config name location pos symbol file c m i x := by
  simp only [chosenClass?_eq_some_iff, chosenSite?_eq_some_iff, MethodSite.positionAt_eq_ok_iff]
  constructor
  · rintro ⟨chosen, site, hchosen, ⟨hfirst, hsite⟩, i, x, hx, rfl⟩
    obtain ⟨file, c, m, hfile, hc, hm, hsig, heq⟩ := Store.of_methodSite? hsite
    have hid : site.symbol.file = chosen.file := hindex _ _ hfirst.mem
    obtain ⟨c', hc', hqualified⟩ := hchosen.holds
    obtain rfl : c = c' := by
      rw [Store.classDef?, ← hid, hfile, Option.bind_some, hc] at hc'
      exact Option.some.inj hc'
    rw [heq] at hx
    obtain ⟨hi, hreached, hearlier⟩ := first?_eq_some_iff.1 hx
    exact ⟨site.symbol, file, c, m, i, x, {
      first_class := ⟨chosen, hchosen, hid⟩
      file_eq := hfile
      content := SourceFile.classDef?_eq_some_iff.1 hc
      qualifiedName := hqualified
      first_method := hid.symm ▸ hfirst
      method := hm
      signature := hsig
      instruction := hi
      reached := of_decide_eq_true hreached
      earlier := fun j y hj hy => Nat.lt_of_not_le (of_decide_eq_false (hearlier j y hj hy))
      offset := rfl
      line := congrArg (·.file.lines.lineOf x.range.start) heq
      element := rfl }⟩
  · rintro ⟨symbol, file, c, m, i, x, h⟩
    obtain ⟨chosen, hchosen, hfile⟩ := h.first_class
    have hid : symbol.file = pos.file := hindex _ _ h.first_method.mem
    have hm : file.methodAt? symbol.method = some m := SourceFile.methodAt?_eq_some_iff.2
      ⟨c, SourceFile.classDef?_eq_some_iff.2 h.content, h.method⟩
    refine ⟨chosen, ⟨symbol, file, m⟩, hchosen, ⟨hfile ▸ h.first_method, ?_⟩, i, x,
      h.instructionFrom?, ?_⟩
    · exact Store.methodSite?_eq_some_iff.2 ⟨file, m, hid ▸ h.file_eq, hm, h.signature, rfl⟩
    · obtain ⟨id, offset, line, element⟩ := pos
      obtain rfl : symbol.file = id := hid
      obtain rfl : offset = x.range.start := h.offset
      obtain rfl : line = file.lines.lineOf x.range.start := h.line
      obtain rfl : element = .instruction symbol.method i := h.element
      rfl

/-- **A stale index shows no wrong position.** -/
theorem outcome_of_candidates (s : Surroundings) (config : Config) (location : RuntimeLocation)
    {name : String} (hname : ClassName.binary? location.declaringType = some name)
    (hindex : ∀ id, ∀ symbol ∈ s.methodSymbols location.signature (.file id), symbol.file = id) :
    FromCandidates s config name location (s.result (sourcePosition config location)) where
  ok_iff pos := (result_eq_ok_iff hname).trans (shown_iff hindex)
  unknownType_iff other := by
    rw [result_eq_error_iff hname (by simp), chosenClass?_eq_none_iff]
    simp [and_comm]
  unknownMethod_iff other key := by
    rw [result_eq_error_iff hname (by simp)]
    simp only [chosenClass?_eq_some_iff, chosenSite?_eq_none_iff]
    constructor
    · rintro (⟨-, hne⟩ | ⟨chosen, hchosen, hnone, heq⟩)
      · cases hne
      · cases heq
        exact ⟨rfl, rfl, chosen, hchosen, hnone⟩
    · rintro ⟨rfl, rfl, chosen, hchosen, hnone⟩
      exact .inr ⟨chosen, hchosen, hnone, rfl⟩
  not_missing id h := by
    rw [result_eq_error_iff hname (by simp)] at h
    simp at h

/-- Of the class candidates one names a file that was removed, one a file of another class. Of the
methods one is past the last, one has another signature by now, and two hold. The first of these is
shown, at its second instruction. -/
theorem outcome_of_candidates_stale : ∃ (s : Surroundings) (outcome : Outcome FilePosition),
    (s.classSymbols "A" .project).map (·.file.raw) = [0, 1, 3, 2] ∧
      (s.methodSymbols "f()V" (.file ⟨3⟩)).map (·.method) = [7, 0, 2, 1] ∧
      outcome = .ok ⟨⟨3⟩, 13, 4, .instruction 2 1⟩ ∧
      FromCandidates s {} "A" ⟨⟨9⟩, "LA;", "f", "()V", 1⟩ outcome := by
  refine ⟨
    { store := ⟨[(⟨1⟩, ⟨"b", "", .smali ⟨"LB;", ⟨0, 0⟩, []⟩⟩),
          (⟨2⟩, ⟨"c", "", .smali ⟨"LA;", ⟨0, 0⟩, []⟩⟩),
          (⟨3⟩, ⟨"d", "nop\nnop\ngoto\nend\n", .smali ⟨"LA;", ⟨0, 17⟩,
            [⟨"g", "()V", ⟨0, 4⟩, []⟩, ⟨"f", "()V", ⟨4, 8⟩, [⟨⟨4, 7⟩, 0⟩]⟩,
              ⟨"f", "()V", ⟨8, 17⟩, [⟨⟨8, 12⟩, 0⟩, ⟨⟨13, 16⟩, 4⟩]⟩]⟩⟩)], 4, 6⟩
      classSymbols := fun name _ => [⟨⟨0⟩, name⟩, ⟨⟨1⟩, name⟩, ⟨⟨3⟩, name⟩, ⟨⟨2⟩, name⟩]
      methodSymbols := fun key scope =>
        match scope with
        | .file id => [⟨id, 7, key⟩, ⟨id, 0, key⟩, ⟨id, 2, key⟩, ⟨id, 1, key⟩]
        | .project => []
      process := .answering (fun _ => []) fun _ _ _ => true },
    _, rfl, rfl, ?_, outcome_of_candidates _ {} ⟨⟨9⟩, "LA;", "f", "()V", 1⟩ rfl (by simp)⟩
  decide +kernel

end Query.Surroundings

end DebugMap
