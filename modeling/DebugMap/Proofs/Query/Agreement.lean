import DebugMap.Proofs.Query.Candidates

/-!
# All types and one type

The locations of a position in all loaded types are those in each type, one type after another, and
what the process is asked for all is what it is asked for each. Main statement: `queries_agree`. It
rests on what the query of a single type comes to (`inType_spec`); the rest is by
induction on the list of types, one lemma for the result (`result_locationsIn_eq_mapM`), one for
the types that may be left out (`result_locationsIn_filter`), and one for the calls
(`calls_locationsIn`).

The questions on the way to a result are `Dialogue.asked`, and those that only the process can
answer are `Surroundings.calls`.
-/

set_option autoImplicit false

namespace DebugMap

open Smali

namespace Dialogue

variable {Q : Type} {Answer : Q → Type} {α β : Type}

def asked (answer : (q : Q) → Answer q) : Dialogue Q Answer α → List Q
  | .done _ => []
  | .ask q next => q :: (next (answer q)).asked answer

theorem asked_bind (answer : (q : Q) → Answer q) (d : Dialogue Q Answer α)
    (f : α → Dialogue Q Answer β) :
    (d >>= f).asked answer = d.asked answer ++ (f (d.result answer)).asked answer := by
  induction d with
  | done a => rfl
  | ask q next ih => exact congrArg (q :: ·) (ih (answer q))

end Dialogue

/-! ## The instruction for a position -/

/-- **The instruction that a position maps to**, with its method: in the first method around the
offset, the instruction there or else the next. -/
def Store.instructionAt? (store : Store) (pos : FilePosition) : Option (Method × Instruction) :=
  (store.classDef? pos.file).bind fun c =>
    (c.methodContaining? pos.offset).bind fun found =>
      (found.2.instructionAtOrAfter? pos.offset).map fun stop => (found.2, stop.2)

theorem Store.classDef?_of_classNameAt {store : Store} {pos : FilePosition} {name : String}
    (h : store.classNameAt pos = .ok name) :
    ∃ c, store.classAt pos = .ok c ∧ store.classDef? pos.file = some c ∧
      c.qualifiedName? = some name := by
  unfold classNameAt at h
  cases hat : store.classAt pos with
  | error e => simp [hat] at h
  | ok c =>
    refine ⟨c, rfl, ?_, ?_⟩
    · unfold classAt at hat
      unfold classDef?
      cases hfile : store.file? pos.file with
      | none => simp [hfile] at hat
      | some file =>
        cases hc : file.classDef? with
        | none => simp [hfile, hc] at hat
        | some c' =>
          simp only [hfile, hc] at hat
          split_ifs at hat
          cases hat
          exact hc
    · simp only [hat, ClassDef.binaryName] at h
      cases hname : c.qualifiedName? with
      | none => simp [hname] at h
      | some n =>
        simp only [hname, Except.ok.injEq] at h
        rw [h]

theorem Store.coverage_of_classNameAt {store : Store} (config : Config) {pos : FilePosition}
    {name : String} (h : store.classNameAt pos = .ok name) :
    match store.instructionAt? pos with
    | none => ∃ event, store.coverage config pos = .ok (.gap event)
    | some (m, x) =>
      store.coverage config pos =
        .ok (.code ⟨name, m.name, m.descriptor, config.codeIndex x.codeOffset⟩) := by
  obtain ⟨c, hat, hc, hname⟩ := classDef?_of_classNameAt h
  have hcover : store.coverage config pos = .ok (coverageIn config c name pos.offset) := by
    simp only [coverage, hat, ClassDef.binaryName, hname]
  rw [hcover, instructionAt?, hc, Option.bind_some, coverageIn]
  rcases c.methodContaining? pos.offset with _ | ⟨k, m⟩
  · exact ⟨_, rfl⟩
  · rw [Option.bind_some]
    dsimp only
    rcases m.instructionAtOrAfter? pos.offset with _ | ⟨i, x⟩
    · exact ⟨_, rfl⟩
    · rfl

namespace Query

def Question.isCall : Question → Bool
  | .loadedTypes _ | .declares .. => true
  | .store | .classSymbols .. | .methodSymbols .. | .note _ => false

/-- The entries of a list up to the first that fails, which is the last. -/
def upToFailure {α β : Type} (f : α → Outcome β) : List α → List α
  | [] => []
  | a :: rest =>
    match f a with
    | .ok _ => a :: upToFailure f rest
    | .error _ => [a]

theorem mapM_cons {α β : Type} (f : α → Outcome β) (a : α) (rest : List α) :
    (a :: rest).mapM f = (f a).bind fun y => (rest.mapM f).map (y :: ·) := by
  rw [List.mapM_cons]
  rfl

theorem mapM_eq_error_iff {α β : Type} {f : α → Outcome β} {xs : List α} {e : PositionError} :
    xs.mapM f = .error e ↔
      ∃ before a after, xs = before ++ a :: after ∧ f a = .error e ∧
        ∀ b ∈ before, ∃ y, f b = .ok y := by
  induction xs with
  | nil =>
    rw [List.mapM_nil]
    simp [pure, Except.pure]
  | cons a rest ih =>
    rw [mapM_cons]
    cases ha : f a with
    | error e' =>
      constructor
      · rintro ⟨⟩
        exact ⟨[], a, rest, rfl, ha, fun b hb => absurd hb List.not_mem_nil⟩
      · rintro ⟨_ | ⟨b, before⟩, a', after, hsplit, herror, hbefore⟩
        · cases hsplit
          cases ha.symm.trans herror
          rfl
        · cases hsplit
          obtain ⟨y, hy⟩ := hbefore a List.mem_cons_self
          cases ha.symm.trans hy
    | ok y =>
      have hrest : ((rest.mapM f).map (y :: ·) = .error e) ↔ rest.mapM f = .error e := by
        cases rest.mapM f <;> simp [Except.map]
      refine hrest.trans (ih.trans ⟨?_, ?_⟩)
      · rintro ⟨before, a', after, rfl, herror, hbefore⟩
        exact ⟨a :: before, a', after, rfl, herror,
          List.forall_mem_cons.2 ⟨⟨y, ha⟩, hbefore⟩⟩
      · rintro ⟨_ | ⟨b, before⟩, a', after, hsplit, herror, hbefore⟩
        · cases hsplit
          cases ha.symm.trans herror
        · cases hsplit
          exact ⟨before, a', after, rfl, herror, (List.forall_mem_cons.1 hbefore).2⟩

namespace Surroundings

variable (s : Surroundings) {α β : Type}

/-! ## What the process is asked -/

/-- **The calls of the process** on the way to a result. -/
def calls (q : Query α) : List Question :=
  (Dialogue.asked s.answer q).filter Question.isCall

theorem calls_bind (q : Query α) (next : α → Query β) :
    s.calls (q >>= next) = s.calls q ++ s.calls (next (s.result q)) := by
  unfold calls
  rw [Dialogue.asked_bind, List.filter_append]
  rfl

theorem calls_andThen (a : Outcome α) (next : α → Query (Outcome β)) :
    s.calls (andThen a next) =
      match a with
      | .ok x => s.calls (next x)
      | .error _ => [] := by
  cases a <;> rfl

theorem calls_locationIn (config : Config) (target : CodeTarget) (type : RuntimeType) :
    s.calls (locationIn config target type) =
      if ClassName.sameClass type.name target.className then
        if config.verifyMethods then
          [.declares type target.methodName target.methodDescriptor]
        else []
      else [] := by
  unfold locationIn
  split_ifs
  · show (.declares type target.methodName target.methodDescriptor : Question) ::
      s.calls (orUnavailable (s.process.declares type target.methodName
        target.methodDescriptor) _) = _
    rcases s.process.declares type target.methodName target.methodDescriptor with e | ⟨_ | _⟩ <;>
      rfl
  · rfl
  · rfl

abbrev inType (config : Config) (target : CodeTarget) (type : RuntimeType) :
    Outcome (List RuntimeLocation) :=
  (s.result (locationIn config target type)).map Option.toList

theorem calls_locationsIn (config : Config) (target : CodeTarget) (types : List RuntimeType) :
    s.calls (locationsIn config target types) =
      (upToFailure (s.inType config target) types).flatMap
        fun type => s.calls (locationIn config target type) := by
  induction types with
  | nil => rfl
  | cons type rest ih =>
    rw [locationsIn, calls_bind, calls_andThen, upToFailure, inType]
    cases s.result (locationIn config target type) with
    | error e => exact (List.append_nil _).trans (List.flatMap_singleton _ _).symm
    | ok found =>
      dsimp only [Except.map]
      rw [calls_bind, ih, calls_andThen, List.flatMap_cons]
      cases s.result (locationsIn config target rest) with
      | error e => rw [List.append_nil]
      | ok more => exact congrArg (_ ++ ·) (List.append_nil _)

/-! ## One type -/

variable (config : Config) (pos : FilePosition)

/-- **What a loaded type adds** to the locations of an instruction in a method of this class. -/
structure InType (s : Surroundings) (config : Config) (name : String) (m : Method) (x : Instruction)
    (type : RuntimeType) (outcome : Outcome (List RuntimeLocation)) (calls : List Question) :
    Prop where
  foreign : ClassName.binary? type.name ≠ some name → outcome = .ok [] ∧ calls = []
  unverified : ClassName.binary? type.name = some name → config.verifyMethods = false →
    outcome = .ok [⟨type.id, type.name, m.name, m.descriptor, config.codeIndex x.codeOffset⟩] ∧
      calls = []
  /-- With verification the process is asked once, and the location is there if it says so. -/
  verified : ClassName.binary? type.name = some name → config.verifyMethods = true →
    calls = [.declares type m.name m.descriptor] ∧ outcome =
      match s.process.declares type m.name m.descriptor with
      | .ok true =>
        .ok [⟨type.id, type.name, m.name, m.descriptor, config.codeIndex x.codeOffset⟩]
      | .ok false => .ok []
      | .error e => .error (.hostUnavailable e)

variable {s config pos} {name : String} {m : Method} {x : Instruction}

theorem inType_spec (type : RuntimeType) :
    let target : CodeTarget := ⟨name, m.name, m.descriptor, config.codeIndex x.codeOffset⟩
    InType s config name m x type (s.inType config target type)
      (s.calls (locationIn config target type)) := by
  intro target
  unfold inType
  rw [result_locationIn, calls_locationIn]
  constructor
  · intro hforeign
    simp [target, hforeign, Except.map]
  · intro hsame hverify
    simp [target, hsame, hverify, Except.map, CodeTarget.locationFor]
  · intro hsame hverify
    rcases s.process.declares type m.name m.descriptor with e | ⟨_ | _⟩ <;>
      simp [target, hsame, hverify, Except.map, CodeTarget.locationFor]

section
variable (config) (hname : s.store.classNameAt pos = .ok name)
  (next : CodeTarget → Query (Outcome (List RuntimeLocation)))

include hname

theorem withTarget_of_none (hnone : s.store.instructionAt? pos = none) :
    s.result (withTarget config pos next) = .ok [] ∧ s.calls (withTarget config pos next) = [] := by
  have hcover := Store.coverage_of_classNameAt config hname
  rw [hnone] at hcover
  obtain ⟨event, hcover⟩ := hcover
  constructor
  · show s.result (andThen (s.store.coverage config pos) _) = _
    rw [hcover]
    rfl
  · show s.calls (andThen (s.store.coverage config pos) _) = _
    rw [hcover]
    rfl

theorem withTarget_of_some (hsome : s.store.instructionAt? pos = some (m, x)) :
    let target : CodeTarget := ⟨name, m.name, m.descriptor, config.codeIndex x.codeOffset⟩
    s.result (withTarget config pos next) = s.result (next target) ∧
      s.calls (withTarget config pos next) = s.calls (next target) := by
  have hcover := Store.coverage_of_classNameAt config hname
  rw [hsome] at hcover
  constructor
  · show s.result (andThen (s.store.coverage config pos) _) = _
    rw [hcover]
    rfl
  · show s.calls (andThen (s.store.coverage config pos) _) = _
    rw [hcover]
    rfl

end

theorem locationsForType_of_some (config : Config) (hname : s.store.classNameAt pos = .ok name)
    (hsome : s.store.instructionAt? pos = some (m, x)) (type : RuntimeType) :
    let target : CodeTarget := ⟨name, m.name, m.descriptor, config.codeIndex x.codeOffset⟩
    s.result (locationsForType config type pos) = s.inType config target type ∧
      s.calls (locationsForType config type pos) = s.calls (locationIn config target type) := by
  intro target
  obtain ⟨hresult, hcalls⟩ := withTarget_of_some config hname (fun target => do
    andThen (← locationIn config target type) fun found => pure (.ok found.toList)) hsome
  unfold locationsForType
  rw [hresult, hcalls, result_bind, calls_bind, result_andThen, calls_andThen]
  unfold inType
  cases s.result (locationIn config target type) with
  | error e => exact ⟨rfl, List.append_nil _⟩
  | ok found => exact ⟨rfl, List.append_nil _⟩

/-! ## All types -/

theorem result_locationsIn_cons_eq (target : CodeTarget) (type : RuntimeType)
    (rest : List RuntimeType) :
    s.result (locationsIn config target (type :: rest)) =
      (s.inType config target type).bind fun found =>
        (s.result (locationsIn config target rest)).map (found ++ ·) := by
  rw [result_locationsIn_cons]
  unfold inType
  cases s.result (locationIn config target type) with
  | error e => rfl
  | ok found => cases s.result (locationsIn config target rest) <;> rfl

theorem result_locationsIn_eq_mapM (target : CodeTarget) (types : List RuntimeType) :
    s.result (locationsIn config target types) =
      (types.mapM (s.inType config target)).map List.flatten := by
  induction types with
  | nil => rfl
  | cons type rest ih =>
    rw [result_locationsIn_cons_eq, ih, mapM_cons]
    cases s.inType config target type with
    | error e => rfl
    | ok found => cases rest.mapM (s.inType config target) <;> rfl

theorem result_locationsIn_filter (target : CodeTarget) (types : List RuntimeType) :
    s.result (locationsIn config target
        (types.filter fun type => ClassName.sameClass type.name target.className)) =
      s.result (locationsIn config target types) := by
  induction types with
  | nil => rfl
  | cons type rest ih =>
    rw [List.filter_cons, result_locationsIn_cons]
    split_ifs with hsame
    · rw [result_locationsIn_cons, ih]
    · rw [result_locationIn, if_neg hsame, ih]
      cases s.result (locationsIn config target rest) <;> rfl

theorem runtimeLocations_of_some (config : Config) (hname : s.store.classNameAt pos = .ok name)
    (hsome : s.store.instructionAt? pos = some (m, x)) {types : List RuntimeType}
    (htypes : s.process.loadedTypes name = .ok types) :
    let target : CodeTarget := ⟨name, m.name, m.descriptor, config.codeIndex x.codeOffset⟩
    s.result (runtimeLocations config pos) = s.result (locationsIn config target types) ∧
      s.calls (runtimeLocations config pos) =
        .loadedTypes name :: s.calls (locationsIn config target types) := by
  intro target
  obtain ⟨hresult, hcalls⟩ := withTarget_of_some config hname (fun target => do
    orUnavailable (← ask (.loadedTypes target.className)) fun types =>
      locationsIn config target types) hsome
  unfold runtimeLocations
  rw [hresult, hcalls]
  constructor
  · show s.result (orUnavailable (s.process.loadedTypes name) _) = _
    rw [htypes]
    rfl
  · show .loadedTypes name :: s.calls (orUnavailable (s.process.loadedTypes name) _) = _
    rw [htypes]
    rfl

theorem result_runtimeLocations_eq_mapM (hname : s.store.classNameAt pos = .ok name)
    (hat : s.store.instructionAt? pos ≠ none) {types : List RuntimeType}
    (htypes : s.process.loadedTypes name = .ok types) :
    s.result (runtimeLocations config pos) =
      (types.mapM fun type => s.result (locationsForType config type pos)).map List.flatten := by
  obtain ⟨⟨m, x⟩, hsome⟩ := Option.ne_none_iff_exists'.1 hat
  simp only [(locationsForType_of_some _ hname hsome _).1]
  rw [(runtimeLocations_of_some _ hname hsome htypes).1, result_locationsIn_eq_mapM]

theorem calls_runtimeLocations (hname : s.store.classNameAt pos = .ok name)
    (hat : s.store.instructionAt? pos ≠ none) {types : List RuntimeType}
    (htypes : s.process.loadedTypes name = .ok types) :
    s.calls (runtimeLocations config pos) =
      .loadedTypes name ::
        (upToFailure (fun type => s.result (locationsForType config type pos)) types).flatMap
          fun type => s.calls (locationsForType config type pos) := by
  obtain ⟨⟨m, x⟩, hsome⟩ := Option.ne_none_iff_exists'.1 hat
  simp only [(locationsForType_of_some _ hname hsome _).1,
    (locationsForType_of_some _ hname hsome _).2]
  rw [(runtimeLocations_of_some _ hname hsome htypes).2, calls_locationsIn]

theorem runtimeLocations_of_unavailable (hname : s.store.classNameAt pos = .ok name)
    (hsome : s.store.instructionAt? pos = some (m, x)) {e : HostError}
    (herror : s.process.loadedTypes name = .error e) :
    s.result (runtimeLocations config pos) = .error (.hostUnavailable e) := by
  unfold runtimeLocations
  rw [(withTarget_of_some _ hname _ hsome).1]
  show s.result (orUnavailable (s.process.loadedTypes name) _) = _
  rw [herror]
  rfl

theorem result_loadedClasses (hname : s.store.classNameAt pos = .ok name)
    {types : List RuntimeType} (htypes : s.process.loadedTypes name = .ok types) :
    s.result (loadedClasses pos) =
      .ok (types.filter fun type => ClassName.sameClass type.name name) := by
  show s.result (andThen (s.store.classNameAt pos) _) = _
  rw [hname]
  show s.result (orUnavailable (s.process.loadedTypes name) _) = _
  rw [htypes]
  rfl

/-! ## With and without verification -/

def declaredAt (s : Surroundings) (location : RuntimeLocation) : Except HostError Bool :=
  s.process.declares ⟨location.typeId, location.declaringType⟩ location.methodName
    location.methodDescriptor

/-- **Verification only removes locations:** those whose type does not declare the method. The
others are the same, in the same order. -/
def OnlyRemoves (s : Surroundings) (config : Config)
    (outcome : Config → Outcome (List RuntimeLocation)) : Prop :=
  ∀ kept, outcome { config with verifyMethods := true } = .ok kept →
    ∃ all, outcome { config with verifyMethods := false } = .ok all ∧
      (∀ location ∈ all, ∃ declared, s.declaredAt location = .ok declared) ∧
      kept = all.filter fun location => s.declaredAt location = .ok true

theorem OnlyRemoves.nil : s.OnlyRemoves config fun _ => .ok [] := by
  rintro kept ⟨⟩
  exact ⟨[], rfl, fun location h => absurd h List.not_mem_nil, rfl⟩

theorem OnlyRemoves.append {first second : Config → Outcome (List RuntimeLocation)}
    (h₁ : s.OnlyRemoves config first) (h₂ : s.OnlyRemoves config second) :
    s.OnlyRemoves config fun config =>
      (first config).bind fun found => (second config).map (found ++ ·) := by
  intro kept hkept
  dsimp only at hkept ⊢
  cases hfirst : first { config with verifyMethods := true } with
  | error e =>
    rw [hfirst] at hkept
    cases hkept
  | ok found =>
    cases hsecond : second { config with verifyMethods := true } with
    | error e =>
      rw [hfirst, hsecond] at hkept
      cases hkept
    | ok more =>
      rw [hfirst, hsecond] at hkept
      obtain rfl : found ++ more = kept := Except.ok.inj hkept
      obtain ⟨all₁, hall₁, hdeclared₁, rfl⟩ := h₁ found hfirst
      obtain ⟨all₂, hall₂, hdeclared₂, rfl⟩ := h₂ more hsecond
      refine ⟨all₁ ++ all₂, ?_, List.forall_mem_append.2 ⟨hdeclared₁, hdeclared₂⟩,
        (List.filter_append _ _).symm⟩
      rw [hall₁, hall₂]
      rfl

theorem OnlyRemoves.inType (target : CodeTarget) (type : RuntimeType) :
    s.OnlyRemoves config fun config => s.inType config target type := by
  intro kept hkept
  simp only [Surroundings.inType, result_locationIn] at hkept ⊢
  by_cases hsame : ClassName.sameClass type.name target.className
  · have hat : s.declaredAt (target.locationFor type) =
        s.process.declares type target.methodName target.methodDescriptor := rfl
    simp only [if_pos hsame, if_true] at hkept ⊢
    refine ⟨[target.locationFor type], rfl, ?_⟩
    rw [← hat] at hkept
    cases hdeclared : s.declaredAt (target.locationFor type) with
    | error e =>
      rw [hdeclared] at hkept
      cases hkept
    | ok declared =>
      rw [hdeclared] at hkept
      cases declared <;> cases hkept <;> simp [hdeclared]
  · simp only [if_neg hsame] at hkept ⊢
    cases hkept
    exact ⟨[], rfl, fun location h => absurd h List.not_mem_nil, rfl⟩

theorem OnlyRemoves.locationsIn (target : CodeTarget) (types : List RuntimeType) :
    s.OnlyRemoves config fun config => s.result (locationsIn config target types) := by
  induction types with
  | nil => exact .nil
  | cons type rest ih =>
    simp only [result_locationsIn_cons_eq]
    exact (inType target type).append ih

theorem OnlyRemoves.runtimeLocations (hname : s.store.classNameAt pos = .ok name) :
    s.OnlyRemoves config fun config => s.result (runtimeLocations config pos) := by
  cases hat : s.store.instructionAt? pos with
  | none =>
    simp only [Query.runtimeLocations, (withTarget_of_none _ hname _ hat).1]
    exact .nil
  | some found =>
    obtain ⟨m, x⟩ := found
    cases htypes : s.process.loadedTypes name with
    | error e =>
      simp only [runtimeLocations_of_unavailable hname hat htypes]
      rintro kept ⟨⟩
    | ok types =>
      simp only [(runtimeLocations_of_some _ hname hat htypes).1]
      -- The code index does not depend on whether the process is asked.
      exact .locationsIn ⟨name, m.name, m.descriptor, config.codeIndex x.codeOffset⟩ types

theorem OnlyRemoves.locationsForType (hname : s.store.classNameAt pos = .ok name)
    (type : RuntimeType) :
    s.OnlyRemoves config fun config => s.result (locationsForType config type pos) := by
  cases hat : s.store.instructionAt? pos with
  | none =>
    simp only [Query.locationsForType, (withTarget_of_none _ hname _ hat).1]
    exact .nil
  | some found =>
    obtain ⟨m, x⟩ := found
    simp only [(locationsForType_of_some _ hname hat type).1]
    exact .inType ⟨name, m.name, m.descriptor, config.codeIndex x.codeOffset⟩ type

/-! ## The main statement -/

/-- **The query for all types and the query for one type agree** on a position of a class. -/
structure Agreement (s : Surroundings) (config : Config) (pos : FilePosition) (name : String) :
    Prop where
  no_instruction : s.store.instructionAt? pos = none →
    (s.result (runtimeLocations config pos) = .ok [] ∧
      s.calls (runtimeLocations config pos) = []) ∧
    ∀ type, s.result (locationsForType config type pos) = .ok [] ∧
      s.calls (locationsForType config type pos) = []
  each_type : ∀ m x, s.store.instructionAt? pos = some (m, x) → ∀ type,
    InType s config name m x type (s.result (locationsForType config type pos))
      (s.calls (locationsForType config type pos))
  code_index : ∀ x : Instruction,
    (config.codeIndex x.codeOffset).toNat = x.codeOffset.toNat / config.codeUnitBytes.toNat
  /-- The query for all types puts those for each after one another, up to the first failure. -/
  all_types : ∀ types, s.store.instructionAt? pos ≠ none →
    s.process.loadedTypes name = .ok types →
    s.result (runtimeLocations config pos) =
        (types.mapM fun type => s.result (locationsForType config type pos)).map List.flatten ∧
      s.calls (runtimeLocations config pos) =
        .loadedTypes name ::
          (upToFailure (fun type => s.result (locationsForType config type pos)) types).flatMap
            fun type => s.calls (locationsForType config type pos)
  own_types : ∀ types, s.store.instructionAt? pos ≠ none →
    s.process.loadedTypes name = .ok types →
    ∃ own, s.result (loadedClasses pos) = .ok own ∧
      s.result (runtimeLocations config pos) =
        (own.mapM fun type => s.result (locationsForType config type pos)).map List.flatten
  unavailable : ∀ e, s.store.instructionAt? pos ≠ none → s.process.loadedTypes name = .error e →
    s.result (runtimeLocations config pos) = .error (.hostUnavailable e)
  failure : ∀ types, s.store.instructionAt? pos ≠ none →
    s.process.loadedTypes name = .ok types →
    ∀ e, s.result (runtimeLocations config pos) = .error e ↔
      ∃ before type after, types = before ++ type :: after ∧
        s.result (locationsForType config type pos) = .error e ∧
        ∀ other ∈ before, ∃ found, s.result (locationsForType config other pos) = .ok found
  verification :
    (s.OnlyRemoves config fun config => s.result (runtimeLocations config pos)) ∧
    ∀ type, s.OnlyRemoves config fun config => s.result (locationsForType config type pos)

/-- **All types and one type:** the two queries agree. -/
theorem queries_agree (s : Surroundings) (config : Config) {pos : FilePosition} {name : String}
    (hname : s.result (classNameAt pos) = .ok name) : Agreement s config pos name where
  no_instruction hnone :=
    ⟨withTarget_of_none config hname _ hnone,
      fun type => withTarget_of_none config hname _ hnone⟩
  each_type m x hsome type := by
    obtain ⟨hresult, hcalls⟩ := locationsForType_of_some config hname hsome type
    rw [hresult, hcalls]
    exact inType_spec type
  code_index x := config.toNat_codeIndex x.codeOffset
  all_types types hat htypes :=
    ⟨result_runtimeLocations_eq_mapM hname hat htypes, calls_runtimeLocations hname hat htypes⟩
  own_types types hat htypes := by
    obtain ⟨⟨m, x⟩, hsome⟩ := Option.ne_none_iff_exists'.1 hat
    refine ⟨_, result_loadedClasses hname htypes, ?_⟩
    simp only [(locationsForType_of_some _ hname hsome _).1]
    rw [(runtimeLocations_of_some _ hname hsome htypes).1, ← result_locationsIn_eq_mapM]
    exact (result_locationsIn_filter _ types).symm
  unavailable e hat herror := by
    obtain ⟨⟨m, x⟩, hsome⟩ := Option.ne_none_iff_exists'.1 hat
    exact runtimeLocations_of_unavailable hname hsome herror
  failure types hat htypes e := by
    rw [result_runtimeLocations_eq_mapM hname hat htypes, ← mapM_eq_error_iff]
    cases types.mapM fun type => s.result (locationsForType config type pos) <;> simp [Except.map]
  verification := ⟨.runtimeLocations hname, .locationsForType hname⟩

/-- Of four types one is of another class, and one does not declare `f`. Whether that type declares
`g`, the process cannot tell: no location of `g` is given then, although the first type has one. -/
theorem queries_agree_loaders : ∃ (s : Surroundings) (f g : FilePosition),
    s.result (classNameAt f) = .ok "A" ∧ s.result (classNameAt g) = .ok "A" ∧
      s.result (runtimeLocations {} f) =
        .ok [⟨⟨1⟩, "A", "f", "()V", 2⟩, ⟨⟨4⟩, "LA;", "f", "()V", 2⟩] ∧
      s.result (runtimeLocations { verifyMethods := false } f) =
        .ok [⟨⟨1⟩, "A", "f", "()V", 2⟩, ⟨⟨3⟩, "A", "f", "()V", 2⟩,
          ⟨⟨4⟩, "LA;", "f", "()V", 2⟩] ∧
      s.result (locationsForType {} ⟨⟨1⟩, "A"⟩ g) = .ok [⟨⟨1⟩, "A", "g", "()V", 0⟩] ∧
      s.result (runtimeLocations {} g) = .error (.hostUnavailable .notConnected) ∧
      Agreement s {} f "A" ∧ Agreement s {} g "A" := by
  refine ⟨
    { store := ⟨[(⟨0⟩, ⟨"a", "", .smali ⟨"LA;", ⟨0, 30⟩,
          [⟨"f", "()V", ⟨0, 9⟩, [⟨⟨0, 4⟩, 0⟩, ⟨⟨5, 8⟩, 4⟩]⟩,
            ⟨"g", "()V", ⟨10, 19⟩, [⟨⟨12, 16⟩, 0⟩]⟩]⟩⟩)], 1, 1⟩
      classSymbols := fun _ _ => []
      methodSymbols := fun _ _ => []
      process :=
        { loadedTypes := fun _ => .ok [⟨⟨1⟩, "A"⟩, ⟨⟨2⟩, "B"⟩, ⟨⟨3⟩, "A"⟩, ⟨⟨4⟩, "LA;"⟩]
          declares := fun type name _ =>
            if type.id ≠ ⟨3⟩ then .ok true
            else if name = "f" then .ok false else .error .notConnected } },
    ⟨⟨0⟩, 4, 1, .method 0⟩, ⟨⟨0⟩, 10, 1, .method 1⟩, ?_, ?_, ?_, ?_, ?_, ?_,
    queries_agree _ _ ?_, queries_agree _ _ ?_⟩ <;>
  decide +kernel

end Surroundings

end Query

end DebugMap
