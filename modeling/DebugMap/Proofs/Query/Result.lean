import DebugMap.Query.Locations
import DebugMap.Query.SourcePosition
import Mathlib.Tactic.SplitIfs

/-!
# What a query comes to

`Surroundings` that stand still hold one store, and an index and a process whose answers depend on
the question alone. `Surroundings.result` is what a query comes to in them. Main statements:
`result_sourcePosition` (a location is shown at the first site that holds in the first class that
holds), `result_runtimeLocations`, and `result_locationsIn_answering` (which types have a location
of some code).

`Dialogue.Always` says what holds whatever is answered, as of a process that changes while it is
asked: `always_runtimeLocations`. What both mean for a run with answers from a monad is stated by
`Dialogue.run_eq_map_result` and `Dialogue.Always.run`.
-/

set_option autoImplicit false

namespace DebugMap

namespace Dialogue

variable {Q : Type} {Answer : Q → Type} {α β : Type}

def result (answer : (q : Q) → Answer q) : Dialogue Q Answer α → α
  | .done a => a
  | .ask q next => (next (answer q)).result answer

theorem result_bind (answer : (q : Q) → Answer q) (d : Dialogue Q Answer α)
    (f : α → Dialogue Q Answer β) :
    (d >>= f).result answer = (f (d.result answer)).result answer := by
  induction d with
  | done a => rfl
  | ask q next ih => exact ih (answer q)

/-- **What a dialogue comes to satisfies `P`**, whichever of the answers that it may get it gets,
and also where it asks the same thing twice and is told different things. -/
def Always (may : (q : Q) → Answer q → Prop) (P : α → Prop) : Dialogue Q Answer α → Prop
  | .done a => P a
  | .ask q next => ∀ answer, may q answer → (next answer).Always may P

theorem always_bind {may : (q : Q) → Answer q → Prop} {P : β → Prop} {d : Dialogue Q Answer α}
    {f : α → Dialogue Q Answer β} :
    (d >>= f).Always may P ↔ d.Always may fun a => (f a).Always may P := by
  induction d with
  | done a => rfl
  | ask q next ih => exact forall₂_congr fun answer _ => ih answer

theorem Always.mono {may : (q : Q) → Answer q → Prop} {P P' : α → Prop} {d : Dialogue Q Answer α}
    (h : d.Always may P) (hP : ∀ a, P a → P' a) : d.Always may P' := by
  induction d with
  | done a => exact hP a h
  | ask q next ih => exact fun answer hmay => ih answer (h answer hmay)

theorem always_of_forall {may : (q : Q) → Answer q → Prop} {P : α → Prop} (h : ∀ a, P a)
    (d : Dialogue Q Answer α) : d.Always may P := by
  induction d with
  | done a => exact h a
  | ask q next ih => exact fun answer _ => ih answer

theorem Always.run {may : (q : Q) → Answer q → Prop} {P : α → Prop} {d : Dialogue Q Answer α}
    (h : d.Always may P) {σ : Type} {act : (q : Q) → StateM σ (Answer q)}
    (hact : ∀ q world, may q ((act q).run world).1) (world : σ) :
    P ((d.run act).run world).1 := by
  induction d generalizing world with
  | done a => exact h
  | ask q next ih => exact ih _ (h _ (hact q world)) _

/-- Where each answer always is the same value, whatever else is done to give it, a dialogue comes
to its result. -/
theorem run_eq_map_result {m : Type → Type} [Monad m] [LawfulMonad m] {act : (q : Q) → m (Answer q)}
    {answer : (q : Q) → Answer q} (h : ∀ q, act q = (fun _ => answer q) <$> act q)
    (d : Dialogue Q Answer α) : d.run act = (fun _ => d.result answer) <$> d.run act := by
  induction d with
  | done a => rw [run, map_pure, result]
  | ask q next ih =>
    rw [run, h q, bind_map_left, map_bind, result]
    congr 1
    funext _
    exact ih (answer q)

end Dialogue

def CodeTarget.locationFor (target : CodeTarget) (type : RuntimeType) : RuntimeLocation :=
  ⟨type.id, type.name, target.methodName, target.methodDescriptor, target.codeIndex⟩

def CodeTarget.Locates (target : CodeTarget) (location : RuntimeLocation) : Prop :=
  ∃ type, ClassName.binary? type.name = some target.className ∧ location = target.locationFor type

theorem SourceFile.methodAt?_eq_some_iff {file : SourceFile} {position : Nat} {m : Smali.Method} :
    file.methodAt? position = some m ↔
      ∃ c, file.classDef? = some c ∧ c.methods[position]? = some m :=
  Option.bind_eq_some_iff

/-- A method candidate that holds, with what is found at its place. -/
def Store.methodSite? (store : Store) (signature : String) (s : MethodSymbol) :
    Option MethodSite :=
  (store.file? s.file).bind fun file =>
    (file.methodAt? s.method).bind fun method =>
      if method.signature = signature then some ⟨s, file, method⟩ else none

theorem Store.methodSite?_eq_some_iff {store : Store} {signature : String} {symbol : MethodSymbol}
    {site : MethodSite} :
    store.methodSite? signature symbol = some site ↔
      ∃ file m, store.file? symbol.file = some file ∧ file.methodAt? symbol.method = some m ∧
        m.signature = signature ∧ site = ⟨symbol, file, m⟩ := by
  simp only [methodSite?, Option.bind_eq_some_iff, Option.ite_none_right_eq_some,
    Option.some.injEq, eq_comm (a := site), exists_and_left]

theorem Store.isSome_methodSite? (store : Store) (signature : String) (symbol : MethodSymbol) :
    (store.methodSite? signature symbol).isSome = store.declaresMethod signature symbol := by
  unfold methodSite? declaresMethod
  cases store.file? symbol.file with
  | none => rfl
  | some file =>
    dsimp only [Option.bind_some]
    cases file.methodAt? symbol.method with
    | none => rfl
    | some m => by_cases hsig : m.signature = signature <;> simp [hsig]

theorem Store.positionIn_eq {store : Store} (config : Config) (name : String)
    (location : RuntimeLocation) {symbol : MethodSymbol} {site : MethodSite}
    (h : store.methodSite? location.signature symbol = some site) :
    store.positionIn config name location symbol = site.positionAt config location.codeIndex := by
  obtain ⟨file, m, hfile, hm, -, rfl⟩ := Store.methodSite?_eq_some_iff.1 h
  simp only [positionIn, hfile, hm]

namespace Query

/-! ## Whatever the process answers -/

/-- A store that stands still, and anything else that may answer as it likes. -/
def standing (store : Store) : (q : Question) → q.Answer → Prop
  | .store, answer => answer = store
  | _, _ => True

def EachLocation (P : RuntimeLocation → Prop) (outcome : Outcome (List RuntimeLocation)) : Prop :=
  ∀ locations, outcome = .ok locations → ∀ location ∈ locations, P location

theorem always_locationIn {may : (q : Question) → q.Answer → Prop} (config : Config)
    (target : CodeTarget) (type : RuntimeType) :
    (locationIn config target type).Always may fun outcome =>
      ∀ location, outcome = .ok (some location) → target.Locates location := by
  have hlocates (hsame : ClassName.sameClass type.name target.className = true) :
      target.Locates (target.locationFor type) := ⟨type, ClassName.sameClass_iff.1 hsame, rfl⟩
  unfold locationIn
  split_ifs with hsame hverify
  · intro answer _
    rcases answer with e | ⟨_ | _⟩
    · rintro _ ⟨⟩
    · rintro _ _ _ ⟨⟩
    · rintro _ ⟨⟩
      exact hlocates hsame
  · rintro _ ⟨⟩
    exact hlocates hsame
  · rintro _ _ _ ⟨⟩

theorem always_locationsIn {may : (q : Question) → q.Answer → Prop} (config : Config)
    (target : CodeTarget) (types : List RuntimeType) :
    (locationsIn config target types).Always may (EachLocation target.Locates) := by
  induction types with
  | nil =>
    rintro _ ⟨⟩ _ ⟨⟩
  | cons type rest ih =>
    rw [locationsIn, Dialogue.always_bind]
    refine (always_locationIn config target type).mono fun outcome hfound => ?_
    cases outcome with
    | error e => rintro _ ⟨⟩
    | ok found =>
      rw [andThen, Dialogue.always_bind]
      refine ih.mono fun outcome hmore => ?_
      cases outcome with
      | error e => rintro _ ⟨⟩
      | ok more =>
        rintro _ ⟨⟩ location hmem
        rcases List.mem_append.1 hmem with hmem | hmem
        · obtain rfl : found = some location := Option.mem_toList.1 hmem
          exact hfound location rfl
        · exact hmore more rfl location hmem

theorem always_withTarget {store : Store} {config : Config} {pos : FilePosition}
    {next : CodeTarget → Query (Outcome (List RuntimeLocation))}
    (h : ∀ target, (next target).Always (standing store) (EachLocation target.Locates)) :
    (withTarget config pos next).Always (standing store) (EachLocation fun location =>
      ∃ target, store.coverage config pos = .ok (.code target) ∧ target.Locates location) := by
  rintro store rfl
  show (andThen (store.coverage config pos) _).Always _ _
  cases hcover : store.coverage config pos with
  | error e => rintro _ ⟨⟩
  | ok coverage =>
    cases coverage with
    | gap event =>
      rintro _ _ _ ⟨⟩ _ ⟨⟩
    | code target =>
      refine (h target).mono fun outcome hlocates => ?_
      intro locations hlocations location hmem
      exact ⟨target, rfl, hlocates locations hlocations location hmem⟩

/-- **Each location of a position** is one of the code for it, whatever the process answers. -/
theorem always_runtimeLocations (store : Store) (config : Config) (pos : FilePosition) :
    (runtimeLocations config pos).Always (standing store) (EachLocation fun location =>
      ∃ target, store.coverage config pos = .ok (.code target) ∧ target.Locates location) := by
  refine always_withTarget fun target answer _ => ?_
  cases answer with
  | error e => rintro _ ⟨⟩
  | ok types => exact always_locationsIn config target types

theorem always_locationsForType (store : Store) (config : Config) (type : RuntimeType)
    (pos : FilePosition) :
    (locationsForType config type pos).Always (standing store) (EachLocation fun location =>
      ∃ target, store.coverage config pos = .ok (.code target) ∧ target.Locates location) := by
  refine always_withTarget fun target => ?_
  rw [Dialogue.always_bind]
  refine (always_locationIn config target type).mono fun outcome hfound => ?_
  cases outcome with
  | error e => rintro _ ⟨⟩
  | ok found =>
    rintro _ ⟨⟩ location hmem
    exact hfound location (congrArg Except.ok (Option.mem_toList.1 hmem))

structure Process where
  loadedTypes : String → Except HostError (List RuntimeType)
  declares : RuntimeType → String → String → Except HostError Bool

def Process.answering (loadedTypes : String → List RuntimeType)
    (declares : RuntimeType → String → String → Bool) : Process where
  loadedTypes name := .ok (loadedTypes name)
  declares type name descriptor := .ok (declares type name descriptor)

/-- **Surroundings that stand still:** every question has one answer throughout. -/
structure Surroundings where
  store : Store
  classSymbols : String → SearchScope → List ClassSymbol
  methodSymbols : String → SearchScope → List MethodSymbol
  process : Process

namespace Surroundings

def answer (s : Surroundings) : (q : Question) → q.Answer
  | .store => s.store
  | .classSymbols name scope => s.classSymbols name scope
  | .methodSymbols signature scope => s.methodSymbols signature scope
  | .loadedTypes name => s.process.loadedTypes name
  | .declares type name descriptor => s.process.declares type name descriptor
  | .note _ => ()

/-- **What a query comes to** in these surroundings. -/
def result {α : Type} (s : Surroundings) (q : Query α) : α :=
  Dialogue.result s.answer q

def indexed (store : Store) (index : SymbolIndex) (process : Process) : Surroundings where
  store := store
  classSymbols := index.classesByName
  methodSymbols := index.methodsBySignature
  process := process

variable (s : Surroundings) {α β : Type}

/-! ## The steps of a query -/

theorem result_bind (q : Query α) (next : α → Query β) :
    s.result (q >>= next) = s.result (next (s.result q)) :=
  Dialogue.result_bind s.answer q next

theorem result_pickFirst (ambiguity : Nat → α → QueryEvent) (xs : List α) :
    s.result (pickFirst ambiguity xs) = xs.head? := by
  match xs with
  | [] => rfl
  | [_] => rfl
  | _ :: _ :: _ => rfl

theorem result_andThen (a : Outcome α) (next : α → Query (Outcome β)) :
    s.result (andThen a next) = a.bind fun x => s.result (next x) := by
  cases a <;> rfl

/-! ## From a location to a position -/

def chosenClass? (name : String) : Option ClassSymbol :=
  ((s.classSymbols name .project).filter (s.store.definesClass name)).head?

def chosenSite? (signature : String) (file : FileId) : Option MethodSite :=
  ((s.methodSymbols signature (.file file)).filterMap (s.store.methodSite? signature)).head?

theorem chosenSite?_eq (signature : String) (file : FileId) :
    s.chosenSite? signature file =
      ((s.methodSymbols signature (.file file)).filter
        (s.store.declaresMethod signature)).head?.bind (s.store.methodSite? signature) := by
  unfold chosenSite?
  induction s.methodSymbols signature (.file file) with
  | nil => rfl
  | cons symbol rest ih =>
    rw [List.filterMap_cons, List.filter_cons, ← Store.isSome_methodSite?]
    cases hsite : s.store.methodSite? signature symbol with
    | none => exact ih
    | some site => exact hsite.symm

/-- **A location is shown** at the first site that holds in the first class that holds. -/
theorem result_sourcePosition (config : Config) (location : RuntimeLocation) :
    s.result (sourcePosition config location) =
      match ClassName.binary? location.declaringType with
      | none => .error (.noMapping (.invalidTypeName location.declaringType))
      | some name =>
        match s.chosenClass? name with
        | none => .error (.noMapping (.unknownType name))
        | some chosen =>
          match s.chosenSite? location.signature chosen.file with
          | none => .error (.noMapping (.unknownMethod name location.signature))
          | some site => site.positionAt config location.codeIndex := by
  unfold sourcePosition
  cases ClassName.binary? location.declaringType with
  | none => rfl
  | some name =>
    show s.result (pickFirst (.ambiguousClass name)
      ((s.classSymbols name .project).filter (s.store.definesClass name)) >>= _) = _
    rw [result_bind, result_pickFirst, ← chosenClass?]
    dsimp only
    cases s.chosenClass? name with
    | none => rfl
    | some chosen =>
      show s.result (pickFirst (.ambiguousMethod location.signature)
        ((s.methodSymbols location.signature (.file chosen.file)).filter
          (s.store.declaresMethod location.signature)) >>= _) = _
      rw [result_bind, result_pickFirst]
      dsimp only
      rw [chosenSite?_eq]
      cases hfound : ((s.methodSymbols location.signature (.file chosen.file)).filter
          (s.store.declaresMethod location.signature)).head? with
      | none => rfl
      | some symbol =>
        have hholds := (List.mem_filter.1 (List.mem_of_head? hfound)).2
        rw [← Store.isSome_methodSite?, Option.isSome_iff_exists] at hholds
        obtain ⟨site, hsite⟩ := hholds
        rw [Option.bind_some, hsite]
        exact Store.positionIn_eq config name location hsite

/-! ## From a position to locations -/

theorem result_locationIn (config : Config) (target : CodeTarget) (type : RuntimeType) :
    s.result (locationIn config target type) =
      if ClassName.sameClass type.name target.className then
        if config.verifyMethods then
          match s.process.declares type target.methodName target.methodDescriptor with
          | .ok declared => .ok (if declared then some (target.locationFor type) else none)
          | .error e => .error (.hostUnavailable e)
        else .ok (some (target.locationFor type))
      else .ok none := by
  unfold locationIn
  split_ifs
  · show s.result (orUnavailable (s.process.declares type target.methodName
      target.methodDescriptor) _) = _
    rcases s.process.declares type target.methodName target.methodDescriptor with e | ⟨_ | _⟩ <;>
      rfl
  · rfl
  · rfl

theorem result_locationsIn_cons (config : Config) (target : CodeTarget) (type : RuntimeType)
    (rest : List RuntimeType) :
    s.result (locationsIn config target (type :: rest)) =
      (s.result (locationIn config target type)).bind fun found =>
        (s.result (locationsIn config target rest)).bind fun more =>
          .ok (found.toList ++ more) := by
  rw [locationsIn, result_bind, result_andThen]
  congr 1
  funext found
  rw [result_bind, result_andThen]
  rfl

/-- Whether a type has a location of the target, if the process declares these methods: it is of the
target's class, and declares the method if the process has to be asked. -/
def backs (config : Config) (declares : RuntimeType → String → String → Bool) (target : CodeTarget)
    (type : RuntimeType) : Bool :=
  ClassName.binary? type.name = some target.className ∧
    (config.verifyMethods = true → declares type target.methodName target.methodDescriptor = true)

theorem result_locationIn_answering {loadedTypes : String → List RuntimeType}
    {declares : RuntimeType → String → String → Bool}
    (h : s.process = .answering loadedTypes declares) (config : Config) (target : CodeTarget)
    (type : RuntimeType) :
    s.result (locationIn config target type) =
      .ok (if backs config declares target type then some (target.locationFor type) else none) := by
  rw [result_locationIn, h]
  by_cases hsame : ClassName.binary? type.name = some target.className
  · cases hverify : config.verifyMethods <;> simp [hsame, hverify, backs, Process.answering]
  · simp [hsame, backs]

/-- **A process that answers every question** has one location in each type that backs the target,
in the order of the types. -/
theorem result_locationsIn_answering {loadedTypes : String → List RuntimeType}
    {declares : RuntimeType → String → String → Bool}
    (h : s.process = .answering loadedTypes declares) (config : Config) (target : CodeTarget)
    (types : List RuntimeType) :
    s.result (locationsIn config target types) =
      .ok ((types.filter (backs config declares target)).map target.locationFor) := by
  induction types with
  | nil => rfl
  | cons type rest ih =>
    rw [result_locationsIn_cons, s.result_locationIn_answering h, ih, List.filter_cons]
    split_ifs <;> rfl

theorem result_runtimeLocations (config : Config) (pos : FilePosition) :
    s.result (runtimeLocations config pos) =
      match s.store.coverage config pos with
      | .error e => .error e
      | .ok (.gap _) => .ok []
      | .ok (.code target) =>
        match s.process.loadedTypes target.className with
        | .error e => .error (.hostUnavailable e)
        | .ok types => s.result (locationsIn config target types) := by
  unfold runtimeLocations withTarget
  show s.result (andThen (s.store.coverage config pos) _) = _
  rcases s.store.coverage config pos with e | (target | event)
  · rfl
  · show s.result (orUnavailable (s.process.loadedTypes target.className) _) = _
    dsimp only
    cases s.process.loadedTypes target.className <;> rfl
  · rfl

end Surroundings

end Query

end DebugMap
