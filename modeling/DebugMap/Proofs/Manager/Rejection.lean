import DebugMap.Manager
import DebugMap.Proofs.Query.Agreement
import DebugMap.Proofs.Query.Reading
import DebugMap.Proofs.Watch.Registration

/-!
# Positions that are rejected

Every operation that takes a position needs the class around it, by its binary name. Where there is
none, all of them fail for the one reason that the files give (`Store.Rejects`), before anything is
asked or changed. Where there is one, none of them fails but for the process.

Main statement: `position_operations_agree`. It rests on what the files give (`classNameAt_cases`),
on queries that fail as soon as the files are read (`World.fails_of_error`), and on queries that
fail only where the process does (`OnlyUnavailable`).
-/

set_option autoImplicit false

namespace DebugMap

open Smali

variable {α β σ : Type}

/-! ## What the files give -/

/-- **Why a position has no class:** the first reason that applies, in this order. -/
inductive Store.Rejects (store : Store) (pos : FilePosition) : NoMapping → Prop where
  | missingFile (missing : store.file? pos.file = none) :
      store.Rejects pos (.missingFile pos.file)
  | notDisassembly {file : SourceFile} (present : store.file? pos.file = some file)
      (foreign : file.classDef? = none) : store.Rejects pos .notDisassembly
  | outsideClass {c : ClassDef} (defined : store.classDef? pos.file = some c)
      (outside : ¬(c.range.start ≤ pos.offset ∧ pos.offset < c.range.stop)) :
      store.Rejects pos (.outsideClass pos.file pos.offset)
  | invalidTypeName {c : ClassDef} (defined : store.classDef? pos.file = some c)
      (inside : c.range.start ≤ pos.offset ∧ pos.offset < c.range.stop)
      (unnamed : ClassName.binary? c.name = none) : store.Rejects pos (.invalidTypeName c.name)

/-- **The class of a position**, by its binary name. -/
inductive Store.Names (store : Store) (pos : FilePosition) : String → Prop where
  | intro {c : ClassDef} {name : String} (defined : store.classDef? pos.file = some c)
      (inside : c.range.start ≤ pos.offset ∧ pos.offset < c.range.stop)
      (named : ClassName.binary? c.name = some name) : store.Names pos name

theorem Store.classNameAt_cases (store : Store) (pos : FilePosition) :
    (∃ reason, store.Rejects pos reason ∧ store.classNameAt pos = .error (.noMapping reason)) ∨
      ∃ name, store.Names pos name ∧ store.classNameAt pos = .ok name := by
  unfold classNameAt classAt
  cases hfile : store.file? pos.file with
  | none => exact .inl ⟨_, .missingFile hfile, rfl⟩
  | some file =>
    dsimp only
    cases hc : file.classDef? with
    | none => exact .inl ⟨_, .notDisassembly hfile hc, rfl⟩
    | some c =>
      have hdefined : store.classDef? pos.file = some c := by
        rw [classDef?, hfile]
        exact hc
      dsimp only
      split_ifs with hinside
      · rw [TextRange.contains_iff] at hinside
        dsimp only [ClassDef.binaryName]
        cases hname : c.qualifiedName? with
        | none => exact .inl ⟨_, .invalidTypeName hdefined hinside hname, rfl⟩
        | some name => exact .inr ⟨name, .intro hdefined hinside hname, rfl⟩
      · rw [TextRange.contains_iff] at hinside
        exact .inl ⟨_, .outsideClass hdefined hinside, rfl⟩

theorem Store.coverage_of_error {store : Store} (config : Config) {pos : FilePosition}
    {e : PositionError} (h : store.classNameAt pos = .error e) :
    store.coverage config pos = .error e := by
  unfold classNameAt at h
  unfold coverage
  cases hc : store.classAt pos with
  | error e' =>
    rw [hc] at h
    exact congrArg Except.error (Except.error.inj h)
  | ok c =>
    rw [hc] at h
    dsimp only at h ⊢
    rw [h]

theorem Store.exists_coverage {store : Store} (config : Config) {pos : FilePosition} {name : String}
    (h : store.classNameAt pos = .ok name) : ∃ coverage, store.coverage config pos = .ok coverage := by
  have hcover := coverage_of_classNameAt config h
  split at hcover
  · obtain ⟨event, hcover⟩ := hcover
    exact ⟨_, hcover⟩
  · exact ⟨_, hcover⟩

namespace Query

/-! ## Queries that fail at once -/

/-- **A query fails at once:** it gets no answer but the files, and changes nothing. -/
structure World.Fails (w : World σ) (q : Query (Outcome α)) (x : σ) (e : PositionError) : Prop where
  result : w.run q x = (.error e, x)
  unasked : w.replies q x = []

theorem World.fails_of_error (w : World σ) {x : σ} {f : Store → Outcome α} {e : PositionError}
    (h : f (w.store x) = .error e) (next : α → Query (Outcome β)) :
    w.Fails (ask .store >>= fun store => andThen (f store) next) x e := by
  constructor
  · refine (w.run_store (fun store => andThen (f store) next) x).trans ?_
    rw [h]
    rfl
  · refine (w.replies_store (fun store => andThen (f store) next) x).trans ?_
    rw [h]
    rfl

/-! ## Queries that fail only where the process does -/

/-- **The only failure** is that of the process. -/
def OnlyUnavailable (outcome : Outcome α) : Prop :=
  ∀ e, outcome = .error e → ∃ host, e = .hostUnavailable host

theorem onlyUnavailable_ok (a : α) : OnlyUnavailable (.ok a : Outcome α) := nofun

section
variable {may : (q : Question) → q.Answer → Prop}

theorem always_andThen {q : Query (Outcome α)} {next : α → Query (Outcome β)}
    (h : q.Always may OnlyUnavailable) (hnext : ∀ a, (next a).Always may OnlyUnavailable) :
    (q >>= fun result => andThen result next).Always may OnlyUnavailable := by
  rw [Dialogue.always_bind]
  refine h.mono fun outcome houtcome => ?_
  cases outcome with
  | error e =>
    rintro _ ⟨⟩
    exact houtcome e rfl
  | ok a => exact hnext a

theorem always_orUnavailable (answer : Except HostError α) {next : α → Query (Outcome β)}
    (hnext : ∀ a, (next a).Always may OnlyUnavailable) :
    (orUnavailable answer next).Always may OnlyUnavailable := by
  cases answer with
  | error e =>
    rintro _ ⟨⟩
    exact ⟨e, rfl⟩
  | ok a => exact hnext a

theorem locationIn_onlyUnavailable (config : Config) (target : CodeTarget) (type : RuntimeType) :
    (locationIn config target type).Always may OnlyUnavailable := by
  unfold locationIn
  split_ifs
  · refine fun answer _ => always_orUnavailable answer fun declared => ?_
    cases declared with
    | true => exact onlyUnavailable_ok _
    | false => exact fun _ _ => onlyUnavailable_ok _
  · exact onlyUnavailable_ok _
  · exact fun _ _ => onlyUnavailable_ok _

theorem locationsIn_onlyUnavailable (config : Config) (target : CodeTarget)
    (types : List RuntimeType) : (locationsIn config target types).Always may OnlyUnavailable := by
  induction types with
  | nil => exact onlyUnavailable_ok _
  | cons type rest ih =>
    exact always_andThen (locationIn_onlyUnavailable config target type) fun _ =>
      always_andThen ih fun _ => onlyUnavailable_ok _

end

section
variable {store : Store} {pos : FilePosition} {name : String}
  (hname : store.classNameAt pos = .ok name)

include hname

theorem withTarget_onlyUnavailable (config : Config)
    {next : CodeTarget → Query (Outcome (List RuntimeLocation))}
    (h : ∀ target, (next target).Always (standing store) OnlyUnavailable) :
    (withTarget config pos next).Always (standing store) OnlyUnavailable := by
  rintro store rfl
  obtain ⟨coverage, hcover⟩ := store.exists_coverage config hname
  show (andThen (store.coverage config pos) _).Always _ _
  rw [hcover]
  cases coverage with
  | gap event => exact fun _ _ => onlyUnavailable_ok _
  | code target => exact h target

theorem runtimeLocations_onlyUnavailable (config : Config) :
    (runtimeLocations config pos).Always (standing store) OnlyUnavailable :=
  withTarget_onlyUnavailable hname config fun target answer _ =>
    always_orUnavailable answer (locationsIn_onlyUnavailable config target)

theorem locationsForType_onlyUnavailable (config : Config) (type : RuntimeType) :
    (locationsForType config type pos).Always (standing store) OnlyUnavailable :=
  withTarget_onlyUnavailable hname config fun target =>
    always_andThen (locationIn_onlyUnavailable config target type) fun _ => onlyUnavailable_ok _

theorem loadedClasses_onlyUnavailable :
    (loadedClasses pos).Always (standing store) OnlyUnavailable := by
  rintro store rfl
  show (andThen (store.classNameAt pos) _).Always _ _
  rw [hname]
  exact fun answer _ => always_orUnavailable answer fun _ _ _ => onlyUnavailable_ok _

end

end Query

open Query

/-! ## Operations for a position -/

/-- **A watch for a position** is one for the class that the files give at the start, if any. -/
theorem Manager.watchPosition_run {η ρ : Type} (m : Manager η ρ) {readStore : StateM σ Store}
    {store : Store} {x : σ} (hread : readStore.run x = (store, x))
    (around : Watch.Surroundings (StateM σ) (Callback η ρ)) (pos : FilePosition) (requestor : ρ) :
    (m.watchPosition readStore around pos requestor).run x =
      match store.classNameAt pos with
      | .error e => (.error e, x)
      | .ok name =>
        ((Watch.Call.arm name (.hooked m.hook pos requestor)).run around).run x := by
  unfold watchPosition
  rw [StateT.run_bind, hread]
  dsimp only [bind]
  unfold prepareCall
  cases store.classNameAt pos <;> rfl

/-- **A position that every operation rejects**, for the reason that the files give. None of them
asks the process, and none changes anything. -/
structure RejectedBy (w : World σ) (x : σ) (pos : FilePosition) (reason : NoMapping) : Prop where
  rejected : (w.store x).Rejects pos reason
  classNameAt : w.Fails (classNameAt pos) x (.noMapping reason)
  loadedClasses : w.Fails (loadedClasses pos) x (.noMapping reason)
  runtimeLocations : ∀ config, w.Fails (runtimeLocations config pos) x (.noMapping reason)
  locationsForType : ∀ config type, w.Fails (locationsForType config type pos) x (.noMapping reason)
  watchPosition : ∀ {η ρ : Type} (m : Manager η ρ)
    (around : Watch.Surroundings (StateM σ) (Callback η ρ)) (requestor : ρ),
    (m.watchPosition (w.act .store) around pos requestor).run x = (.error (.noMapping reason), x)

/-- **A position that every operation accepts**, as inside a class of this name. Whatever the
process does, nothing but the process is a reason to fail. -/
structure AcceptedBy (w : World σ) (x : σ) (pos : FilePosition) (name : String) : Prop where
  named : (w.store x).Names pos name
  classNameAt : w.run (classNameAt pos) x = (.ok name, x)
  loadedClasses : OnlyUnavailable (w.run (loadedClasses pos) x).1
  runtimeLocations : ∀ config, OnlyUnavailable (w.run (runtimeLocations config pos) x).1
  locationsForType : ∀ config type,
    OnlyUnavailable (w.run (locationsForType config type pos) x).1
  /-- The watch is asked for by this name, which has to be its own binary form. -/
  watchPosition : ClassName.binary? name = some name → ∀ {η ρ : Type} (m : Manager η ρ)
    (around : Watch.Surroundings (StateM σ) (Callback η ρ)) (requestor : ρ),
    OnlyUnavailable ((m.watchPosition (w.act .store) around pos requestor).run x).1

/-- **All operations for a position agree** on whether it has a class, and if not, why. -/
theorem position_operations_agree (w : World σ) (x : σ) (pos : FilePosition) :
    (∃ reason, RejectedBy w x pos reason) ∨ ∃ name, AcceptedBy w x pos name := by
  rcases (w.store x).classNameAt_cases pos with ⟨reason, hreason, herror⟩ | ⟨name, hname, hok⟩
  · have hcover := fun config => Store.coverage_of_error config herror
    exact .inl ⟨reason, {
      rejected := hreason
      classNameAt := ⟨by rw [w.run_classNameAt, herror], w.replies_classNameAt pos x⟩
      loadedClasses := w.fails_of_error herror _
      runtimeLocations := fun config => w.fails_of_error (hcover config) _
      locationsForType := fun config type => w.fails_of_error (hcover config) _
      watchPosition := fun m around requestor => by rw [m.watchPosition_run (w.reads x), herror] }⟩
  · refine .inr ⟨name, {
      named := hname
      classNameAt := by rw [w.run_classNameAt, hok]
      loadedClasses := (readsOnce_loadedClasses pos).always w x (loadedClasses_onlyUnavailable hok)
      runtimeLocations := fun config =>
        (readsOnce_runtimeLocations config pos).always w x
          (runtimeLocations_onlyUnavailable hok config)
      locationsForType := fun config type =>
        (readsOnce_locationsForType config type pos).always w x
          (locationsForType_onlyUnavailable hok config type)
      watchPosition := fun hbinary η ρ m around requestor => ?_ }⟩
    rw [m.watchPosition_run (w.reads x), hok]
    intro e he
    have hregistered := Watch.registered_run around name (.hooked m.hook pos requestor) x
    rw [he] at hregistered
    cases hregistered with
    | refused noName => cases hbinary.symm.trans noName
    | unavailable host => exact ⟨host, rfl⟩

end DebugMap
