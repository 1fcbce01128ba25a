import DebugMap.Proofs.Manager.Rejection
import DebugMap.Proofs.Watch.Delivery

/-!
# One reading of the files

While an operation waits for the process, the files may change, as often and in whatever way. An
operation for a position has read them before it asks anything, and reads them never again, so what
it comes to is settled by the files at its start and by what the process answers. Main statement:
`files_read_once`.

A watch for a position is asked for by the name of the class at the start, in binary form. The watch
brings the name into binary form once more, which can change it: a name may begin with a blank
inside its wrapper (`watched_class_trimmed`).
-/

set_option autoImplicit false

namespace DebugMap

open Query

variable {σ : Type}

/-! ## Locations of one piece of code -/

/-- **All locations of an answer** are of one method and one code index. -/
def SameCode (outcome : Outcome (List RuntimeLocation)) : Prop :=
  ∀ locations, outcome = .ok locations → ∀ l ∈ locations, ∀ l' ∈ locations,
    l.methodName = l'.methodName ∧ l.methodDescriptor = l'.methodDescriptor ∧
      l.codeIndex = l'.codeIndex

theorem Store.sameCode {store : Store} {config : Config} {pos : FilePosition}
    {outcome : Outcome (List RuntimeLocation)}
    (h : EachLocation (fun location => ∃ target,
      store.coverage config pos = .ok (.code target) ∧ target.Locates location) outcome) :
    SameCode outcome := by
  intro locations houtcome l hl l' hl'
  obtain ⟨target, hcover, type, -, rfl⟩ := h locations houtcome l hl
  obtain ⟨target', hcover', type', -, rfl⟩ := h locations houtcome l' hl'
  cases hcover.symm.trans hcover'
  exact ⟨rfl, rfl, rfl⟩

/-! ## Operations while the files change -/

/-- **What the files at the start settle** about the operations for a position. -/
structure Settled (w : World σ) (x : σ) (pos : FilePosition) : Prop where
  loadedClasses : w.Replayed (loadedClasses pos) x
  runtimeLocations : ∀ config, w.Replayed (runtimeLocations config pos) x
  locationsForType : ∀ config type, w.Replayed (locationsForType config type pos) x
  sameCode : ∀ config, SameCode (w.run (Query.runtimeLocations config pos) x).1
  sameCodeForType : ∀ config type,
    SameCode (w.run (Query.locationsForType config type pos) x).1
  /-- A watch is for the binary form of the name of the class at the start, which is that name if
  it is its own binary form. -/
  watch : ∀ {η ρ : Type} (m : Manager η ρ)
    (around : Watch.Surroundings (StateM σ) (Callback η ρ)) (requestor : ρ) (v : WatchHandle),
    ((m.watchPosition (w.act .store) around pos requestor).run x).1 = .ok v →
    ∃ name, (w.store x).Names pos name ∧ ClassName.binary? name = some v.className ∧
      (v.className = name ↔ ClassName.binary? name = some name)

/-- **The files are read once.** Whatever the process does while it is asked, an operation for a
position comes to what the files at its start and the answers make of it. -/
theorem files_read_once (w : World σ) (x : σ) (pos : FilePosition) : Settled w x pos where
  loadedClasses := (readsOnce_loadedClasses pos).replayed w x
  runtimeLocations config := (readsOnce_runtimeLocations config pos).replayed w x
  locationsForType config type := (readsOnce_locationsForType config type pos).replayed w x
  sameCode config := Store.sameCode <|
    (readsOnce_runtimeLocations config pos).always w x (always_runtimeLocations _ config pos)
  sameCodeForType config type := Store.sameCode <|
    (readsOnce_locationsForType config type pos).always w x
      (always_locationsForType _ config type pos)
  watch {η ρ} m around requestor v hv := by
    rw [m.watchPosition_run (w.reads x)] at hv
    rcases (w.store x).classNameAt_cases pos with ⟨reason, -, herror⟩ | ⟨name, hname, hok⟩
    · rw [herror] at hv
      cases hv
    · rw [hok] at hv
      have hregistered := Watch.registered_run around name (.hooked m.hook pos requestor) x
      dsimp only at hv
      rw [hv] at hregistered
      cases hregistered with
      | watching hbinary =>
        refine ⟨name, hname, hbinary, fun heq => heq ▸ hbinary, fun hself => ?_⟩
        exact Option.some.inj (hbinary.symm.trans hself)

/-- A process with some loaded types, which declare every method; it does something of its own when
it is asked whether they do. -/
def declaring {σ : Type} (store : σ → Store) (types : List RuntimeType) (touch : σ → σ) :
    World σ where
  store := store
  act
    | .store => fun x => (store x, x)
    | .loadedTypes _ => pure (.ok types)
    | .declares .. => fun x => (.ok true, touch x)
    | .classSymbols .. => pure []
    | .methodSymbols .. => pure []
    | .note _ => pure ()
  reads _ := rfl

def oneFile (className : String) : Store where
  files := [(⟨0⟩, {
    path := "",
    text := "",
    content := .smali ⟨className, ⟨0, 9⟩, [⟨"f", "()V", ⟨0, 9⟩, [⟨⟨0, 4⟩, 2⟩]⟩]⟩ })]
  nextId := 1

/-- The file is removed when the first of two types is asked for its method. -/
example : (declaring id [⟨⟨1⟩, "A"⟩, ⟨⟨2⟩, "A"⟩] fun files => (files.remove ⟨0⟩).2).run
    (Query.runtimeLocations {} ⟨⟨0⟩, 0, 1, .method 0⟩) (oneFile "LA;") =
    (.ok [⟨⟨1⟩, "A", "f", "()V", 1⟩, ⟨⟨2⟩, "A", "f", "()V", 1⟩], { nextId := 1, revision := 1 }) := by
  decide +kernel

/-! ## A watch for another class -/

def accepting (ρ : Type) : Watch.Surroundings (StateM (Store × Registry ρ)) ρ where
  registry := fun x => (x.2, x)
  setRegistry r := fun x => ((), (x.1, r))
  note _ := pure ()
  answer
    | .request _ => pure (.ok ⟨1⟩)
    | .clear _ => pure ()
    | .run _ _ => pure ()

theorem accepting_faithful (ρ : Type) : (accepting ρ).Faithful Prod.snd where
  registry _ := rfl
  setRegistry _ _ := rfl
  note _ _ := rfl
  answer q x stack n := by
    cases q <;> exact ⟨[], n, .nil⟩

theorem arm_accepting {ρ : Type} {className name : String}
    (hname : ClassName.binary? className = some name) (requestor : ρ) (store : Store) :
    (((Watch.Call.arm className requestor).run (accepting ρ)).run (store, {})).1 =
      .ok ⟨⟨1⟩, name, ⟨1⟩⟩ := by
  have hrun : ((Watch.Call.arm className requestor).run (accepting ρ)).run (store, {}) =
      (((Watch.Call.arm className requestor).start {}).run (accepting ρ)).run (store, {}) := rfl
  rw [hrun, Watch.start_arm hname, Watch.Step.run_of_waits (accepting ρ) rfl _ rfl rfl,
    Watch.Step.run_of_returns (accepting ρ) rfl]
  rfl

/-- **The watched class is not the class of the file**, where that has a name that is not its own
binary form. -/
theorem watched_class_trimmed : ∃ (w : World (Store × Registry (Callback Unit Unit)))
    (x : Store × Registry (Callback Unit Unit)) (pos : FilePosition) (v : WatchHandle),
    (accepting (Callback Unit Unit)).Faithful Prod.snd ∧
      ((({} : Manager Unit Unit).watchPosition (w.act .store) (accepting _) pos ()).run x).1 =
        .ok v ∧
      (w.store x).classNameAt pos = .ok " a" ∧ v.className = "a" := by
  let w : World (Store × Registry (Callback Unit Unit)) := declaring Prod.fst [] id
  let pos : FilePosition := ⟨⟨0⟩, 0, 1, .method 0⟩
  have hname : (w.store (oneFile "L a;", {})).classNameAt pos = .ok " a" := by decide +kernel
  have hbinary : ClassName.binary? " a" = some "a" := by decide +kernel
  refine ⟨w, (oneFile "L a;", {}), pos, ⟨⟨1⟩, "a", ⟨1⟩⟩, accepting_faithful _, ?_, hname, rfl⟩
  rw [Manager.watchPosition_run {} (w.reads _), hname]
  exact arm_accepting hbinary _ _

end DebugMap
