import DebugMap.Proofs.Query.Result

/-!
# Queries that read the files once

A `World` answers the questions of a query from a state, and whatever it does to answer may change
the state: files may be edited, removed, inserted or indexed anew while the process is asked. Only
to read the files changes nothing. The queries for a position read the files first and never again
(`ReadsOnce`), so they come to what the files at their start and the answers of the process make of
them, however the files change meanwhile.

Main statement: `ReadsOnce.replayed`.
-/

set_option autoImplicit false

namespace DebugMap

namespace Dialogue

variable {Q : Type} {Answer : Q → Type} {α β : Type} {p : Q → Prop}

/-- **All questions** that a dialogue may ask satisfy `p`. -/
def Only (p : Q → Prop) : Dialogue Q Answer α → Prop
  | .done _ => True
  | .ask q next => p q ∧ ∀ answer, (next answer).Only p

theorem Only.bind {d : Dialogue Q Answer α} {f : α → Dialogue Q Answer β} (h : d.Only p)
    (hf : ∀ a, (f a).Only p) : (d >>= f).Only p := by
  induction d with
  | done a => exact hf a
  | ask q next ih => exact ⟨h.1, fun answer => ih answer (h.2 answer)⟩

/-- Only the answers to the questions that may be asked matter. -/
theorem Always.run_of_only {may : (q : Q) → Answer q → Prop} {P : α → Prop}
    {d : Dialogue Q Answer α} (h : d.Always may P) (hd : d.Only p) {σ : Type}
    {act : (q : Q) → StateM σ (Answer q)}
    (hact : ∀ q world, p q → may q ((act q).run world).1) (world : σ) :
    P ((d.run act).run world).1 := by
  induction d generalizing world with
  | done a => exact h
  | ask q next ih => exact ih _ (h _ (hact q world hd.1)) (hd.2 _) _

end Dialogue

namespace Query

variable {α β σ : Type}

/-! ## Worlds -/

/-- **Surroundings that change** as they answer. What they do to answer is not restricted, but for
reading the files, which changes nothing. -/
structure World (σ : Type) where
  store : σ → Store
  act : (q : Question) → StateM σ q.Answer
  reads : ∀ x, (act .store).run x = (store x, x)

/-- An answer, with the question it was given to. -/
abbrev Reply : Type :=
  (q : Question) × q.Answer

namespace World

variable (w : World σ)

def run (q : Query α) (x : σ) : α × σ :=
  (Dialogue.run w.act q).run x

/-- **The answers that a query gets**, other than the files. -/
def replies : Query α → σ → List Reply
  | Dialogue.done _, _ => []
  | Dialogue.ask q next, x =>
    let (answer, y) := (w.act q).run x
    if q = .store then replies (next answer) y else ⟨q, answer⟩ :: replies (next answer) y

theorem run_ask (q : Question) (next : q.Answer → Query α) (x : σ) :
    w.run (Dialogue.ask q next) x = w.run (next ((w.act q).run x).1) ((w.act q).run x).2 := rfl

theorem run_store (next : Question.store.Answer → Query α) (x : σ) :
    w.run (Dialogue.ask .store next) x = w.run (next (w.store x)) x := by
  rw [run_ask, w.reads]

theorem replies_store (next : Question.store.Answer → Query α) (x : σ) :
    w.replies (Dialogue.ask .store next) x = w.replies (next (w.store x)) x := by
  rw [replies, w.reads]
  rfl

theorem replies_ask {q : Question} (hq : q ≠ .store) (next : q.Answer → Query α) (x : σ) :
    w.replies (Dialogue.ask q next) x = ⟨q, ((w.act q).run x).1⟩ ::
      w.replies (next ((w.act q).run x).1) ((w.act q).run x).2 :=
  if_neg hq

end World

/-! ## Replays -/

/-- **To replay a query:** the files stand still, and every other question gets the next answer of a
record, which must be an answer to that question. -/
def replay (store : Store) : (q : Question) → StateT (List Reply) Option q.Answer
  | .store => pure store
  | q => fun record =>
    match record with
    | [] => none
    | ⟨q', answer⟩ :: rest => if h : q' = q then some (h ▸ answer, rest) else none

theorem replay_cons (store : Store) {q : Question} (hq : q ≠ .store) (answer : q.Answer)
    (rest : List Reply) : (replay store q).run (⟨q, answer⟩ :: rest) = some (answer, rest) := by
  cases q with
  | store => exact absurd rfl hq
  | _ => exact dif_pos rfl

/-- **A query comes to what it started with:** replayed with the files at its start and the answers
that it got, it has the same result and uses them up. -/
def World.Replayed (w : World σ) (q : Query α) (x : σ) : Prop :=
  (Dialogue.run (replay (w.store x)) q).run (w.replies q x) = some ((w.run q x).1, [])

theorem run_replay {q : Query α} (h : q.Only (· ≠ .store)) (w : World σ) (store : Store) (x : σ) :
    (Dialogue.run (replay store) q).run (w.replies q x) = some ((w.run q x).1, []) := by
  induction q generalizing x with
  | done a => rfl
  | ask q next ih =>
    obtain ⟨hq, hnext⟩ := h
    rw [w.replies_ask hq, w.run_ask, Dialogue.run, StateT.run_bind, replay_cons store hq]
    exact ih _ (hnext _) _

/-- **A query that reads the files first** and never again. -/
def ReadsOnce (q : Query α) : Prop :=
  ∃ next, q = Dialogue.ask .store next ∧ ∀ store, (next store).Only (· ≠ .store)

theorem ReadsOnce.replayed {q : Query α} (h : ReadsOnce q) (w : World σ) (x : σ) :
    w.Replayed q x := by
  obtain ⟨next, rfl, hnext⟩ := h
  unfold World.Replayed
  rw [w.replies_store, w.run_store]
  exact run_replay (hnext _) w _ x

theorem ReadsOnce.always {q : Query α} (h : ReadsOnce q) (w : World σ) (x : σ) {P : α → Prop}
    (hq : q.Always (standing (w.store x)) P) : P (w.run q x).1 := by
  obtain ⟨next, rfl, hnext⟩ := h
  rw [w.run_store]
  refine (hq _ rfl).run_of_only (hnext _) (fun q y hne => ?_) x
  cases q with
  | store => exact absurd rfl hne
  | _ => trivial

/-! ## The queries for a position -/

theorem World.run_classNameAt (w : World σ) (pos : FilePosition) (x : σ) :
    w.run (classNameAt pos) x = ((w.store x).classNameAt pos, x) :=
  w.run_store (fun store => .done (store.classNameAt pos)) x

theorem World.replies_classNameAt (w : World σ) (pos : FilePosition) (x : σ) :
    w.replies (classNameAt pos) x = [] :=
  w.replies_store (fun store => .done (store.classNameAt pos)) x

theorem only_andThen {p : Question → Prop} (result : Outcome α) {next : α → Query (Outcome β)}
    (h : ∀ a, (next a).Only p) : (andThen result next).Only p := by
  cases result with
  | error e => trivial
  | ok a => exact h a

theorem only_orUnavailable {p : Question → Prop} (answer : Except HostError α)
    {next : α → Query (Outcome β)} (h : ∀ a, (next a).Only p) :
    (orUnavailable answer next).Only p := by
  cases answer with
  | error e => trivial
  | ok a => exact h a

theorem only_locationIn (config : Config) (target : CodeTarget) (type : RuntimeType) :
    (locationIn config target type).Only (· ≠ .store) := by
  unfold locationIn
  split_ifs
  · refine ⟨nofun, fun answer => only_orUnavailable answer fun declared => ?_⟩
    cases declared with
    | true => trivial
    | false => exact ⟨nofun, fun _ => trivial⟩
  · trivial
  · exact ⟨nofun, fun _ => trivial⟩

theorem only_locationsIn (config : Config) (target : CodeTarget) (types : List RuntimeType) :
    (locationsIn config target types).Only (· ≠ .store) := by
  induction types with
  | nil => trivial
  | cons type rest ih =>
    refine (only_locationIn config target type).bind fun found => only_andThen found fun _ => ?_
    exact ih.bind fun more => only_andThen more fun _ => trivial

theorem readsOnce_withTarget (config : Config) (pos : FilePosition)
    {next : CodeTarget → Query (Outcome (List RuntimeLocation))}
    (h : ∀ target, (next target).Only (· ≠ .store)) : ReadsOnce (withTarget config pos next) := by
  refine ⟨_, rfl, fun store => only_andThen (store.coverage config pos) fun coverage => ?_⟩
  cases coverage with
  | gap event => exact ⟨nofun, fun _ => trivial⟩
  | code target => exact h target

theorem readsOnce_runtimeLocations (config : Config) (pos : FilePosition) :
    ReadsOnce (runtimeLocations config pos) :=
  readsOnce_withTarget config pos fun target =>
    ⟨nofun, fun answer => only_orUnavailable answer (only_locationsIn config target)⟩

theorem readsOnce_locationsForType (config : Config) (type : RuntimeType) (pos : FilePosition) :
    ReadsOnce (locationsForType config type pos) :=
  readsOnce_withTarget config pos fun target =>
    (only_locationIn config target type).bind fun found => only_andThen found fun _ => trivial

theorem readsOnce_loadedClasses (pos : FilePosition) : ReadsOnce (loadedClasses pos) :=
  ⟨_, rfl, fun store => only_andThen (store.classNameAt pos) fun _ =>
    ⟨nofun, fun answer => only_orUnavailable answer fun _ => ⟨nofun, fun _ => trivial⟩⟩⟩

end Query

end DebugMap
