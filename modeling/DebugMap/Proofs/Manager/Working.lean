import DebugMap.Manager
import DebugMap.Proofs.Query.Result
import DebugMap.Proofs.Store.Edits
import DebugMap.Proofs.Watch.Waiting

/-!
# A debugger at work

A `Debugger` is a manager with all it works on: the files, an index of them, and a simulated
process. `Working` is a run of it, in which anything may change at any time, also while an operation
on watches waits: files, the index, the hook, the loaded types, and by further operations the
watches. Such a run is a run of the watches (`Working.run`) over a simulated process that serves
them alone (`Working.simulated`), so all that holds of these holds of a debugger at work. Conversely
events can be dispatched at any time (`Working.exists_delivers`).
-/

set_option autoImplicit false

namespace DebugMap

/-- **A debugger:** the state of a manager with what it works on. -/
structure Debugger (η ρ : Type) where
  store : Store := {}
  index : SymbolIndex := {}
  config : Config := {}
  hook : Hook η := .forward
  watches : Watch.Session (Callback η ρ) := {}
  process : Simulation := {}

namespace Debugger

variable {η ρ : Type}

def manager (d : Debugger η ρ) : Manager η ρ where
  config := d.config
  hook := d.hook
  watches := d.watches.registry

def surroundings (d : Debugger η ρ) : Query.Surroundings :=
  .indexed d.store d.index ⟨d.process.loadedTypes, d.process.declares⟩

def prepare (d : Debugger η ρ) (name : String) (methods : List String) :
    (RuntimeType × List PrepareEvent) × Debugger η ρ :=
  ((d.process.prepare name methods).1, { d with process := (d.process.prepare name methods).2 })

/-- **A debugger at the start:** there are no watches yet, and the process lives and has had no
requests. Files, index and loaded types may be any. -/
structure Fresh (d : Debugger η ρ) : Prop where
  watches : d.watches = {}
  live : d.process.terminated = false
  requests : d.process.requests = []
  cleared : d.process.cleared = []

/-- **The calls that are made of the watches:** by the manager, for the class around a position, and
by whoever uses them without it. -/
inductive Calls (d : Debugger η ρ) :
    {op : Watch.Operation} → Watch.Call (Callback η ρ) op → Prop where
  | position {pos : FilePosition} {requestor : ρ} {c : Watch.Call (Callback η ρ) .arm}
      (h : d.manager.prepareCall d.store pos requestor = .ok c) : d.Calls c
  | watch (className : String) (requestor : ρ) : d.Calls (.arm className (.plain requestor))
  | cancel (id : WatchId) : d.Calls (.cancel id)
  | dispatch (event : PrepareEvent) : d.Calls (.dispatch event)
  | detach : d.Calls .detach

end Debugger

open Watch

variable {η ρ : Type}

/-- **A run of a debugger**, with the moves of its watches. Queries, and requests for positions
without a class, change nothing and do not show. -/
inductive Working (d : Debugger η ρ) :
    List (Move (Callback η ρ)) → Debugger η ρ → Prop where
  | nil : Working d [] d
  | edit {t : List (Move (Callback η ρ))} {d' : Debugger η ρ} (h : Working d t d') (e : Edit) :
      Working d t { d' with store := (d'.store.apply e).2 }
  | reindex {t : List (Move (Callback η ρ))} {d' : Debugger η ρ} (h : Working d t d')
      (index : SymbolIndex) : Working d t { d' with index }
  | rehook {t : List (Move (Callback η ρ))} {d' : Debugger η ρ} (h : Working d t d')
      (hook : Hook η) : Working d t { d' with hook }
  | load {t : List (Move (Callback η ρ))} {d' : Debugger η ρ} (h : Working d t d')
      (name : String) (methods : List String) :
      Working d t { d' with process := (d'.process.load name methods).2 }
  | call {t : List (Move (Callback η ρ))} {d' : Debugger η ρ} {s : Session (Callback η ρ)} {n : Nat}
      {op : Operation} {c : Call (Callback η ρ) op} {r : Registry (Callback η ρ)}
      (h : Working d t d') (hc : d'.Calls c) (hm : Takes d'.watches ⟨n, op, .call c, r⟩ s) :
      Working d (t ++ [⟨n, op, .call c, r⟩]) { d' with watches := s }
  | answer {t : List (Move (Callback η ρ))} {d' : Debugger η ρ} {s : Session (Callback η ρ)}
      {n : Nat} {op : Operation} {f : Frame (Callback η ρ) op} {r : Registry (Callback η ρ)}
      (h : Working d t d')
      (hm : Takes d'.watches ⟨n, op, .answer f (f.question.attend d'.process).1, r⟩ s) :
      Working d (t ++ [⟨n, op, .answer f (f.question.attend d'.process).1, r⟩])
        { d' with watches := s, process := (f.question.attend d'.process).2 }

namespace Working

variable {d d' d'' : Debugger η ρ} {t t' : List (Move (Callback η ρ))}

theorem append (h : Working d t d') (h' : Working d' t' d'') : Working d (t ++ t') d'' := by
  induction h' with
  | nil => exact (List.append_nil t).symm ▸ h
  | edit _ e ih => exact ih.edit e
  | reindex _ index ih => exact ih.reindex index
  | rehook _ hook ih => exact ih.rehook hook
  | load _ name methods ih => exact ih.load name methods
  | call _ hc hm ih =>
    rw [← List.append_assoc]
    exact ih.call hc hm
  | answer _ hm ih =>
    rw [← List.append_assoc]
    exact ih.answer hm

/-- **The watches of a debugger at work** take a run. -/
theorem run (h : Working d t d') : Run d.watches t d'.watches := by
  induction h with
  | nil => exact .nil
  | edit _ _ ih | reindex _ _ ih | rehook _ _ ih | load _ _ _ ih => exact ih
  | call _ _ hm ih | answer _ hm ih => exact ih.snoc hm

/-- **The process serves the watches alone**, as it did before. -/
theorem simulated (h : Working d t d') {t₀ : List (Move (Callback η ρ))}
    (h₀ : Simulated t₀ d.watches d.process) : Simulated (t₀ ++ t) d'.watches d'.process := by
  induction h with
  | nil => exact (List.append_nil t₀).symm ▸ h₀
  | edit _ _ ih | reindex _ _ ih | rehook _ _ ih => exact ih
  | load _ name methods ih => exact ih.load name methods
  | call _ _ hm ih =>
    rw [← List.append_assoc]
    exact ih.call hm
  | answer _ hm ih =>
    rw [← List.append_assoc]
    exact ih.answer hm

end Working

theorem Watch.Question.classes_attend (q : Question ρ) (sim : Simulation) :
    (q.attend sim).2.classes = sim.classes := by
  cases q with
  | request className =>
    show (sim.request className).2.classes = _
    unfold Simulation.request
    split <;> rfl
  | clear id =>
    show (sim.clear id).classes = _
    unfold Simulation.clear
    split <;> rfl
  | run => rfl

namespace Working

variable {d d' d'' : Debugger η ρ} {t t' : List (Move (Callback η ρ))}

theorem classes_subset (h : Working d t d') : d.process.classes ⊆ d'.process.classes := by
  induction h with
  | nil => exact List.Subset.refl _
  | edit _ _ ih | reindex _ _ ih | rehook _ _ ih | call _ _ _ ih => exact ih
  | load _ name methods ih => exact List.Subset.trans ih (List.subset_append_left _ _)
  | answer _ _ ih =>
    rw [Question.classes_attend]
    exact ih

/-- A dispatch gets no answers that tell it anything, so its moves are possible over every
process. -/
theorem of_dispatches {s : Session (Callback η ρ)} (h : Run d.watches t s)
    (hops : ∀ m ∈ t, m.op = .dispatch) : ∃ d', Working d t d' ∧ d'.watches = s := by
  induction h with
  | nil => exact ⟨d, .nil, rfl⟩
  | @snoc t s₁ s₂ m h hm ih =>
    obtain ⟨d₁, h₁, rfl⟩ := ih fun m hm => hops m (List.mem_append_left _ hm)
    have hop := hops m (List.mem_append_right _ List.mem_cons_self)
    obtain ⟨n, op, c, r⟩ := m
    obtain rfl : op = .dispatch := hop
    cases c with
    | call c =>
      cases c with
      | dispatch event => exact ⟨_, h₁.call (.dispatch event) hm, rfl⟩
    | answer f a =>
      obtain rfl : a = (f.question.attend d₁.process).1 := by cases f <;> rfl
      exact ⟨_, h₁.answer hm, rfl⟩

/-- **Events can be dispatched** one after the other at any time. -/
theorem exists_delivers (hs : d.watches.Ordered) (es : List PrepareEvent) :
    ∃ t d', Working d t d' ∧ Delivers es d.watches t d'.watches := by
  obtain ⟨t, s, h⟩ := Watch.delivers_exists hs es
  obtain ⟨d', h', rfl⟩ := of_dispatches h.run (h.op_eq hs)
  exact ⟨t, d', h', h⟩

end Working

theorem Debugger.Fresh.simulated {d : Debugger η ρ} (h : d.Fresh) :
    Simulated [] d.watches d.process :=
  h.watches ▸ .start h.live h.requests h.cleared

end DebugMap
