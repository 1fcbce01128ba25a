import DebugMap.Proofs.Manager.Working
import DebugMap.Proofs.Query.Agreement

/-!
# Deferred breakpoints

A breakpoint may be set in a class that is not loaded. The manager is asked for a watch on the class
around the position, and the breakpoint is completed when the process prepares the class.

Main statement: `breakpoint_completes`. However long the watch has waited, the process has one event
for it, whose dispatch calls the hook of the moment at which the watch was asked for, and the
position then has its location in the prepared type. What must not happen meanwhile is that the
watch is withdrawn, or fired by an event for another type of the class: a requestor that runs first
can prepare the class again and dispatch that event before (`breakpoint_completes_elsewhere`). The
process is asked for fewer than `2 ^ 31` requests, so that each watch has its own.
-/

set_option autoImplicit false

namespace DebugMap

open Watch

variable {η ρ : Type}

/-- **A breakpoint is deferred:** in `d` the manager is asked for a watch on the class around a
position. A run later it has returned this watch, which is armed. -/
structure Deferred (d : Debugger η ρ) (pos : FilePosition) (requestor : ρ)
    (t : List (Move (Callback η ρ))) (d' : Debugger η ρ) (w : WatchHandle) : Prop where
  asked : ∃ c s t', d.manager.prepareCall d.store pos requestor = .ok c ∧
    Takes d.watches ⟨d.watches.calls, .arm, .call c, d.watches.registry⟩ s ∧
    Working { d with watches := s } t' d' ∧
    t = ⟨d.watches.calls, .arm, .call c, d.watches.registry⟩ :: t'
  returned : @Returned (Callback η ρ) t d.watches.calls .arm (.ok w)
  armed : d'.watches.registry.state? w.id = some .armed
  /-- No detachment in progress has yet to cancel it. -/
  kept : ∀ p ∈ d'.watches.stack, p.op = .detach → w ∉ p.frame.rest

/-- **The calls that leave the manager for a watch**, in order. -/
def invocations (t : List (Move (Callback η ρ))) (id : WatchId) : List (Invocation η ρ) :=
  (firings t id).map fun x => x.1.invocation x.2

section
variable {d d' : Debugger η ρ} {t₀ t : List (Move (Callback η ρ))} {pos : FilePosition}
  {requestor : ρ} {w : WatchHandle} {name : String}

theorem Manager.prepareCall_eq {m : Manager η ρ} {store : Store}
    (hname : store.classNameAt pos = .ok name) {c : Call (Callback η ρ) .arm}
    (h : m.prepareCall store pos requestor = .ok c) :
    c = .arm name (.hooked m.hook pos requestor) := by
  rw [Manager.prepareCall, hname] at h
  exact (Except.ok.inj h).symm

theorem Deferred.working (h : Deferred d pos requestor t d' w) : Working d t d' := by
  obtain ⟨c, s, t', hc, hm, hwork, rfl⟩ := h.asked
  exact (Working.nil.call (.position hc) hm).append hwork

/-- Over a process that calls nothing back no detachment is in progress while it has nothing to
answer, as when it prepares a class; so `Deferred.kept` is no condition then. -/
theorem Working.not_detaching (hd : d.Fresh) (h : Working d t d') (hquiet : CallsNothingBack t)
    (hinner : ∀ p, d'.watches.stack.head? = some p →
      ∃ requestor type, p.frame.question = .run requestor type) :
    ∀ p ∈ d'.watches.stack, p.op ≠ .detach :=
  (h.simulated hd.simulated).run.not_detaching hquiet hinner

/-- **The watch of a deferred breakpoint** is on the armed list. It was made for the class around
the position, with the hook of the moment at which it was asked for. -/
theorem Deferred.waits (h : Deferred d pos requestor t d' w)
    (h₀ : Simulated t₀ d.watches d.process) (hname : d.store.classNameAt pos = .ok name)
    (hbinary : ClassName.binary? name = some name) :
    w.className = name ∧ Made (t₀ ++ t) w (.hooked d.hook pos requestor) ∧
      w ∈ d'.watches.registry.armed := by
  have hsim := h.working.simulated h₀
  obtain ⟨hin, m, hm, hn, callback, hmade⟩ :=
    hsim.listed h₀.run h.working.run h.returned h.armed h.kept
  have hm : m ∈ t₀ ++ t := List.mem_append_right _ hm
  obtain ⟨className, ⟨r, hcalled⟩, hclass⟩ := hsim.run.called_of_makes hm hmade
  -- the registration that made the watch is the one that was asked for
  obtain ⟨c, s, t', hc, -, -, ht⟩ := h.asked
  obtain rfl := Manager.prepareCall_eq hname hc
  have hasked : (⟨d.watches.calls, .arm, .call (.arm name (.hooked d.hook pos requestor)),
      d.watches.registry⟩ : Move (Callback η ρ)) ∈ t₀ ++ t :=
    List.mem_append_right _ (ht ▸ List.mem_cons_self)
  rw [hn] at hcalled
  cases hsim.run.calls_unique hasked hcalled
  exact ⟨Option.some.inj (hclass.symm.trans hbinary), ⟨m, hm, hmade⟩, hin⟩

end

/-- **The preparation of its class completes a deferred breakpoint.** The process has prepared the
type after the run `t`, with these methods and these events. -/
structure Completes (t : List (Move (Callback η ρ))) (d : Debugger η ρ) (pos : FilePosition)
    (hook : Hook η) (requestor : ρ) (w : WatchHandle) (name : String) (methods : List String)
    (type : RuntimeType) (events : List PrepareEvent) : Prop where
  named : type.name = name
  event : (events.filter fun e => e.request = w.request) = [⟨w.request, type⟩]
  fires : ∀ t' d', Working d t' d' → Served w ⟨w.request, type⟩ t' →
    d'.watches.registry.state? w.id = some .fired ∧
      invocations (t ++ t') w.id = [match hook with
        | .forward => .requestor requestor type
        | .custom hook => .hook hook type pos requestor]
  dispatches : ∀ es, es.Perm events → ∃ t' d', Working d t' d' ∧
    Delivers es d.watches t' d'.watches ∧ Served w ⟨w.request, type⟩ t'
  /-- As long as the position maps to an instruction of the class, in a method that the type
  declares if this is verified, it has the location of that instruction in the type. -/
  location : ∀ t' d', Working d t' d' → ∀ m x, d'.store.classNameAt pos = .ok name →
    d'.store.instructionAt? pos = some (m, x) →
    m.signature ∈ methods ∨ d'.config.verifyMethods = false →
    d'.surroundings.result (d'.manager.locationsOfLine type pos) =
      .ok [⟨type.id, type.name, m.name, m.descriptor, d'.config.codeIndex x.codeOffset⟩]

section
variable {d d' : Debugger η ρ} {t : List (Move (Callback η ρ))}

theorem Debugger.prepare_eq {x name : String} {methods : List String} {type : RuntimeType}
    {events : List PrepareEvent} (hx : ClassName.binary? x = some name)
    (h : d.prepare x methods = ((type, events), d')) :
    type.name = name ∧ events = d.process.eventsFor type ∧
      ⟨type, methods⟩ ∈ (d.process.load x methods).2.classes ∧
      d' = { d with process := (d.process.load x methods).2 } := by
  have hload : d.process.load x methods =
      (⟨⟨d.process.lastTypeId + 1⟩, name⟩, (d.process.load x methods).2) := by
    simp [Simulation.load, hx]
  rw [prepare, Simulation.prepare, hload] at h
  cases h
  refine ⟨rfl, rfl, ?_, rfl⟩
  simp [Simulation.load, hx]

theorem Simulation.type_of_mem_eventsFor {sim : Simulation} {type : RuntimeType} {e : PrepareEvent}
    (h : e ∈ sim.eventsFor type) : e.type = type := by
  obtain ⟨request, -, rfl⟩ := List.mem_map.1 h
  rfl

theorem Simulation.declares_of_mem {sim : Simulation} (hlive : sim.terminated = false)
    {type : RuntimeType} {methods : List String} (hloaded : ⟨type, methods⟩ ∈ sim.classes)
    {m : Smali.Method} (hm : m.signature ∈ methods) :
    sim.declares type m.name m.descriptor = .ok true := by
  have hany : (sim.classes.any fun c =>
      c.type.id = type.id && c.methods.contains (m.name ++ m.descriptor)) = true :=
    List.any_eq_true.2 ⟨_, hloaded, by simpa [Smali.Method.signature] using hm⟩
  rw [declares, hlive, hany]
  rfl

/-- **The location of a position in a loaded type of its class.** -/
theorem Debugger.locationsOfLine_eq {pos : FilePosition} {name : String} {methods : List String}
    {type : RuntimeType} (hlive : d.process.terminated = false)
    (hloaded : ⟨type, methods⟩ ∈ d.process.classes)
    (hclass : ClassName.binary? type.name = some name)
    (hname : d.store.classNameAt pos = .ok name) {m : Smali.Method} {x : Smali.Instruction}
    (hsome : d.store.instructionAt? pos = some (m, x))
    (hdeclared : m.signature ∈ methods ∨ d.config.verifyMethods = false) :
    d.surroundings.result (d.manager.locationsOfLine type pos) =
      .ok [⟨type.id, type.name, m.name, m.descriptor, d.config.codeIndex x.codeOffset⟩] := by
  show d.surroundings.result (Query.locationsForType d.config type pos) = _
  obtain ⟨hresult, -⟩ :=
    Query.Surroundings.locationsForType_of_some (s := d.surroundings) d.config hname hsome type
  have hspec : Query.Surroundings.InType d.surroundings d.config name m x type _ _ :=
    Query.Surroundings.inType_spec type
  rw [hresult]
  cases hverify : d.config.verifyMethods with
  | false => exact (hspec.unverified hclass hverify).1
  | true =>
    have hin : m.signature ∈ methods := hdeclared.resolve_right (by simp [hverify])
    have hdeclares : d.surroundings.process.declares type m.name m.descriptor = .ok true :=
      Simulation.declares_of_mem hlive hloaded hin
    rw [(hspec.verified hclass hverify).2, hdeclares]

end

/-- **A deferred breakpoint completes** when its class is prepared, by a process that has been asked
for fewer than `2 ^ 31` requests. -/
theorem breakpoint_completes {d d₀ d₁ d₂ : Debugger η ρ} {t₀ t₁ : List (Move (Callback η ρ))}
    {pos : FilePosition} {requestor : ρ} {w : WatchHandle} {name x : String} {methods : List String}
    {type : RuntimeType} {events : List PrepareEvent} (hd : d.Fresh) (h₀ : Working d t₀ d₀)
    (h₁ : Deferred d₀ pos requestor t₁ d₁ w) (hname : d₀.store.classNameAt pos = .ok name)
    (hbinary : ClassName.binary? name = some name) (hx : ClassName.binary? x = some name)
    (hprepare : d₁.prepare x methods = ((type, events), d₂)) :
    Completes (t₀ ++ t₁) d₂ pos d₀.hook requestor w name methods type events := by
  have hsim₀ : Simulated t₀ d₀.watches d₀.process := h₀.simulated hd.simulated
  have hsim₁ := h₁.working.simulated hsim₀
  obtain ⟨hclass, hmade, hin⟩ := h₁.waits hsim₀ hname hbinary
  obtain ⟨hnamed, rfl, hloaded, rfl⟩ := Debugger.prepare_eq hx hprepare
  have hsim₂ := hsim₁.load x methods
  have hevent := hsim₁.filter_eventsFor hin (hnamed.trans hclass.symm)
  have hawaits : w.awaits ⟨w.request, type⟩ = true := by
    simp [WatchHandle.awaits, hnamed, hbinary, hclass]
  refine ⟨hnamed, hevent, fun t' d' hwork hserved => ?_, fun es hes => ?_,
    fun t' d' hwork m i hname' hsome hdeclared => ?_⟩
  · have hsim' := hwork.simulated hsim₂
    obtain ⟨hfired, hcalls⟩ := hsim₁.run.served hwork.run hin
      (fun v _ hv heq => hsim'.eq_of_request hv (hmade.mono t') heq) hmade hawaits hserved
    refine ⟨hfired, ?_⟩
    rw [invocations, hcalls]
    cases d₀.hook <;> rfl
  · have hs := hsim₁.run.ordered
    obtain ⟨t', d', hwork, hdelivers⟩ := Working.exists_delivers
      (d := { d₁ with process := (d₁.process.load x methods).2 }) hs es
    have hmem : (⟨w.request, type⟩ : PrepareEvent) ∈ d₁.process.eventsFor type :=
      (List.mem_filter.1 (hevent ▸ List.mem_cons_self)).1
    exact ⟨t', d', hwork, hdelivers, hdelivers.served hs (hes.mem_iff.2 hmem) fun e he _ =>
      Simulation.type_of_mem_eventsFor (hes.mem_iff.1 he)⟩
  · exact Debugger.locationsOfLine_eq (hwork.simulated hsim₂).books.live
      (hwork.classes_subset hloaded) (hnamed ▸ hbinary) hname' hsome hdeclared

def fileOfA (codeOffset : UInt64) : SourceFile where
  path := "A.smali"
  text := ""
  content := .smali ⟨"LA;", ⟨0, 9⟩, [⟨"f", "()V", ⟨0, 9⟩, [⟨⟨0, 4⟩, codeOffset⟩]⟩]⟩

/-- While a watch waits for class A, its file is edited, the hook is replaced, and a watch for class
B is made and cancelled. -/
theorem breakpoint_completes_rehooked : ∃ (d d₁ d₂ : Debugger Nat Nat)
    (t₁ : List (Move (Callback Nat Nat))) (pos : FilePosition) (w : WatchHandle),
    d.Fresh ∧ Deferred d pos 1 t₁ d₁ w ∧ d₁.hook = .forward ∧
      d₁.prepare "LA;" ["f()V"] = ((⟨⟨1⟩, "A"⟩, [⟨⟨1⟩, ⟨⟨1⟩, "A"⟩⟩]), d₂) ∧
      d₂.surroundings.result (d₂.manager.locationsOfLine ⟨⟨1⟩, "A"⟩ pos) =
        .ok [⟨⟨1⟩, "A", "f", "()V", 1⟩] ∧
      Completes t₁ d₂ pos (.custom 7) 1 w "A" ["f()V"] ⟨⟨1⟩, "A"⟩ [⟨⟨1⟩, ⟨⟨1⟩, "A"⟩⟩] := by
  let d : Debugger Nat Nat :=
    { store := { files := [(⟨0⟩, fileOfA 0)], nextId := 1 }, hook := .custom 7 }
  let pos : FilePosition := ⟨⟨0⟩, 0, 1, .method 0⟩
  let asked : Session (Callback Nat Nat) :=
    ⟨{ inFlight := 1 }, [⟨0, .arm, .requesting "A" (.hooked (.custom 7) pos 1) 0⟩], 1⟩
  have hd : d.Fresh := ⟨rfl, rfl, rfl, rfl⟩
  have hname : d.store.classNameAt pos = .ok "A" := by decide +kernel
  have hc : d.manager.prepareCall d.store pos 1 = .ok (.arm "A" (.hooked (.custom 7) pos 1)) := by
    rw [Manager.prepareCall, hname]
    rfl
  have hm : Takes d.watches ⟨0, .arm, .call (.arm "A" (.hooked (.custom 7) pos 1)), {}⟩ asked :=
    .call _ _ _ _
  have h₁ := (Working.nil (d := { d with watches := asked })).answer (.answer _ _ _ _ _ _)
  have h₂ := ((h₁.edit (.set ⟨0⟩ (fileOfA 2))).rehook .forward).call (.watch "B" 2)
    (.call _ _ _ _)
  have h₃ := (h₂.answer (.answer _ _ _ _ _ _)).call (.cancel ⟨2⟩) (.call _ _ _ _)
  have h₄ := h₃.answer (.answer _ _ _ _ _ _)
  have hdeferred : Deferred d pos 1 _ _ ⟨⟨1⟩, "A", ⟨1⟩⟩ :=
    ⟨⟨_, asked, _, hc, hm, h₄, rfl⟩, ⟨_, _, List.mem_cons_of_mem _ List.mem_cons_self, rfl⟩, rfl,
      fun p hp => absurd hp List.not_mem_nil⟩
  have hcompletes : Completes _ _ pos (.custom 7) 1 _ "A" ["f()V"] ⟨⟨1⟩, "A"⟩
      [⟨⟨1⟩, ⟨⟨1⟩, "A"⟩⟩] :=
    breakpoint_completes (x := "LA;") hd .nil hdeferred hname (by decide +kernel)
      (by decide +kernel) rfl
  exact ⟨d, _, _, _, pos, _, hd, hdeferred, rfl, rfl, by decide +kernel, hcompletes⟩

/-- Two watches wait for class A. The requestor of the first, which runs before the event for the
second is dispatched, prepares the class again and dispatches the new event for the second. -/
theorem breakpoint_completes_elsewhere : ∃ (d d₀ d₁ d₂ d' : Debugger Nat Nat)
    (t₀ t₁ t' : List (Move (Callback Nat Nat))) (pos : FilePosition) (w : WatchHandle),
    d.Fresh ∧ Working d t₀ d₀ ∧ Deferred d₀ pos 1 t₁ d₁ w ∧ d₀.store.classNameAt pos = .ok "A" ∧
      ClassName.binary? "A" = some "A" ∧ d₁.prepare "A" [] =
        ((⟨⟨1⟩, "A"⟩, [⟨⟨1⟩, ⟨⟨1⟩, "A"⟩⟩, ⟨⟨2⟩, ⟨⟨1⟩, "A"⟩⟩]), d₂) ∧
      Working d₂ t' d' ∧ d'.watches.stack = [] ∧
      (∀ e ∈ [⟨⟨1⟩, ⟨⟨1⟩, "A"⟩⟩, ⟨w.request, ⟨⟨1⟩, "A"⟩⟩], ∃ n fired, Called t' n (.dispatch e) ∧
        @Returned _ t' n .dispatch fired) ∧
      (∀ m ∈ t', m.cause.withdraws w.id = false) ∧ d₀.hook = .forward ∧
      invocations (t₀ ++ t₁ ++ t') w.id = [.requestor 1 ⟨⟨2⟩, "A"⟩] := by
  let pos : FilePosition := ⟨⟨0⟩, 0, 1, .method 0⟩
  let v : WatchHandle := ⟨⟨1⟩, "A", ⟨1⟩⟩
  let w : WatchHandle := ⟨⟨2⟩, "A", ⟨2⟩⟩
  let one : Registry (Callback Nat Nat) :=
    { slots := [(v, .armed (.hooked .forward pos 0))], armed := [v], nextId := 2 }
  let both : Registry (Callback Nat Nat) :=
    { slots := [(v, .armed (.hooked .forward pos 0)), (w, .armed (.hooked .forward pos 1))]
      armed := [v, w]
      nextId := 3 }
  let d : Debugger Nat Nat := { store := { files := [(⟨0⟩, fileOfA 0)], nextId := 1 } }
  let d₀ : Debugger Nat Nat :=
    { d with watches := ⟨one, [], 1⟩, process := { requests := [(⟨1⟩, "A")], lastRequestId := 1 } }
  let asked : Session (Callback Nat Nat) :=
    ⟨{ one with inFlight := 1 }, [⟨1, .arm, .requesting "A" (.hooked .forward pos 1) 0⟩], 2⟩
  let d₁ : Debugger Nat Nat :=
    { d with
      watches := ⟨both, [], 2⟩
      process := { requests := [(⟨1⟩, "A"), (⟨2⟩, "A")], lastRequestId := 2 } }
  have hname : d.store.classNameAt pos = .ok "A" := by decide +kernel
  have hc : ∀ requestor, d.manager.prepareCall d.store pos requestor =
      .ok (.arm "A" (.hooked .forward pos requestor)) := by
    intro requestor
    rw [Manager.prepareCall, hname]
    rfl
  have h₀ : Working d _ d₀ := (Working.nil.call (.position (hc 0)) (.call _ _ _ _)).answer
    (.answer _ _ _ _ _ _)
  have hm : Takes d₀.watches ⟨1, .arm, .call (.arm "A" (.hooked .forward pos 1)), one⟩ asked :=
    .call _ _ _ _
  have h₁ : Working _ _ d₁ := (Working.nil (d := { d₀ with watches := asked })).answer
    (.answer _ _ _ _ _ _)
  have hdeferred : Deferred d₀ pos 1 _ d₁ w :=
    ⟨⟨_, asked, _, hc 1, hm, h₁, rfl⟩, ⟨_, _, List.mem_cons_of_mem _ List.mem_cons_self, rfl⟩, rfl,
      fun p hp => absurd hp List.not_mem_nil⟩
  have hfirst := ((Working.nil (d := (d₁.prepare "A" []).2)).call
    (.dispatch ⟨⟨1⟩, ⟨⟨1⟩, "A"⟩⟩) (.call _ _ _ _)).answer (.answer _ _ _ _ _ _)
  -- now the first requestor runs
  have hnested := ((hfirst.load "A" []).call (.dispatch ⟨⟨2⟩, ⟨⟨2⟩, "A"⟩⟩) (.call _ _ _ _)).answer
    (.answer _ _ _ _ _ _)
  have hran := (hnested.answer (.answer _ _ _ _ _ _)).answer (.answer _ _ _ _ _ _)
  have h' := hran.call (.dispatch ⟨⟨2⟩, ⟨⟨1⟩, "A"⟩⟩) (.call _ _ _ _)
  refine ⟨d, d₀, d₁, _, _, _, _, _, pos, w, ⟨rfl, rfl, rfl, rfl⟩, h₀, hdeferred, hname,
    by decide +kernel, rfl, h', rfl, ?_, ?_, rfl, rfl⟩
  · refine List.forall_mem_cons.2 ⟨⟨2, 1, ?_, ?_⟩, List.forall_mem_singleton.2 ⟨4, 0, ?_, ?_⟩⟩
    · exact ⟨_, List.mem_of_getElem? (i := 0) rfl⟩
    · exact ⟨_, _, List.mem_of_getElem? (i := 5) rfl, rfl⟩
    · exact ⟨_, List.mem_of_getElem? (i := 6) rfl⟩
    · exact ⟨_, _, List.mem_of_getElem? (i := 6) rfl, rfl⟩
  · simp [Cause.withdraws]

end DebugMap
