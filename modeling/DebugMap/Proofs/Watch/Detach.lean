import DebugMap.Proofs.Watch.Alone
import DebugMap.Proofs.Watch.OneShot

/-!
# What a detachment does not reach

A detachment cancels the watches on the armed list. A dispatch in progress has taken its own watches
off that list, so a detachment within it passes them by, and the dispatch fires them after the
detachment has returned: `detach_not_final` is a run in which it does.

Main statement: `spared_iff`, by which these are the only watches, with the one that the dispatch
has just fired, whose requestors start after a detachment has returned. `Safe` is what a detachment
makes of all other watches and every later step keeps; for the watches of a dispatch in progress,
`exists_unwound` and `exists_start` take the run on to where the requestor starts.
-/

set_option autoImplicit false

namespace DebugMap.Watch

variable {ρ : Type}

/-- **After a detachment that is called now, the requestor of a watch never starts** once the
detachment has returned. -/
def Spared (s : Session ρ) (w : WatchHandle) : Prop :=
  ∀ t s', Run s (⟨s.calls, .detach, .call .detach, s.registry⟩ :: t) s' →
    ∀ k, @Returned ρ (⟨s.calls, .detach, .call .detach, s.registry⟩ :: t) s.calls .detach k →
      ∀ t' s'', Run s' t' s'' → starts t' w.id = 0

/-- **A dispatch in progress is yet to run the requestor of a watch**: it has fired the watch and
clears the request, or it has the watch on its list and the watch is still armed. -/
def Frame.mayRun (r : Registry ρ) (w : WatchHandle) : {op : Operation} → Frame ρ op → Prop
  | _, .clearingFired v _ _ rest _ => v = w ∨ w ∈ rest ∧ r.state? w.id = some .armed
  | _, .runningFired _ _ _ rest _ => w ∈ rest ∧ r.state? w.id = some .armed
  | _, _ => False

/-! ## Watches that are safe -/

def toFire (stack : List (Pending ρ)) : List WatchHandle :=
  stack.flatMap fun p => p.frame.toFire

theorem toFire_onStack {op : Operation} (n : Nat) (f : Option (Frame ρ op))
    (stack : List (Pending ρ)) :
    toFire (onStack n f ++ stack) = f.elim [] Frame.toFire ++ toFire stack := by
  cases f <;> rfl

/-- **A watch whose requestor never starts any more:** it is not due, and while it is armed it is
neither on the armed list nor on that of a dispatch. -/
structure Safe (w : WatchHandle) (r : Registry ρ) (due : List (WatchHandle × ρ))
    (toFire : List WatchHandle) : Prop where
  known : r.handle? w.id = some w
  due : ∀ e ∈ due, e.1.id ≠ w.id
  off : r.state? w.id = some .armed → w ∉ r.armed ∧ w ∉ toFire

section
variable {r r' : Registry ρ} {ws vs : List WatchHandle} {op : Operation} {c : Cause ρ op}
  {next : Next ρ op}

theorem Fires.toFire {type : RuntimeType} {fired : Nat} {next : Next ρ .dispatch}
    (hf : Fires type fired ws r r' next) : next.frame?.elim [] Frame.toFire ⊆ ws := by
  rcases hn : next.frame? with _ | f
  · exact List.nil_subset _
  · obtain ⟨w, requestor, rest, rfl, hmem, -⟩ := hf.frame_eq hn
    exact fun v hv => hmem v (List.mem_cons_of_mem _ hv)

theorem Drains.toFire {cancelled : Nat} {next : Next ρ .detach}
    (hd : Drains cancelled ws r r' next) : next.frame?.elim [] Frame.toFire = [] := by
  cases hd <;> rfl

theorem Effect.toFire (he : Effect r c r' next) {v : WatchHandle}
    (hv : v ∈ next.frame?.elim [] Frame.toFire) :
    v ∈ r.armed ∨ v ∈ c.frame?.elim [] Frame.toFire := by
  cases he with
  | offers _ fires => exact .inl (List.mem_filter.1 (fires.toFire hv)).1
  | ranFired fires => exact .inr (fires.toFire hv)
  | clearedFired => exact .inr hv
  | detaches drains => simp [drains.toFire] at hv
  | clearedDrained drains => simp [drains.toFire] at hv
  | _ => cases hv

theorem Effect.mem_armed (he : Effect r c r' next) {v : WatchHandle} (hv : v ∈ r'.armed) :
    v ∈ r.armed ∨ ∃ requestor, c.makes r = some (v, requestor) := by
  cases he with
  | cancels _ _ => exact .inl (List.mem_filter.1 hv).1
  | offers _ fires =>
    rw [fires.armed_eq] at hv
    exact .inl (List.mem_filter.1 hv).1
  | detaches drains =>
    rw [drains.armed_eq] at hv
    cases hv
  | arms _ _ =>
    rcases List.mem_append.1 hv with hv | hv
    · exact .inl hv
    · rw [List.mem_singleton.1 hv]
      exact .inr ⟨_, rfl⟩
  | ranFired fires => exact .inl (fires.armed_eq ▸ hv)
  | clearedDrained drains => exact .inl (drains.armed_eq ▸ hv)
  | _ => exact .inl hv

theorem Cause.id_of_makes {e : WatchHandle × ρ} (h : c.makes r = some e) : e.1.id = ⟨r.nextId⟩ := by
  cases c with
  | call c => cases h
  | answer f a =>
    cases f with
    | requesting name requestor epoch =>
      rcases a with _ | request
      · cases h
      · cases h
        rfl
    | _ => cases h

/-- **Each step keeps a watch safe.** -/
theorem Effect.safe (he : Effect r c r' next) {q : Nat} {es : List (WatchHandle × WatchState)}
    {ds : List (WatchHandle × ρ)} (hr : Sound r q (c.frame?.elim [] Frame.rest ++ vs) es)
    {w : WatchHandle} (h : Safe w r (c.frame?.elim [] Frame.due ++ ds)
      (c.frame?.elim [] Frame.toFire ++ ws)) :
    Safe w r' (next.frame?.elim [] Frame.due ++ ds) (next.frame?.elim [] Frame.toFire ++ ws) := by
  have hslots := he.slots
  have hnew : ∀ {v : WatchHandle}, v.id = ⟨r.nextId⟩ → v.id ≠ w.id := fun hv hid =>
    Sound.id_ne_made hr.numbered hv h.known hid.symm
  refine ⟨hslots.handle? hr.numbered h.known, fun e hd hid => ?_, fun ha => ?_⟩
  · rcases List.mem_append.1 hd with hd | hd
    · rcases he.due hd with hd | ⟨hmem, harmed⟩ | hm
      · exact h.due e (List.mem_append_left _ hd) hid
      · -- the watch would have been fired from a list that it is not on
        have hw : e.1 = w := Sound.eq_of_id (hr.handle_of_due hmem) h.known hid
        rw [hw] at harmed hmem
        obtain ⟨hout, hfree⟩ := h.off (Registry.state?_of_slot? harmed)
        exact hmem.elim hout fun hin => hfree (List.mem_append_left _ hin)
      · exact hnew (Cause.id_of_makes hm) hid
    · exact h.due e (List.mem_append_right _ hd) hid
  · obtain ⟨hout, hfree⟩ := h.off (hslots.armed_before hr.numbered h.known ha)
    refine ⟨fun hin => ?_, fun hin => ?_⟩
    · rcases he.mem_armed hin with hin | ⟨requestor, hm⟩
      · exact hout hin
      · exact hnew (Cause.id_of_makes hm) rfl
    · rcases List.mem_append.1 hin with hin | hin
      · rcases he.toFire hin with hin | hin
        · exact hout hin
        · exact hfree (List.mem_append_left _ hin)
      · exact hfree (List.mem_append_right _ hin)

end

/-- **The requestor of a safe watch never starts.** -/
theorem Run.starts_of_safe {s s' : Session ρ} {t : List (Move ρ)} (h : Run s t s') (hs : s.Sound)
    {w : WatchHandle} (hw : Safe w s.registry (due s.stack) (toFire s.stack)) :
    starts t w.id = 0 := by
  refine (h.keeps_sound hs (P := fun t r stack =>
      Safe w r (due stack) (toFire stack) ∧ starts t w.id = 0)
    (fun {op} t c r n rest he hr ⟨hw, ht⟩ => ?_) ⟨hw, rfl⟩).2.2
  rw [due_onStack, toFire_onStack] at hw ⊢
  refine ⟨he.safe hr hw, ?_⟩
  rw [starts_concat, ht, Nat.zero_add]
  rcases hst : (⟨n, op, c, r⟩ : Move ρ).starts with _ | ⟨v, requestor, type⟩
  · rfl
  · obtain ⟨hd, -⟩ := he.starts hst
    have := hw.due _ (List.mem_append_left _ hd)
    simpa using this

/-! ## Watches that have been returned -/

/-- The watch that a registration has made and is yet to return. -/
def Frame.fresh {op : Operation} : Frame ρ op → List WatchHandle
  | .clearingDetached w => [w]
  | .clearingEarly w _ _ => [w]
  | .runningEarly w _ _ => [w]
  | _ => []

def fresh (stack : List (Pending ρ)) : List WatchHandle :=
  stack.flatMap fun p => p.frame.fresh

def returned (t : List (Move ρ)) : List WatchHandle :=
  t.filterMap fun m => m.next.watch?

theorem fresh_onStack {op : Operation} (n : Nat) (f : Option (Frame ρ op))
    (stack : List (Pending ρ)) :
    fresh (onStack n f ++ stack) = f.elim [] Frame.fresh ++ fresh stack := by
  cases f <;> rfl

theorem returned_concat (t : List (Move ρ)) (m : Move ρ) :
    returned (t ++ [m]) = returned t ++ m.next.watch?.toList := by
  rw [returned, List.filterMap_append, ← returned]
  cases h : m.next.watch? <;> simp [h]

theorem mem_returned {t : List (Move ρ)} {n : Nat} {w : WatchHandle}
    (h : @Returned ρ t n .arm (.ok w)) : w ∈ returned t := by
  obtain ⟨c, r, hm, hret⟩ := h
  exact List.mem_filterMap.2 ⟨_, hm, congrArg Next.watch? hret⟩

section
variable {r r' : Registry ρ} {op : Operation} {c : Cause ρ op} {next : Next ρ op}

theorem Effect.fresh (he : Effect r c r' next) :
    next.watch?.toList ++ next.frame?.elim [] Frame.fresh =
      c.frame?.elim [] Frame.fresh ++ (c.makes r).toList.map Prod.fst := by
  cases he with
  | offers _ fires => cases fires <;> rfl
  | detaches drains => cases drains <;> rfl
  | ranFired fires => cases fires <;> rfl
  | clearedDrained drains => cases drains <;> rfl
  | _ => rfl

theorem Effect.handle_made (he : Effect r c r' next) (hr : r.Numbered) {e : WatchHandle × ρ}
    (hm : c.makes r = some e) : r'.handle? e.1.id = some e.1 := by
  cases he with
  | overtaken _ | catches _ _ | arms _ _ =>
    cases hm
    exact (Registry.handle?_addWatch (Sound.slot?_made hr rfl) _ _).trans (if_pos rfl)
  | _ => cases hm

end

/-- **Each watch is returned once**, and it is in the registry then. -/
theorem Run.returned_known {s : Session ρ} {t : List (Move ρ)} (h : Run {} t s) :
    (returned t ++ fresh s.stack).Nodup ∧
      ∀ w ∈ returned t ++ fresh s.stack, s.registry.handle? w.id = some w := by
  refine (h.keeps_sound .empty (P := fun t r stack =>
      (returned t ++ Watch.fresh stack).Nodup ∧
        ∀ w ∈ returned t ++ Watch.fresh stack, r.handle? w.id = some w)
    (fun {op} t c r n rest he hr ⟨hnodup, hknown⟩ => ?_) ⟨.nil, by simp [returned, fresh]⟩).2
  rw [fresh_onStack] at hnodup hknown ⊢
  have hlist : returned (t ++ [⟨n, op, c, r⟩]) ++
      ((c.step r).next.frame?.elim [] Frame.fresh ++ Watch.fresh rest) =
        returned t ++ (c.frame?.elim [] Frame.fresh ++
          ((c.makes r).toList.map Prod.fst ++ Watch.fresh rest)) := by
    rw [returned_concat, List.append_assoc]
    change returned t ++ ((c.step r).next.watch?.toList ++ (_ ++ _)) = _
    rw [← List.append_assoc (c.step r).next.watch?.toList, he.fresh, List.append_assoc]
  rw [hlist]
  have hkeep : ∀ w ∈ returned t ++ (c.frame?.elim [] Frame.fresh ++ Watch.fresh rest),
      (c.step r).registry.handle? w.id = some w := fun w hw =>
    he.slots.handle? hr.numbered (hknown w hw)
  rcases hm : c.makes r with _ | e
  · exact ⟨hnodup, hkeep⟩
  · have hperm : (returned t ++ (c.frame?.elim [] Frame.fresh ++ ([e.1] ++ Watch.fresh rest))).Perm
        (e.1 :: (returned t ++ (c.frame?.elim [] Frame.fresh ++ Watch.fresh rest))) := by
      rw [List.singleton_append, ← List.append_assoc, ← List.append_assoc]
      exact List.perm_middle
    have hnew : e.1 ∉ returned t ++ (c.frame?.elim [] Frame.fresh ++ Watch.fresh rest) := fun hin =>
      Sound.id_ne_made hr.numbered (Cause.id_of_makes hm) (hknown _ hin) rfl
    refine ⟨hperm.nodup_iff.2 (List.nodup_cons.2 ⟨hnew, hnodup⟩), fun w hw => ?_⟩
    rcases List.mem_cons.1 (hperm.subset hw) with rfl | hw
    · exact he.handle_made hr.numbered hm
    · exact hkeep w hw

theorem Frame.fresh_or_mayRun {op : Operation} {f : Frame ρ op} {e : WatchHandle × ρ}
    (h : e ∈ f.due) (r : Registry ρ) : e.1 ∈ f.fresh ∨ f.mayRun r e.1 := by
  cases f with
  | clearingEarly w requestor type =>
    obtain rfl := List.mem_singleton.1 h
    exact .inl List.mem_cons_self
  | clearingFired w requestor type rest fired =>
    obtain rfl := List.mem_singleton.1 h
    exact .inr (.inl rfl)
  | _ => cases h

theorem Frame.ended_of_due {op : Operation} {f : Frame ρ op} {e : WatchHandle × ρ}
    (h : e ∈ f.due) : (e.1, .fired) ∈ f.ended := by
  cases f with
  | clearingEarly | clearingFired =>
    obtain rfl := List.mem_singleton.1 h
    exact List.mem_cons_self
  | _ => cases h

theorem Frame.mayRun_of_mem_toFire {op : Operation} {f : Frame ρ op} {r : Registry ρ}
    {w : WatchHandle} (h : w ∈ f.toFire) (ha : r.state? w.id = some .armed) : f.mayRun r w := by
  cases f with
  | clearingFired => exact .inr ⟨h, ha⟩
  | runningFired => exact ⟨h, ha⟩
  | _ => cases h

/-- **A detachment makes safe** every watch that no dispatch in progress is yet to run. -/
theorem safe_of_detach {s s₁ : Session ρ} {t : List (Move ρ)} (h : Run {} t s) {n : Nat}
    {w : WatchHandle} (hw : @Returned ρ t n .arm (.ok w))
    (hnone : ∀ p ∈ s.stack, ¬ p.frame.mayRun s.registry w)
    (hd : Takes s ⟨s.calls, .detach, .call .detach, s.registry⟩ s₁) :
    Safe w s₁.registry (due s₁.stack) (toFire s₁.stack) := by
  obtain ⟨hnodup, hknown⟩ := h.returned_known
  have hr := h.invariant
  have hmem := mem_returned hw
  have hw' := hknown w (List.mem_append_left _ hmem)
  obtain ⟨-, -, rfl⟩ := hd.call_eq
  have he := effect_start (Call.detach : Call ρ .detach) s.registry
  rw [due_onStack, toFire_onStack]
  generalize ((Call.detach : Call ρ .detach).start s.registry).registry = r',
    ((Call.detach : Call ρ .detach).start s.registry).next = next at he
  have hslots := he.slots
  cases he with
  | detaches drains =>
    rw [drains.due, drains.toFire, List.nil_append, List.nil_append]
    refine ⟨hslots.handle? hr.numbered hw', fun e he hid => ?_, fun ha => ⟨?_, fun hin => ?_⟩⟩
    · obtain ⟨p, hp, he⟩ := List.mem_flatMap.1 he
      obtain ⟨-, hknown', -⟩ :=
        hr.ended _ (List.mem_flatMap.2 ⟨p, hp, Frame.ended_of_due he⟩)
      obtain rfl : e.1 = w := Sound.eq_of_id hknown' hw' hid
      rcases Frame.fresh_or_mayRun he s.registry with hfresh | hmay
      · exact (List.nodup_append.1 hnodup).2.2 _ hmem _ (List.mem_flatMap.2 ⟨p, hp, hfresh⟩) rfl
      · exact hnone p hp hmay
    · rw [drains.armed_eq]
      exact List.not_mem_nil
    · obtain ⟨p, hp, hin⟩ := List.mem_flatMap.1 hin
      exact hnone p hp
        (Frame.mayRun_of_mem_toFire hin (hslots.armed_before hr.numbered hw' ha))

/-! ## Watches that are not -/

section
variable {r r' : Registry ρ} {ws vs : List WatchHandle} {w : WatchHandle}

/-- **A step leaves alone what is on another operation's list**, unless it is the call that cancels
the watch. -/
theorem Effect.slot?_eq {op : Operation} {c : Cause ρ op} {next : Next ρ op}
    (he : Effect r c r' next) {q : Nat} {es : List (WatchHandle × WatchState)}
    (hr : Sound r q (c.frame?.elim [] Frame.rest ++ ws) es) (hw : w ∈ ws)
    (hc : c.frame?.isSome ∨ op ≠ .cancel) : r'.slot? w.id = r.slot? w.id := by
  have hknown := hr.known w (List.mem_append_right _ hw)
  have happart := List.nodup_append.1 hr.apart
  -- the armed list and the operation's own list have no watch with this id
  have harmed : ∀ v ∈ r.armed, v.id ≠ w.id := fun v hv hid =>
    happart.2.2 v hv w (List.mem_append_right _ hw) (Sound.eq_of_id (hr.handle_armed hv) hknown hid)
  have hrest : ∀ v ∈ c.frame?.elim [] Frame.rest, v.id ≠ w.id := fun v hv hid =>
    (List.nodup_append.1 happart.2.1).2.2 v hv w hw
      (Sound.eq_of_id (hr.known v (List.mem_append_left _ hv)) hknown hid)
  have hmade : ∀ (v : WatchHandle) (x : Slot ρ), v.id = ⟨r.nextId⟩ →
      (r.addWatch v x).slot? w.id = r.slot? w.id := fun v x hv => by
    rw [Registry.slot?_addWatch (Sound.slot?_made hr.numbered hv),
      if_neg (Sound.id_ne_made hr.numbered hv hknown)]
  cases he with
  | cancels _ _ => exact absurd rfl (hc.resolve_left Bool.false_ne_true)
  | offers _ fires => exact fires.slot?_eq fun v hv => harmed v (List.mem_filter.1 hv).1
  | detaches drains => exact drains.slot?_eq harmed
  | overtaken _ => exact hmade _ _ rfl
  | catches _ _ => exact hmade _ _ rfl
  | arms _ _ => exact hmade _ _ rfl
  | ranFired fires => exact fires.slot?_eq hrest
  | clearedDrained drains => exact drains.slot?_eq hrest
  | _ => rfl

end

section
variable {r r' : Registry ρ} {ws : List WatchHandle} {w : WatchHandle} {op : Operation}

theorem Effect.state?_loose {c : Cause ρ op} {next : Next ρ op} (he : Effect r c r' next) {q : Nat}
    {es : List (WatchHandle × WatchState)} (hr : Sound r q (c.frame?.elim [] Frame.rest ++ ws) es)
    (hw : w ∈ ws) (n : Nat) : r'.state? w.id = r.state? w.id ∨
      (⟨n, op, c, r⟩ : Move ρ) = ⟨n, .cancel, .call (.cancel w.id), r⟩ := by
  by_cases hc : c.frame?.isSome ∨ op ≠ .cancel
  · rw [Registry.state?_eq, he.slot?_eq hr hw hc]
    exact .inl rfl
  · cases he with
    | @cancels id _ _ _ _ =>
      by_cases hid : w.id = id
      · rw [hid]
        exact .inr rfl
      · exact .inl (Registry.state?_setSlot_ne hid _)
    | leaves => exact .inl rfl
    | _ => exact absurd (by simp [Cause.frame?]) hc

theorem Frame.mayRun_or_ended {f : Frame ρ op} (hf : f.mayRun r w) (r' : Registry ρ) :
    f.mayRun r' w ∨
      w ∈ f.rest ∧ r.state? w.id = some .armed ∧ r'.state? w.id ≠ some .armed := by
  by_cases ha : r'.state? w.id = some .armed
  · left
    cases f with
    | clearingFired => exact hf.imp_right fun hf => ⟨hf.1, ha⟩
    | runningFired => exact ⟨hf.1, ha⟩
    | _ => cases hf
  · cases f with
    | clearingFired => exact hf.imp .inl fun hf => ⟨hf.1, hf.2, ha⟩
    | runningFired => exact .inr ⟨hf.1, hf.2, ha⟩
    | _ => cases hf

end

section
variable {s s' : Session ρ} {m : Move ρ} {t : List (Move ρ)} {w : WatchHandle}

theorem Takes.slot?_eq {rest : List (Pending ρ)} (h : Takes s m s') (hr : s.Sound)
    (hst : s.stack = onStack m.number m.cause.frame? ++ rest) (hw : w ∈ loose rest)
    (hc : m.cause.frame?.isSome ∨ m.op ≠ .cancel) :
    s'.registry.slot? w.id = s.registry.slot? w.id := by
  have hr' : Sound s.registry (requests s.stack) (loose s.stack) (ended s.stack) := hr
  obtain ⟨-, hreg, -, hreg', -⟩ := h.shape
  rw [hst, loose_onStack, hreg] at hr'
  rw [hreg', hreg]
  exact (effect_step m.cause m.before).slot?_eq hr' hw hc

theorem Alone.slot?_eq (h : Alone s m t s') (hs : s.Ordered) (hr : s.Sound)
    (hw : w ∈ loose s'.stack) (hc : m.cause.frame?.isSome ∨ m.op ≠ .cancel) :
    s'.registry.slot? w.id = s.registry.slot? w.id := by
  induction t generalizing s m with
  | nil =>
    obtain ⟨s₁, htakes, ht⟩ := run_cons_iff.1 h.run
    obtain rfl := run_nil_iff.1 ht
    exact htakes.slot?_eq hr (h.stack_eq hs) hw hc
  | cons m₁ t ih =>
    rcases h.cases hs with ⟨-, ht, -⟩ | ⟨f, a, t', s₁, hf, ht, htakes, halone⟩
    · cases ht
    · cases ht
      rw [ih halone (htakes.ordered hs) (htakes.run.sound hr) (.inl rfl)]
      exact htakes.slot?_eq hr (h.stack_eq hs) hw hc

/-- **The operations above another one can all return**, and what is on the lists below stays. -/
theorem exists_unwound {above below : List (Pending ρ)} (hs : s.Ordered) (hr : s.Sound)
    (hst : s.stack = above ++ below) : ∃ t s', Run s t s' ∧ s'.stack = below ∧
      ∀ w ∈ loose below, s'.registry.slot? w.id = s.registry.slot? w.id := by
  induction above generalizing s with
  | nil => exact ⟨[], s, .nil, hst, fun _ _ => rfl⟩
  | cons p above ih =>
    obtain ⟨r, stack, n⟩ := s
    obtain rfl : stack = p :: (above ++ below) := hst
    obtain ⟨t, s₁, halone⟩ :=
      (Takes.answer r (above ++ below) n p.number p.frame p.frame.question.anyAnswer).alone hs
    have hst₁ : above ++ below = s₁.stack := (List.cons.inj (halone.stack_eq hs)).2
    obtain ⟨t', s', hrun, hst', hslot⟩ :=
      ih (halone.run.numbers hs) (halone.run.sound hr) hst₁.symm
    refine ⟨_, s', halone.run.append hrun, hst', fun w hw => ?_⟩
    have hw' : w ∈ loose s₁.stack := by
      rw [← hst₁, loose, List.flatMap_append]
      exact List.mem_append_right _ hw
    rw [hslot w hw]
    exact halone.slot?_eq hs hr hw' (.inl rfl)

end

theorem Fires.mayRun {r r' : Registry ρ} {vs : List WatchHandle} {w : WatchHandle}
    {type : RuntimeType} {fired : Nat} {next : Next ρ .dispatch} (hf : Fires type fired vs r r' next)
    (hvs : ∀ v ∈ vs, r.handle? v.id = some v) (hw : w ∈ vs) (ha : r.state? w.id = some .armed) :
    ∃ f, next = .waits f ∧ f.mayRun r' w := by
  cases hf with
  | done idle => exact absurd ha (idle w hw)
  | @next skipped rest v requestor split idle armed =>
    refine ⟨_, rfl, ?_⟩
    by_cases hvw : v = w
    · exact .inl hvw
    · have hv := hvs v (split ▸ List.mem_append_right _ List.mem_cons_self)
      have hne : w.id ≠ v.id := fun hid => hvw (Sound.eq_of_id hv (hvs w hw) hid.symm)
      refine .inr ⟨?_, by rw [Registry.state?_setSlot_ne hne, ha]⟩
      rw [split] at hw
      rcases List.mem_append.1 hw with hw | hw
      · exact absurd ha (idle w hw)
      · exact (List.mem_cons.1 hw).resolve_left (Ne.symm hvw)

/-- **A dispatch gets on with a watch it is yet to run**: it starts the requestor or comes nearer to
it. -/
theorem Frame.mayRun_step {r : Registry ρ} {q : Nat} {ws : List WatchHandle}
    {es : List (WatchHandle × WatchState)} {w : WatchHandle} {op : Operation} {f : Frame ρ op}
    (a : f.question.Answer) (hr : Sound r q (f.rest ++ ws) es) (hf : f.mayRun r w) :
    (∃ requestor type, (f.resume a r).next.starts = some (w, requestor, type)) ∨
      ∃ f', (f.resume a r).next = .waits f' ∧ f'.mayRun (f.resume a r).registry w := by
  cases f with
  | clearingFired v requestor type rest fired =>
    rcases hf with rfl | hf
    · exact .inl ⟨requestor, type, rfl⟩
    · exact .inr ⟨_, rfl, hf⟩
  | runningFired v requestor type rest fired =>
    exact .inr ((fires_fireNext type (fired + 1) rest r).mayRun
      (fun v hv => hr.known v (List.mem_append_left _ hv)) hf.1 hf.2)
  | _ => cases hf

theorem starts_cons (m : Move ρ) (t : List (Move ρ)) (id : WatchId) :
    starts (m :: t) id = (m.starts.any fun e => e.1.id = id).toNat + starts t id := by
  rw [starts, List.countP_cons, ← starts, Nat.add_comm]
  cases m.starts.any fun e => e.1.id = id <;> rfl

/-- **A dispatch on top of the stack can go on to start** the requestor of a watch it is yet to
run. -/
theorem exists_start {s : Session ρ} {n : Nat} {f : Frame ρ .dispatch} {below : List (Pending ρ)}
    {w : WatchHandle} (hr : s.Sound) (hst : s.stack = ⟨n, .dispatch, f⟩ :: below)
    (hf : f.mayRun s.registry w) : ∃ t s', Run s t s' ∧ 0 < starts t w.id := by
  induction hsize : f.size using Nat.strongRecOn generalizing s f with
  | ind size ih =>
    obtain ⟨r, stack, k⟩ := s
    obtain rfl : stack = _ := hst
    have htakes := Takes.answer r below k n f f.question.anyAnswer
    rcases Frame.mayRun_step f.question.anyAnswer hr hf with ⟨requestor, type, hst⟩ | ⟨f', hnext, hf'⟩
    · refine ⟨_, _, htakes.run, ?_⟩
      have hst : (⟨n, .dispatch, .answer f f.question.anyAnswer, r⟩ : Move ρ).starts =
        some (w, requestor, type) := hst
      rw [starts_cons, hst, Option.any_some, decide_eq_true rfl]
      exact Nat.lt_of_lt_of_le Nat.one_pos (Nat.le_add_right ..)
    · have hlt := size_resume_lt f f.question.anyAnswer r
      have hr₁ := htakes.run.sound hr
      rw [hnext] at htakes hlt hr₁
      obtain ⟨t, s', hrun, hpos⟩ := ih _ (hsize ▸ hlt) hr₁ rfl hf' rfl
      exact ⟨_, s', .cons htakes hrun, by rw [starts_cons]; omega⟩

/-! ## The main statement -/

/-- **A detachment spares the requestor of a watch**, one that a registration had returned before,
if and only if no dispatch in progress has taken that watch and is yet to run its requestor. -/
theorem spared_iff {s : Session ρ} {t : List (Move ρ)} (h : Run {} t s) {n : Nat} {w : WatchHandle}
    (hw : @Returned ρ t n .arm (.ok w)) :
    Spared s w ↔ ∀ p ∈ s.stack, ¬ p.frame.mayRun s.registry w := by
  have hs := h.ordered
  have hr : s.Sound := h.sound .empty
  have hcall := Takes.call s.registry s.stack s.calls (.detach : Call ρ .detach)
  constructor
  · intro hspared p hp hmay
    obtain ⟨above, below, hst⟩ := List.append_of_mem hp
    -- the detachment returns, then the operations above the dispatch do
    obtain ⟨t₀, s₀, halone⟩ := hcall.alone hs
    obtain ⟨k, hret⟩ := halone.returns hs
    have hst₀ : s.stack = s₀.stack := halone.stack_eq hs
    have hs₀ := halone.run.numbers hs
    have hr₀ := halone.run.sound hr
    obtain ⟨t₁, s₁, hrun₁, hst₁, hslot⟩ := exists_unwound hs₀ hr₀ (hst₀.symm.trans hst)
    obtain ⟨n', op, f⟩ := p
    have hstay : ∀ {rest}, rest ⊆ f.rest → w ∈ rest ∧ s.registry.state? w.id = some .armed →
        w ∈ rest ∧ s₁.registry.state? w.id = some .armed := by
      intro rest hrest ⟨hin, ha⟩
      have hin₁ : w ∈ loose (⟨n', op, f⟩ :: below) := List.mem_append_left _ (hrest hin)
      have hin₀ : w ∈ loose s₀.stack := by
        rw [← hst₀, hst, loose, List.flatMap_append]
        exact List.mem_append_right _ hin₁
      refine ⟨hin, ?_⟩
      rw [Registry.state?_eq, hslot w hin₁, halone.slot?_eq hs hr hin₀ (.inr (by simp))]
      exact ha
    -- the dispatch goes on
    have hgoes : ∃ t₂ s₂, Run s₁ t₂ s₂ ∧ 0 < starts t₂ w.id := by
      cases f with
      | clearingFired v requestor type rest fired =>
        exact exists_start (hrun₁.sound hr₀) hst₁ (hmay.imp id (hstay (List.Subset.refl _)))
      | runningFired v requestor type rest fired =>
        exact exists_start (hrun₁.sound hr₀) hst₁ (hstay (List.Subset.refl _) hmay)
      | _ => exact absurd hmay id
    obtain ⟨t₂, s₂, hrun₂, hpos⟩ := hgoes
    have hzero := hspared t₀ s₀ halone.run k hret (t₁ ++ t₂) s₂ (hrun₁.append hrun₂)
    rw [starts, List.countP_append, ← starts, ← starts] at hzero
    omega
  · intro hnone t₁ s₁ hrun k hret t₂ s₂ hrun₂
    obtain ⟨s₀, htakes, hrun₁⟩ := run_cons_iff.1 hrun
    have hsafe := safe_of_detach h hw hnone htakes
    have hzero := (hrun₁.append hrun₂).starts_of_safe (htakes.run.sound hr) hsafe
    rw [starts, List.countP_append, ← starts, ← starts] at hzero
    omega

/-- Two watches wait for one request and a third for another. While the requestor of the first runs,
a detachment would spare the third, which is on the armed list, but not the second. -/
theorem spared_while_firing : ∃ (t : List (Move Nat)) (s : Session Nat), Run {} t s ∧
    @Returned Nat t 1 .arm (.ok ⟨⟨2⟩, "A", ⟨5⟩⟩) ∧ @Returned Nat t 2 .arm (.ok ⟨⟨3⟩, "B", ⟨6⟩⟩) ∧
    ¬ Spared s ⟨⟨2⟩, "A", ⟨5⟩⟩ ∧ Spared s ⟨⟨3⟩, "B", ⟨6⟩⟩ := by
  have hfirst := ((Run.nil (s := ({} : Session Nat))).call (.arm "A" 0)).answer (Except.ok ⟨5⟩)
  have hsecond := (hfirst.call (.arm "A" 1)).answer (Except.ok ⟨5⟩)
  have hthird := (hsecond.call (.arm "B" 2)).answer (Except.ok ⟨6⟩)
  have h := (hthird.call (.dispatch ⟨⟨5⟩, ⟨⟨9⟩, "A"⟩⟩)).answer ()
  have hout : (⟨⟨3⟩, "B", ⟨6⟩⟩ : WatchHandle) ∉ [(⟨⟨2⟩, "A", ⟨5⟩⟩ : WatchHandle)] := by decide
  obtain ⟨t, s, h, hret₂, hret₃, hmay, hnone⟩ : ∃ t s, Run {} t s ∧
      @Returned Nat t 1 .arm (.ok ⟨⟨2⟩, "A", ⟨5⟩⟩) ∧ @Returned Nat t 2 .arm (.ok ⟨⟨3⟩, "B", ⟨6⟩⟩) ∧
      (∃ p ∈ s.stack, p.frame.mayRun s.registry ⟨⟨2⟩, "A", ⟨5⟩⟩) ∧
      ∀ p ∈ s.stack, ¬ p.frame.mayRun s.registry ⟨⟨3⟩, "B", ⟨6⟩⟩ :=
    ⟨_, _, h, ((((returned_concat_self _ rfl).mono _).mono _).mono _).mono _,
      ((returned_concat_self _ rfl).mono _).mono _,
      ⟨_, List.mem_cons_self, List.mem_cons_self, rfl⟩,
      List.forall_mem_singleton.2 fun hin => hout hin.1⟩
  refine ⟨t, s, h, hret₂, hret₃, fun hspared => ?_, (spared_iff h hret₃).2 hnone⟩
  obtain ⟨p, hp, hp'⟩ := hmay
  exact (spared_iff h hret₂).1 hspared p hp hp'

/-- **The second watch fires although it was detached.** The requestor of the first detaches: the
detachment finds no armed watch and returns, and then the dispatch fires the second. -/
theorem detach_not_final : ∃ (t : List (Move Nat)) (s : Session Nat) (s₁ : Session Nat)
    (t₂ : List (Move Nat)) (s₂ : Session Nat), Run {} t s ∧
      @Returned Nat t 1 .arm (.ok ⟨⟨2⟩, "A", ⟨5⟩⟩) ∧
      Run s [⟨s.calls, .detach, .call .detach, s.registry⟩] s₁ ∧
      @Returned Nat [⟨s.calls, .detach, .call .detach, s.registry⟩] s.calls .detach 0 ∧
      Run s₁ t₂ s₂ ∧ starts t₂ ⟨2⟩ = 1 := by
  have hfirst := ((Run.nil (s := ({} : Session Nat))).call (.arm "A" 0)).answer (Except.ok ⟨5⟩)
  have hsecond := (hfirst.call (.arm "A" 1)).answer (Except.ok ⟨5⟩)
  have h := (hsecond.call (.dispatch ⟨⟨5⟩, ⟨⟨9⟩, "A"⟩⟩)).answer ()
  refine ⟨_, _, _, _, _, h, ((returned_concat_self _ rfl).mono _).mono _,
    (Takes.call _ _ _ .detach).run, ⟨_, _, List.mem_cons_self, rfl⟩,
    (Run.nil.answer ()).answer (), rfl⟩

end DebugMap.Watch
