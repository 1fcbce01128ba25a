import DebugMap.Proofs.Smali.WellFormed

/-!
# Look-ups by an offset

A nested class is looked up by an offset in two ways: for the smallest node around it, which is what
a position is displayed as, and for the instruction where a breakpoint at it stops. The first goes
by what holds the offset, the second by what ends after it. Main statements:
`ClassDef.Nested.elementAt_eq_iff` (the node is the smallest around the offset),
`ClassDef.Nested.stop_of_instruction` and `ClassDef.Nested.stop_of_method` (node and instruction fit
together).
-/

set_option autoImplicit false

namespace DebugMap.Smali

theorem first?_congr {α : Type} {p q : α → Bool} {xs : List α} (h : ∀ a ∈ xs, p a = q a) :
    first? p xs = first? q xs := by
  have hidx : xs.findIdx? p = xs.findIdx? q := by
    induction xs with
    | nil => rfl
    | cons a rest ih =>
      rw [List.findIdx?_cons, List.findIdx?_cons, h a List.mem_cons_self,
        ih fun b hb => h b (List.mem_cons_of_mem a hb)]
  rw [first?, first?, hidx]

namespace Method.Nested

variable {m : Method} {offset i j : Nat} {x y : Instruction}

theorem index_unique (h : m.Nested) (hx : m.instructions[i]? = some x)
    (hy : m.instructions[j]? = some y) (hxo : x.range.contains offset = true)
    (hyo : y.range.contains offset = true) : i = j := by
  rw [TextRange.contains_iff] at hxo hyo
  rcases Nat.lt_trichotomy i j with hij | rfl | hji
  · have := h.stop_le_start hij hx hy
    omega
  · rfl
  · have := h.stop_le_start hji hy hx
    omega

/-- **Inside an instruction** the search for a place to stop ends there: the ones before it have
ended. -/
theorem instructionAtOrAfter?_of_contains (h : m.Nested) (hx : m.instructions[i]? = some x)
    (hin : x.range.contains offset = true) : m.instructionAtOrAfter? offset = some (i, x) := by
  rw [instructionAtOrAfter?, if_pos (h.inside x (List.mem_of_getElem? hx) offset hin)]
  rw [TextRange.contains_iff] at hin
  refine first?_eq_some_iff.2 ⟨hx, decide_eq_true hin.2, fun j y hj hy => decide_eq_false ?_⟩
  have := h.stop_le_start hj hy hx
  omega

/-- **Between instructions** the first that ends after the offset is the first that starts after
it. -/
theorem instructionAtOrAfter?_of_gap (h : m.Nested) (hin : m.range.contains offset = true)
    (hgap : ∀ x ∈ m.instructions, x.range.contains offset = false) :
    m.instructionAtOrAfter? offset = first? (fun x => offset < x.range.start) m.instructions := by
  rw [instructionAtOrAfter?, if_pos hin]
  refine first?_congr fun x hx => ?_
  have hforward := h.forward x hx
  have hout := hgap x hx
  rw [Bool.eq_false_iff, ne_eq, TextRange.contains_iff] at hout
  rw [decide_eq_decide]
  omega

end Method.Nested

namespace ClassDef

variable {c : ClassDef} {offset k i : Nat} {m : Method} {x : Instruction}

/-! ## The node at an offset -/

/-- **Which node is the smallest around an offset:** the instruction that holds it; else the method
that holds it; else the class, if that holds it. -/
def Innermost (c : ClassDef) (offset : Nat) : Node → Prop
  | .instruction k i =>
    ∃ m x, c.methods[k]? = some m ∧ m.instructions[i]? = some x ∧ x.range.contains offset = true
  | .method k =>
    ∃ m, c.methods[k]? = some m ∧ m.range.contains offset = true ∧
      ∀ x ∈ m.instructions, x.range.contains offset = false
  | .classDef =>
    c.range.contains offset = true ∧ ∀ m ∈ c.methods, m.range.contains offset = false
  | .file => c.range.contains offset = false

theorem innermost_elementAt (c : ClassDef) (offset : Nat) :
    c.Innermost offset (c.elementAt offset) := by
  unfold elementAt
  cases hclass : c.range.contains offset with
  | false => exact hclass
  | true =>
    rw [if_pos rfl]
    cases hfound : c.methodContaining? offset with
    | none => exact ⟨hclass, first?_eq_none_iff.1 hfound⟩
    | some found =>
      obtain ⟨k, m⟩ := found
      obtain ⟨hm, hin, -⟩ := first?_eq_some_iff.1 hfound
      dsimp only
      cases hinstruction : first? (fun i => i.range.contains offset) m.instructions with
      | none => exact ⟨m, hm, hin, first?_eq_none_iff.1 hinstruction⟩
      | some found =>
        obtain ⟨i, x⟩ := found
        obtain ⟨hx, hxo, -⟩ := first?_eq_some_iff.1 hinstruction
        exact ⟨m, x, hm, hx, hxo⟩

namespace Nested

theorem elementAt_of_method (h : c.Nested) (hm : c.methods[k]? = some m)
    (hin : m.range.contains offset = true) :
    c.elementAt offset =
      match first? (fun i => i.range.contains offset) m.instructions with
      | none => .method k
      | some (i, _) => .instruction k i := by
  have hclass := h.inside m (List.mem_of_getElem? hm) offset hin
  have hmethod := h.methodContaining? hm hin
  cases hfound : first? (fun i => i.range.contains offset) m.instructions with
  | none => simp only [elementAt, hclass, if_true, hmethod, hfound]
  | some found => simp only [elementAt, hclass, if_true, hmethod, hfound]

/-- **The smallest node around an offset** of a nested class is unique. -/
theorem elementAt_eq_iff (h : c.Nested) {node : Node} :
    c.elementAt offset = node ↔ c.Innermost offset node := by
  refine ⟨fun heq => heq ▸ c.innermost_elementAt offset, fun hnode => ?_⟩
  cases node with
  | instruction k i =>
    obtain ⟨m, x, hm, hx, hin⟩ := hnode
    have hnested := h.nested m (List.mem_of_getElem? hm)
    have hfound : first? (fun y => y.range.contains offset) m.instructions = some (i, x) := by
      refine first?_eq_some_iff.2 ⟨hx, hin, fun j y hj hy => Bool.eq_false_iff.2 fun hyo => ?_⟩
      exact absurd (hnested.index_unique hy hx hyo hin) (Nat.ne_of_lt hj)
    rw [h.elementAt_of_method hm (hnested.inside x (List.mem_of_getElem? hx) offset hin), hfound]
  | method k =>
    obtain ⟨m, hm, hin, hgap⟩ := hnode
    rw [h.elementAt_of_method hm hin, first?_eq_none_iff.2 hgap]
  | classDef =>
    have hnone : c.methodContaining? offset = none := first?_eq_none_iff.2 hnode.2
    rw [elementAt, if_pos hnode.1, hnone]
  | file =>
    have hout : c.range.contains offset = false := hnode
    simp [elementAt, hout]

/-! ## Node and instruction -/

/-- **At an instruction**, both look-ups by the offset lead there. -/
theorem stop_of_instruction (h : c.Nested) (heq : c.elementAt offset = .instruction k i) :
    ∃ m x, c.methods[k]? = some m ∧ m.instructions[i]? = some x ∧
      x.range.contains offset = true ∧ c.methodContaining? offset = some (k, m) ∧
      m.instructionAtOrAfter? offset = some (i, x) := by
  obtain ⟨m, x, hm, hx, hin⟩ := h.elementAt_eq_iff.1 heq
  have hnested := h.nested m (List.mem_of_getElem? hm)
  have hmethod := hnested.inside x (List.mem_of_getElem? hx) offset hin
  exact ⟨m, x, hm, hx, hin, h.methodContaining? hm hmethod,
    hnested.instructionAtOrAfter?_of_contains hx hin⟩

/-- **In a method and at no instruction**, they lead to the method and to its first instruction that
starts later. -/
theorem stop_of_method (h : c.Nested) (heq : c.elementAt offset = .method k) :
    ∃ m, c.methods[k]? = some m ∧ c.methodContaining? offset = some (k, m) ∧
      m.instructionAtOrAfter? offset = first? (fun x => offset < x.range.start) m.instructions := by
  obtain ⟨m, hm, hin, hgap⟩ := h.elementAt_eq_iff.1 heq
  have hnested := h.nested m (List.mem_of_getElem? hm)
  exact ⟨m, hm, h.methodContaining? hm hin, hnested.instructionAtOrAfter?_of_gap hin hgap⟩

end Nested

end ClassDef

end DebugMap.Smali
