import DebugMap.Smali.Basic
import Mathlib.Data.List.Chain

/-!
# Well-formed classes

What a disassembler writes: the methods of a class do not overlap, and the instructions of a method
follow one another in its text. Here the two searches by offset find what a reader would point at.
A class is `Nested` if that is so, and `WellFormed` if no instruction is empty besides. Main
statements: `ClassDef.Nested.methodContaining?` (an offset has one method),
`Method.Ordered.instructionAtOrAfter?_start` (an instruction is found at its own start) and
`Method.Ordered.exists_stop` (before the end of the last instruction there is a place to stop).
-/

set_option autoImplicit false

namespace DebugMap

theorem rel_of_pairwise {α : Type} {R : α → α → Prop} {xs : List α} (h : xs.Pairwise R) {i j : Nat}
    {a b : α} (hij : i < j) (ha : xs[i]? = some a) (hb : xs[j]? = some b) : R a b := by
  obtain ⟨hi, rfl⟩ := List.getElem?_eq_some_iff.1 ha
  obtain ⟨hj, rfl⟩ := List.getElem?_eq_some_iff.1 hb
  exact List.pairwise_iff_getElem.1 h i j hi hj hij

namespace TextRange

def Inside (r outer : TextRange) : Prop :=
  ∀ offset, r.contains offset = true → outer.contains offset = true

def Apart (a b : TextRange) : Prop :=
  ∀ offset, a.contains offset = true → b.contains offset = false

theorem inside_iff {r outer : TextRange} :
    r.Inside outer ↔ r.stop ≤ r.start ∨ outer.start ≤ r.start ∧ r.stop ≤ outer.stop := by
  simp only [Inside, contains_iff]
  constructor
  · intro h
    have hfirst := h r.start
    have hlast := h (r.stop - 1)
    omega
  · intro h offset
    omega

theorem apart_iff {a b : TextRange} :
    a.Apart b ↔ min a.stop b.stop ≤ max a.start b.start := by
  simp only [Apart, Bool.eq_false_iff, ne_eq, contains_iff]
  constructor
  · intro h
    have := h (max a.start b.start)
    omega
  · intro h offset
    omega

instance (r outer : TextRange) : Decidable (r.Inside outer) :=
  decidable_of_iff _ inside_iff.symm

instance (a b : TextRange) : Decidable (a.Apart b) :=
  decidable_of_iff _ apart_iff.symm

theorem Apart.symm {a b : TextRange} (h : a.Apart b) : b.Apart a := by
  rw [apart_iff, min_comm, max_comm]
  exact apart_iff.1 h

end TextRange

namespace Smali

/-! ## The instructions of a method -/

/-- `x` ends at or before the start of `y`, which is not inverted. -/
def Instruction.Precedes (x y : Instruction) : Prop :=
  x.range.stop ≤ y.range.start ∧ y.range.start ≤ y.range.stop

instance : Trans Instruction.Precedes Instruction.Precedes Instruction.Precedes where
  trans := fun ⟨hab, hb⟩ ⟨hbc, hc⟩ => ⟨(hab.trans hb).trans hbc, hc⟩

namespace Method

/-- **The instructions lie in the method one after another.** They may be empty. -/
structure Nested (m : Method) : Prop where
  forward : ∀ x ∈ m.instructions, x.range.start ≤ x.range.stop
  inside : ∀ x ∈ m.instructions, x.range.Inside m.range
  successive : m.instructions.IsChain fun x y => x.range.stop ≤ y.range.start

/-- **The instructions follow one another** in the text of the method. -/
structure Ordered (m : Method) : Prop where
  nonempty : ∀ x ∈ m.instructions, x.range.start < x.range.stop
  inside : ∀ x ∈ m.instructions, x.range.Inside m.range
  successive : m.instructions.IsChain fun x y => x.range.stop ≤ y.range.start

def Ascends (m : Method) : Prop :=
  m.instructions.Pairwise fun x y => x.codeOffset ≤ y.codeOffset

def StrictlyAscends (m : Method) : Prop :=
  m.instructions.Pairwise fun x y => x.codeOffset < y.codeOffset

/-- **Where execution can stop for an offset:** the instruction there, or else the next one. -/
def IsStop (m : Method) (offset i : Nat) (x : Instruction) : Prop :=
  m.instructions[i]? = some x ∧
    (x.range.contains offset = true ∨
      (∀ y ∈ m.instructions, y.range.contains offset = false) ∧ offset < x.range.start ∧
        ∀ (j : Nat) (y : Instruction), m.instructions[j]? = some y → offset < y.range.start → i ≤ j)

instance (m : Method) : Decidable m.Nested :=
  decidable_of_iff
    ((∀ x ∈ m.instructions, x.range.start ≤ x.range.stop) ∧
      (∀ x ∈ m.instructions, x.range.Inside m.range) ∧
      m.instructions.IsChain fun x y => x.range.stop ≤ y.range.start)
    ⟨fun ⟨h₁, h₂, h₃⟩ => ⟨h₁, h₂, h₃⟩, fun h => ⟨h.forward, h.inside, h.successive⟩⟩

instance (m : Method) : Decidable m.Ordered :=
  decidable_of_iff
    ((∀ x ∈ m.instructions, x.range.start < x.range.stop) ∧
      (∀ x ∈ m.instructions, x.range.Inside m.range) ∧
      m.instructions.IsChain fun x y => x.range.stop ≤ y.range.start)
    ⟨fun ⟨h₁, h₂, h₃⟩ => ⟨h₁, h₂, h₃⟩, fun h => ⟨h.nonempty, h.inside, h.successive⟩⟩

instance (m : Method) : Decidable m.Ascends :=
  inferInstanceAs (Decidable (m.instructions.Pairwise _))

instance (m : Method) : Decidable m.StrictlyAscends :=
  inferInstanceAs (Decidable (m.instructions.Pairwise _))

variable {m : Method} {offset i j : Nat} {x y : Instruction}

theorem Nested.stop_le_start (h : m.Nested) (hij : i < j) (hx : m.instructions[i]? = some x)
    (hy : m.instructions[j]? = some y) : x.range.stop ≤ y.range.start := by
  have hchain : m.instructions.IsChain Instruction.Precedes :=
    h.successive.imp_of_mem_imp fun _ b _ hb hab => ⟨hab, h.forward b hb⟩
  exact (rel_of_pairwise hchain.pairwise hij hx hy).1

theorem Ordered.nested (h : m.Ordered) : m.Nested :=
  ⟨fun x hx => (h.nonempty x hx).le, h.inside, h.successive⟩

theorem Ordered.stop_le_start (h : m.Ordered) (hij : i < j) (hx : m.instructions[i]? = some x)
    (hy : m.instructions[j]? = some y) : x.range.stop ≤ y.range.start :=
  h.nested.stop_le_start hij hx hy

theorem Ordered.contains_start (h : m.Ordered) (hx : m.instructions[i]? = some x) :
    m.range.contains x.range.start = true :=
  have hmem := List.mem_of_getElem? hx
  h.inside x hmem _ (TextRange.contains_iff.2 ⟨le_rfl, h.nonempty x hmem⟩)

/-- **An instruction is found at its own start.** -/
theorem Ordered.instructionAtOrAfter?_start (h : m.Ordered) (hx : m.instructions[i]? = some x) :
    m.instructionAtOrAfter? x.range.start = some (i, x) := by
  rw [instructionAtOrAfter?, if_pos (h.contains_start hx)]
  refine first?_eq_some_iff.2 ⟨hx, ?_, fun j y hj hy => ?_⟩
  · exact decide_eq_true (h.nonempty x (List.mem_of_getElem? hx))
  · exact decide_eq_false (Nat.not_lt.2 (h.stop_le_start hj hy hx))

theorem Ordered.isStop (h : m.Ordered) (hx : m.instructionAtOrAfter? offset = some (i, x)) :
    m.IsStop offset i x := by
  unfold instructionAtOrAfter? at hx
  split at hx
  · obtain ⟨hi, hlt, hbefore⟩ := first?_eq_some_iff.1 hx
    rw [decide_eq_true_iff] at hlt
    refine ⟨hi, ?_⟩
    rcases Nat.lt_or_ge offset x.range.start with hstart | hstart
    · -- The earlier ones end before the offset, and the later ones start after `x`.
      have hsides : ∀ j y, m.instructions[j]? = some y →
          y.range.stop ≤ offset ∨ i ≤ j ∧ offset < y.range.start := fun j y hy => by
        rcases Nat.lt_trichotomy j i with hj | rfl | hj
        · exact .inl (Nat.not_lt.1 (of_decide_eq_false (hbefore j y hj hy)))
        · obtain rfl : x = y := Option.some.inj (hi.symm.trans hy)
          exact .inr ⟨le_rfl, hstart⟩
        · have := h.stop_le_start hj hi hy
          exact .inr ⟨hj.le, by omega⟩
      refine .inr ⟨fun y hy => ?_, hstart, fun j y hy hoffset => ?_⟩
      · obtain ⟨j, hj⟩ := List.getElem?_of_mem hy
        rw [Bool.eq_false_iff, ne_eq, TextRange.contains_iff]
        have := hsides j y hj
        omega
      · have := hsides j y hy
        have := h.nonempty y (List.mem_of_getElem? hy)
        omega
    · exact .inl (TextRange.contains_iff.2 ⟨hstart, hlt⟩)
  · cases hx

/-- **Before the end of the last instruction** there is a place to stop. -/
theorem Ordered.exists_stop (h : m.Ordered) (hin : m.range.contains offset = true)
    (hlast : m.instructions.getLast? = some x) (hoffset : offset < x.range.stop) :
    ∃ i y, m.instructionAtOrAfter? offset = some (i, y) ∧ m.IsStop offset i y := by
  cases hfound : m.instructionAtOrAfter? offset with
  | some found => exact ⟨found.1, found.2, rfl, h.isStop hfound⟩
  | none =>
    rw [instructionAtOrAfter?, if_pos hin] at hfound
    have := first?_eq_none_iff.1 hfound x (List.mem_of_getLast? hlast)
    exact absurd hoffset (of_decide_eq_false this)

end Method

/-! ## The methods of a class -/

namespace ClassDef

/-- **The methods of a class** lie in it side by side, each in order. -/
structure WellFormed (c : ClassDef) : Prop where
  apart : c.methods.Pairwise fun a b => a.range.Apart b.range
  inside : ∀ m ∈ c.methods, m.range.Inside c.range
  ordered : ∀ m ∈ c.methods, m.Ordered

instance (c : ClassDef) : Decidable c.WellFormed :=
  decidable_of_iff
    ((c.methods.Pairwise fun a b => a.range.Apart b.range) ∧
      (∀ m ∈ c.methods, m.range.Inside c.range) ∧ ∀ m ∈ c.methods, m.Ordered)
    ⟨fun ⟨h₁, h₂, h₃⟩ => ⟨h₁, h₂, h₃⟩, fun h => ⟨h.apart, h.inside, h.ordered⟩⟩

variable {c : ClassDef} {k offset : Nat} {m : Method}

/-- **Methods side by side in their class**, with instructions one after another. -/
structure Nested (c : ClassDef) : Prop where
  apart : c.methods.Pairwise fun a b => a.range.Apart b.range
  inside : ∀ m ∈ c.methods, m.range.Inside c.range
  nested : ∀ m ∈ c.methods, m.Nested

instance (c : ClassDef) : Decidable c.Nested :=
  decidable_of_iff
    ((c.methods.Pairwise fun a b => a.range.Apart b.range) ∧
      (∀ m ∈ c.methods, m.range.Inside c.range) ∧ ∀ m ∈ c.methods, m.Nested)
    ⟨fun ⟨h₁, h₂, h₃⟩ => ⟨h₁, h₂, h₃⟩, fun h => ⟨h.apart, h.inside, h.nested⟩⟩

theorem WellFormed.nested (h : c.WellFormed) : c.Nested :=
  ⟨h.apart, h.inside, fun m hm => (h.ordered m hm).nested⟩

/-- **An offset of a method** leads to that method alone. -/
theorem Nested.methodContaining? (h : c.Nested) (hm : c.methods[k]? = some m)
    (hin : m.range.contains offset = true) : c.methodContaining? offset = some (k, m) := by
  refine first?_eq_some_iff.2 ⟨hm, hin, fun j other hj hother => ?_⟩
  exact (rel_of_pairwise h.apart hj hother hm).symm offset hin

end ClassDef

end Smali

end DebugMap
