/-!
# Ranges of a text

Half-open ranges of byte offsets. A range read from outside need not be in order: one whose end
lies before its start contains nothing and has length zero.
-/

set_option autoImplicit false

namespace DebugMap

/-- **Bytes** from `start` up to, and not including, `stop`. -/
structure TextRange where
  start : Nat
  stop : Nat
  deriving DecidableEq, Repr

namespace TextRange

def contains (r : TextRange) (offset : Nat) : Bool :=
  r.start ≤ offset && offset < r.stop

def length (r : TextRange) : Nat :=
  r.stop - r.start

def isEmpty (r : TextRange) : Bool :=
  r.length == 0

@[simp] theorem contains_iff {r : TextRange} {offset : Nat} :
    r.contains offset = true ↔ r.start ≤ offset ∧ offset < r.stop := by
  simp [contains]

theorem isEmpty_iff {r : TextRange} : r.isEmpty = true ↔ ∀ offset, r.contains offset = false := by
  simp only [isEmpty, length, beq_iff_eq, Bool.eq_false_iff, ne_eq, contains_iff]
  constructor
  · intro h offset; omega
  · intro h; have := h r.start; omega

end TextRange

end DebugMap
