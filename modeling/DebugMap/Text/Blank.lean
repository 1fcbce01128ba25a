/-!
# Blank characters

The characters with the Unicode property `White_Space`, and trimming by them. Main statements:
`trim_blank` (text of blanks alone trims to nothing) and `trim_eq_self` (text whose ends are not
blank is left alone).
-/

set_option autoImplicit false

namespace DebugMap.Text

/-- **White_Space** as closed ranges of code points. -/
def blankRanges : List (Nat × Nat) :=
  [(0x09, 0x0D), (0x20, 0x20), (0x85, 0x85), (0xA0, 0xA0), (0x1680, 0x1680), (0x2000, 0x200A),
   (0x2028, 0x2029), (0x202F, 0x202F), (0x205F, 0x205F), (0x3000, 0x3000)]

def inRanges (table : List (Nat × Nat)) (c : Char) : Bool :=
  table.any fun r => r.1 ≤ c.toNat && c.toNat ≤ r.2

def isBlank (c : Char) : Bool :=
  inRanges blankRanges c

def trim (s : List Char) : List Char :=
  ((s.dropWhile isBlank).reverse.dropWhile isBlank).reverse

theorem trim_blank {s : List Char} (h : ∀ c ∈ s, isBlank c = true) : trim s = [] := by
  have drop : (s ++ []).dropWhile isBlank = [] := List.dropWhile_append_of_pos h
  rw [List.append_nil] at drop
  simp [trim, drop]

theorem dropWhile_eq_self {s : List Char} (h : ∀ c, s.head? = some c → isBlank c = false) :
    s.dropWhile isBlank = s := by
  cases s with
  | nil => rfl
  | cons c r => simp [h c rfl]

/-- **Text that neither starts nor ends with a blank** is left alone. -/
theorem trim_eq_self {s : List Char} (hl : ∀ c, s.head? = some c → isBlank c = false)
    (hr : ∀ c, s.getLast? = some c → isBlank c = false) : trim s = s := by
  have hback : s.reverse.dropWhile isBlank = s.reverse := dropWhile_eq_self (by simpa using hr)
  rw [trim, dropWhile_eq_self hl, hback, List.reverse_reverse]

end DebugMap.Text
