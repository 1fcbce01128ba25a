/-!
# Settings

How code indices of the runtime relate to code offsets of a file, and whether the process is asked
before a location is reported in one of its types.
-/

set_option autoImplicit false

namespace DebugMap

/-- **The settings of a session.** A code unit has at least one byte. -/
structure Config where
  codeUnitBytes : UInt32 := 2
  /-- Whether a loaded type must declare the method of a location. -/
  verifyMethods : Bool := true
  codeUnitBytes_pos : 0 < codeUnitBytes := by decide
  deriving DecidableEq, Repr

namespace Config

/-- **The code offset** at which a code index stands; none if it does not fit in 64 bits. -/
def codeOffset? (c : Config) (codeIndex : UInt64) : Option UInt64 :=
  if codeIndex.toNat * c.codeUnitBytes.toNat < UInt64.size then
    some (codeIndex * c.codeUnitBytes.toUInt64)
  else none

/-- The code index of the unit that holds a code offset. -/
def codeIndex (c : Config) (codeOffset : UInt64) : UInt64 :=
  codeOffset / c.codeUnitBytes.toUInt64

theorem toNat_of_codeOffset? {c : Config} {codeIndex codeOffset : UInt64}
    (h : c.codeOffset? codeIndex = some codeOffset) :
    codeOffset.toNat = codeIndex.toNat * c.codeUnitBytes.toNat := by
  unfold codeOffset? at h
  split at h
  · rename_i hlt
    cases h
    rw [UInt64.toNat_mul, UInt32.toNat_toUInt64, Nat.mod_eq_of_lt hlt]
  · cases h

theorem codeOffset?_eq_none_iff {c : Config} {codeIndex : UInt64} :
    c.codeOffset? codeIndex = none ↔ UInt64.size ≤ codeIndex.toNat * c.codeUnitBytes.toNat := by
  simp [codeOffset?]

theorem toNat_codeIndex (c : Config) (codeOffset : UInt64) :
    (c.codeIndex codeOffset).toNat = codeOffset.toNat / c.codeUnitBytes.toNat := by
  rw [codeIndex, UInt64.toNat_div, UInt32.toNat_toUInt64]

end Config

end DebugMap
