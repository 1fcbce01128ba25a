/-!
# Binary floating-point numbers of 64 bits

A finite number is a mantissa below `2 ^ 53` times a power of two from `2 ^ (-1074)` to `2 ^ 971`,
held as exact integers. A decimal is read as the nearest such number, a tie going to the even
mantissa. Main statement: `roundHalfEven_bounds` (rounding errs by half a unit at most).
-/

set_option autoImplicit false

namespace DebugMap

/-- **A number of the format.** Zero has a sign of its own. -/
inductive Binary64 where
  | finite (negative : Bool) (mantissa : Nat) (exponent : Int)
  | infinite (negative : Bool)
  | nan
  deriving DecidableEq, Repr

/-- The quotient rounded to the nearest number, a tie to the even one. -/
def roundHalfEven (num den : Nat) : Nat :=
  let q := num / den
  let r := num % den
  if 2 * r < den then q else if den < 2 * r then q + 1 else q + q % 2

theorem roundHalfEven_bounds {num den : Nat} (h : 0 < den) :
    2 * num ≤ 2 * den * roundHalfEven num den + den ∧
      2 * den * roundHalfEven num den ≤ 2 * num + den := by
  have hdiv := Nat.div_add_mod num den
  have hlt := Nat.mod_lt num h
  have expand : ∀ k, 2 * den * (num / den + k) = 2 * (den * (num / den)) + 2 * den * k := by
    intro k
    rw [Nat.mul_add, Nat.mul_assoc]
  unfold roundHalfEven
  dsimp only
  split
  · have := expand 0
    simp only [Nat.add_zero, Nat.mul_zero] at this
    omega
  · split
    · have := expand 1
      simp only [Nat.mul_one] at this
      omega
    · rcases Nat.mod_two_eq_zero_or_one (num / den) with h2 | h2 <;> rw [h2]
      · have := expand 0
        simp only [Nat.add_zero, Nat.mul_zero] at this ⊢
        omega
      · have := expand 1
        simp only [Nat.mul_one] at this
        omega

namespace Binary64

def minExponent : Int := -1074

def maxExponent : Int := 971

def scale (num den : Nat) (exponent : Int) : Nat × Nat :=
  if 0 ≤ exponent then (num, den * Nat.pow 2 exponent.toNat)
  else (num * Nat.pow 2 (-exponent).toNat, den)

/-- The exponent that leaves a positive quotient between `2 ^ 52` and `2 ^ 53`. -/
def exponentOf (num den : Nat) : Int :=
  let guess : Int := (Nat.log2 num : Int) - Nat.log2 den - 53
  let (n, d) := scale num den guess
  if n < d * Nat.pow 2 53 then guess else guess + 1

def ofQuotient (negative : Bool) (num den : Nat) : Binary64 :=
  let e := max minExponent (exponentOf num den)
  let (n, d) := scale num den e
  let mantissa := roundHalfEven n d
  if mantissa < Nat.pow 2 53 then
    if e ≤ maxExponent then .finite negative mantissa e else .infinite negative
  else if e + 1 ≤ maxExponent then .finite negative (mantissa / 2) (e + 1)
  else .infinite negative

/-- **The number nearest to a decimal** `digits · 10 ^ exponent`. Decimals far outside the range
are settled by their size alone. -/
def ofDecimal (negative : Bool) (digits : Nat) (exponent : Int) : Binary64 :=
  let magnitude : Int := (Nat.toDigits 10 digits).length + exponent
  if digits = 0 ∨ magnitude < -330 then .finite negative 0 minExponent
  else if 310 < magnitude then .infinite negative
  else if 0 ≤ exponent then ofQuotient negative (digits * Nat.pow 10 exponent.toNat) 1
  else ofQuotient negative digits (Nat.pow 10 (-exponent).toNat)

end Binary64

end DebugMap
