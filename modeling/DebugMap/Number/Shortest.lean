import DebugMap.Number.Binary64

/-!
# The shortest decimal that reads back

A binary number stands for all decimals that are nearer to it than to its neighbours. Among those
with the fewest digits, the one nearest to the number itself is its text. It is found by exact
integer arithmetic: for one digit, then two, and so on, the two decimals around the number are
tested.
-/

set_option autoImplicit false

namespace DebugMap.Binary64

structure Decimal where
  digits : Nat
  exponent : Int
  deriving DecidableEq, Repr

def timesTen (num den : Nat) (exponent : Int) : Nat × Nat :=
  if 0 ≤ exponent then (num * Nat.pow 10 exponent.toNat, den)
  else (num, den * Nat.pow 10 (-exponent).toNat)

def leadingPower (num den : Nat) : Int :=
  let guess : Int :=
    ((Nat.toDigits 10 num).length : Int) - (Nat.toDigits 10 den).length
  let (n, d) := timesTen num den (-guess)
  if d ≤ n then guess else guess - 1

/-- The decimal on the grid `10 ^ k` that stands for the number `mantissa · 2 ^ exponent`, if one
of the two around it does. A tie between them goes up. -/
def onGrid? (mantissa : Nat) (exponent k : Int) : Option Decimal :=
  let even := mantissa % 2 = 0
  -- quarters of the last binary place: the number is `4 · mantissa` of them
  let below := if mantissa = Nat.pow 2 52 ∧ minExponent < exponent then 1 else 2
  let above := 2
  let (num, den) :=
    if 2 ≤ exponent then (Nat.pow 2 (exponent - 2).toNat, 1)
    else (1, Nat.pow 2 (2 - exponent).toNat)
  let (unit, grid) := timesTen num den (-k)
  let value := 4 * mantissa * unit
  let floor := value / grid
  let low := value - floor * grid
  let high := (floor + 1) * grid - value
  let down := low < below * unit ∨ low = below * unit ∧ even
  let up := high < above * unit ∨ high = above * unit ∧ even
  if up ∧ (¬ down ∨ grid ≤ 2 * low) then some ⟨floor + 1, k⟩
  else if down then some ⟨floor, k⟩
  else none

def search (mantissa : Nat) (exponent : Int) : Nat → Int → Decimal
  | 0, k => (onGrid? mantissa exponent k).getD ⟨0, 0⟩
  | n + 1, k => (onGrid? mantissa exponent k).getD (search mantissa exponent n (k - 1))

/-- **The shortest decimal** of a positive number; seventeen digits always do. -/
def shortest (mantissa : Nat) (exponent : Int) : Decimal :=
  let (num, den) :=
    if 0 ≤ exponent then (mantissa * Nat.pow 2 exponent.toNat, 1)
    else (mantissa, Nat.pow 2 (-exponent).toNat)
  search mantissa exponent 16 (leadingPower num den)

/-- Digits with a point `places` from the right, without zeros at the end of the fraction. -/
def withPoint (digits : List Char) (places : Nat) : List Char :=
  let padded := List.replicate (places + 1 - digits.length) '0' ++ digits
  let whole := padded.take (padded.length - places)
  let fraction := ((padded.drop (padded.length - places)).reverse.dropWhile (· == '0')).reverse
  if fraction = [] then whole else whole ++ '.' :: fraction

/-- A decimal in positional notation: no exponent, however large or small it is. -/
def Decimal.positional (d : Decimal) : List Char :=
  let digits := Nat.toDigits 10 d.digits
  if 0 ≤ d.exponent then digits ++ List.replicate d.exponent.toNat '0'
  else withPoint digits (-d.exponent).toNat

def withFraction (text : List Char) : List Char :=
  if '.' ∈ text then text else text ++ ['.', '0']

/-- **The text of a number:** positional, with at least one place after the point. -/
def text : Binary64 → String
  | .finite negative mantissa exponent =>
    let magnitude :=
      if mantissa = 0 then ['0'] else (shortest mantissa exponent).positional
    String.ofList ((if negative then ['-'] else []) ++ withFraction magnitude)
  | .infinite negative => if negative then "-inf" else "inf"
  | .nan => "NaN"

example : (ofDecimal false 25 (-1)).text = "2.5" := by decide +kernel

example : (ofDecimal true 1 3).text = "-1000.0" := by decide +kernel

-- two decimals of one place fewer are equally near: the upper one is taken
example : (ofDecimal false 204725129827026425 (-2)).text = "2047251298270264.3" := by
  decide +kernel

end DebugMap.Binary64
