import DebugMap.Text.Segments
import DebugMap.Toml.Text
import DebugMap.Number.Binary64

/-!
# Numbers of TOML

Digits may have single underscores between them. A decimal number has no zeros in front; a number
in another base has a prefix and no sign. Integers have 64 bits.
-/

set_option autoImplicit false

namespace DebugMap.Toml

open Reader

/-- Digits of a class, with single underscores between them, which are left out. -/
def digitRun (p : Char → Bool) : Reader (List Char) := do
  let run ← takeWhile1 fun c => p c || c == '_'
  if Text.hasEmptySegment '_' run then failure else pure (run.filter (· != '_'))

def sign : Reader Bool := do
  match ← Reader.optional (charWhere fun c => c == '+' || c == '-') with
  | some '-' => pure true
  | _ => pure false

/-- The digits of a decimal number without zeros in front. -/
def decimalDigits : Reader (List Char) := do
  match ← peek with
  | some '0' => List.singleton <$> char '0'
  | _ => digitRun Char.isDigit

def inRange (n : Int) : Reader Int :=
  if -0x8000000000000000 ≤ n ∧ n < 0x8000000000000000 then pure n else failure

def decimalInteger : Reader Int := do
  let negative ← sign
  let magnitude : Int := ofDigits 10 (← decimalDigits)
  inRange (if negative then -magnitude else magnitude)

def basedInteger (mark : Char) (base : Nat) (p : Char → Bool) : Reader Int := do
  literal ['0', mark]
  inRange (ofDigits base (← digitRun p))

/-- **An integer.** -/
def integer : Reader Int :=
  basedInteger 'x' 16 isHexDigit <|>
  basedInteger 'o' 8 (fun c => '0' ≤ c && c ≤ '7') <|>
  basedInteger 'b' 2 (fun c => c == '0' || c == '1') <|>
  decimalInteger

def fraction : Reader (List Char) :=
  char '.' *> digitRun Char.isDigit

def power : Reader Int := do
  let _ ← charWhere fun c => c == 'e' || c == 'E'
  let negative ← sign
  let magnitude : Int := ofDigits 10 (← digitRun Char.isDigit)
  return if negative then -magnitude else magnitude

/-- A floating-point number in digits: it has a fraction or a power. One too large for the format
is read as infinite only below zero. -/
def decimalFloat : Reader Binary64 := do
  let negative ← sign
  let whole ← decimalDigits
  let places ← Reader.optional fraction
  let exponent ← Reader.optional power
  if places.isNone && exponent.isNone then failure
  let digits := whole ++ places.getD []
  let number := Binary64.ofDecimal negative (ofDigits 10 digits)
    (exponent.getD 0 - (places.getD []).length)
  if number = .infinite false then failure else pure number

def specialFloat : Reader Binary64 := do
  let negative ← sign
  (literal ['i', 'n', 'f'] *> pure (.infinite negative)) <|>
    (literal ['n', 'a', 'n'] *> pure .nan)

/-- **A floating-point number.** -/
def float : Reader Binary64 :=
  decimalFloat <|> specialFloat

end DebugMap.Toml
