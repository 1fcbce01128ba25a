import DebugMap.Toml.Number
import DebugMap.Toml.Value

/-!
# Dates and times of TOML

Every field has a fixed number of digits and a range. A day has to exist in its month, and a minute
may have a leap second.
-/

set_option autoImplicit false

namespace DebugMap.Toml

open Reader

def field (width low high : Nat) : Reader Nat := do
  let n := ofDigits 10 (← exactly width Char.isDigit)
  if low ≤ n ∧ n ≤ high then pure n else failure

def isLeapYear (year : Nat) : Bool :=
  year % 4 = 0 && (year % 100 ≠ 0 || year % 400 = 0)

def daysInMonth (year month : Nat) : Nat :=
  match month with
  | 2 => if isLeapYear year then 29 else 28
  | 4 | 6 | 9 | 11 => 30
  | _ => 31

def date : Reader Date := do
  let year ← field 4 0 9999
  let _ ← char '-'
  let month ← field 2 1 12
  let _ ← char '-'
  let day ← field 2 1 (daysInMonth year month)
  return { year, month, day }

def time : Reader Time := do
  let hour ← field 2 0 23
  let _ ← char ':'
  let minute ← field 2 0 59
  let _ ← char ':'
  let second ← field 2 0 60
  let fraction ← Reader.optional (char '.' *> takeWhile1 Char.isDigit)
  return { hour, minute, second, fraction := fraction.getD [] }

def offset : Reader Int :=
  (charWhere (fun c => c == 'Z' || c == 'z') *> pure 0) <|> do
    let mark ← charWhere fun c => c == '+' || c == '-'
    let hour ← field 2 0 23
    let _ ← char ':'
    let minute ← field 2 0 59
    let magnitude : Int := hour * 60 + minute
    return if mark = '-' then -magnitude else magnitude

/-- The time that may follow a date, after a letter or a space. -/
def timeOfDate : Reader (Time × Option Int) := do
  let _ ← charWhere fun c => c == 'T' || c == 't' || c == ' '
  return (← time, ← Reader.optional offset)

/-- **A date, a time or both.** -/
def dateTime : Reader DateTime :=
  (do
    let d ← date
    match ← Reader.optional timeOfDate with
    | some (t, o) => return .dateTime d t o
    | none => return .date d) <|>
  DateTime.time <$> time

end DebugMap.Toml
