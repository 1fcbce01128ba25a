/-!
# Readers

A reader takes a value from the front of some characters and leaves the rest, or fails. A choice
tries its second reader where the first one failed.
-/

set_option autoImplicit false

namespace DebugMap.Toml

/-- **Reads a value** from the front of a text. -/
abbrev Reader : Type → Type :=
  StateT (List Char) Option

namespace Reader

variable {α β : Type}

def peek : Reader (Option Char) :=
  fun s => some (s.head?, s)

def charWhere (p : Char → Bool) : Reader Char
  | [] => none
  | c :: r => if p c then some (c, r) else none

def char (c : Char) : Reader Char :=
  charWhere (· == c)

def literal : List Char → Reader Unit
  | [], s => some ((), s)
  | _ :: _, [] => none
  | c :: cs, d :: r => if c = d then literal cs r else none

def takeWhile (p : Char → Bool) : Reader (List Char) :=
  fun s => some (s.takeWhile p, s.dropWhile p)

def takeWhile1 (p : Char → Bool) : Reader (List Char) := do
  let run ← takeWhile p
  if run.isEmpty then failure else pure run

def exactly (n : Nat) (p : Char → Bool) : Reader (List Char) :=
  fun s =>
    let run := s.take n
    if run.length = n ∧ run.all p then some (run, s.drop n) else none

def atEnd : Reader Unit
  | [] => some ((), [])
  | _ :: _ => none

def optional (r : Reader α) : Reader (Option α) :=
  (some <$> r) <|> pure none

/-- Whether a reader would succeed; nothing is taken. -/
def ahead (r : Reader α) : Reader Bool :=
  fun s => some ((r s).isSome, s)

/-- As many items as there are, at most `limit`. -/
def upTo (item : Reader α) : Nat → Reader (List α)
  | 0 => pure []
  | limit + 1 => do
    match ← optional item with
    | none => pure []
    | some a => return a :: (← upTo item limit)

/-- **As many items as there are.** Each item takes a character or more, so the length of what is
left bounds their number. -/
def many (item : Reader α) : Reader (List α) := do
  match ← optional item with
  | none => return []
  | some a => return a :: (← fun s => upTo item s.length s)

/-- One item or more, with separators between them. A separator without an item after it is left
alone. -/
def separated (item : Reader α) (separator : Reader β) : Reader (List α) := do
  let first ← item
  let rest ← many (separator *> item)
  return first :: rest

end Reader

end DebugMap.Toml
