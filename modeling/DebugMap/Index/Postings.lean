/-!
# Postings

The inverted half of an index: for each key, the entries filed under it, without duplicates and in
increasing order. Main statements: `get_insert` and `get_erase` (what each change does to the
entries of every key).
-/

set_option autoImplicit false

namespace DebugMap

/-- **Adds an entry** to a list in increasing order, unless it is there. -/
def insertSorted {α : Type} [LT α] [DecidableLT α] (x : α) : List α → List α
  | [] => [x]
  | y :: rest =>
    if x < y then x :: y :: rest
    else if y < x then y :: insertSorted x rest
    else y :: rest

/-- The entries filed under each key. A key without entries is not kept. -/
structure Postings (α : Type) where
  groups : List (String × List α) := []

namespace Postings

variable {α : Type}

def get (p : Postings α) (key : String) : List α :=
  (p.groups.lookup key).getD []

def put (p : Postings α) (key : String) (entries : List α) : Postings α :=
  let others := p.groups.filter fun group => group.1 ≠ key
  if entries.isEmpty then ⟨others⟩ else ⟨(key, entries) :: others⟩

def insert [LT α] [DecidableLT α] (p : Postings α) (key : String) (x : α) : Postings α :=
  p.put key (insertSorted x (p.get key))

/-- Takes the entries that satisfy `gone` from under a key. -/
def erase (p : Postings α) (key : String) (gone : α → Bool) : Postings α :=
  p.put key ((p.get key).filter fun x => !gone x)

theorem get_cons (key other : String) (entries : List α) (groups : List (String × List α)) :
    get ⟨(key, entries) :: groups⟩ other = if other = key then entries else get ⟨groups⟩ other := by
  by_cases h : other = key
  · simp [get, h]
  · have hb : (other == key) = false := by simpa using h
    rw [get, List.lookup_cons, hb, if_neg h, get]

theorem get_filter (key other : String) (groups : List (String × List α)) :
    get ⟨groups.filter fun group => group.1 ≠ key⟩ other =
      if other = key then [] else get ⟨groups⟩ other := by
  induction groups with
  | nil => simp [get]
  | cons g rest ih =>
    by_cases hk : g.1 = key
    · rw [List.filter_cons_of_neg (by simpa using hk), ih, get_cons, hk]
      by_cases ho : other = key <;> simp [ho]
    · rw [List.filter_cons_of_pos (by simpa using hk), get_cons, get_cons, ih]
      by_cases ho : other = g.1
      · subst ho
        simp [hk]
      · simp [ho]

theorem get_put (p : Postings α) (key other : String) (entries : List α) :
    (p.put key entries).get other = if other = key then entries else p.get other := by
  by_cases he : entries.isEmpty = true
  · have : entries = [] := List.isEmpty_iff.1 he
    rw [put, if_pos he, get_filter, this]
  · rw [put, if_neg he, get_cons, get_filter]
    by_cases ho : other = key <;> simp [ho]

theorem get_insert [LT α] [DecidableLT α] (p : Postings α) (key other : String) (x : α) :
    (p.insert key x).get other =
      if other = key then insertSorted x (p.get key) else p.get other :=
  get_put p key other _

theorem get_erase (p : Postings α) (key other : String) (gone : α → Bool) :
    (p.erase key gone).get other =
      if other = key then (p.get key).filter fun x => !gone x else p.get other :=
  get_put p key other _

end Postings

end DebugMap
