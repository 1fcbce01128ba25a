import DebugMap.Number.Binary64

/-!
# TOML values and tables

A document is a table of named items: values, tables, and arrays of tables. Tables come into being
in several ways, and what may be added to a table later depends on how it did: a table that was only
named on the way to another one (`implicit`) may still be opened by a header of its own, unless it
was named by a dotted key (`dotted`). Names keep the order in which they were added.
-/

set_option autoImplicit false

namespace DebugMap.Toml

structure Date where
  year : Nat
  month : Nat
  day : Nat
  deriving DecidableEq, Repr

structure Time where
  hour : Nat
  minute : Nat
  second : Nat
  fraction : List Char
  deriving DecidableEq, Repr

/-- A date, a time of day, or both, the latter perhaps with an offset in minutes. -/
inductive DateTime where
  | date (date : Date)
  | time (time : Time)
  | dateTime (date : Date) (time : Time) (offset : Option Int)
  deriving DecidableEq, Repr

mutual

/-- **A value** of a key. -/
inductive Value where
  | string (text : String)
  | integer (number : Int)
  | float (number : Binary64)
  | boolean (flag : Bool)
  | dateTime (value : DateTime)
  | array (items : List Value)
  | inlineTable (table : Table)

/-- **A table:** how it came into being, and its items by name. -/
inductive Table where
  | mk (implicit dotted : Bool) (entries : List (String × Item))

inductive Item where
  | value (value : Value)
  | table (table : Table)
  | tables (elements : List Table)

end

namespace Table

def implicit : Table → Bool
  | mk i _ _ => i

def dotted : Table → Bool
  | mk _ d _ => d

def entries : Table → List (String × Item)
  | mk _ _ e => e

def empty : Table :=
  mk false false []

/-- A table that was only named on the way to another one. -/
def onTheWay (dotted : Bool) : Table :=
  mk true dotted []

def get? (t : Table) (key : String) : Option Item :=
  t.entries.lookup key

/-- Sets an item: a present name keeps its place, a new one is added at the end. -/
def set (t : Table) (key : String) (item : Item) : Table :=
  match t.get? key with
  | some _ =>
    mk t.implicit t.dotted
      (t.entries.map fun entry => if entry.1 = key then (key, item) else entry)
  | none => mk t.implicit t.dotted (t.entries ++ [(key, item)])

def erase (t : Table) (key : String) : Table :=
  mk t.implicit t.dotted (t.entries.filter fun entry => entry.1 ≠ key)

/-- **Changes the table at the end of a path.** Tables on the way are made as needed. A path leads
through the last table of an array of tables; it does not lead through a value, and a dotted key
does not lead into a table that was opened by a header. -/
def updateAt (viaDots : Bool) (change : Table → Option Table) :
    List String → Table → Option Table
  | [], t => change t
  | key :: rest, t =>
    match t.get? key with
    | none =>
      (updateAt viaDots change rest (onTheWay viaDots)).map fun child => t.set key (.table child)
    | some (.value _) => none
    | some (.tables elements) =>
      match elements.getLast? with
      | none => none
      | some last =>
        (updateAt viaDots change rest last).map fun child =>
          t.set key (.tables (elements.dropLast ++ [child]))
    | some (.table child) =>
      if viaDots && !child.implicit then none
      else (updateAt viaDots change rest child).map fun child => t.set key (.table child)

/-- **Adds a value under a dotted key,** given by the path to the table and the last name. A table
can get values by dotted keys or by its own header, but not by both; a name can be used once. -/
def insertValue (t : Table) (path : List String) (key : String) (value : Value) : Option Table :=
  t.updateAt true (fun target => do
    if target.dotted == path.isEmpty then none
    else if (target.get? key).isSome then none
    else some (target.set key (.value value))) path

end Table

end DebugMap.Toml
