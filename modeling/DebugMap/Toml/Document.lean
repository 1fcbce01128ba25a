import DebugMap.Toml.DateTime

/-!
# TOML documents

A document is a sequence of lines: keys with values, and headers that open a table or add one to an
array of tables. Values go to the table that the last header opened; that table takes its place in
the document when the next header, or the end of the text, closes it.
-/

set_option autoImplicit false

namespace DebugMap.Toml

open Reader

def nestingLimit : Nat := 79

/-- An array of values. A comma may follow the last one. -/
def arrayOf (value : Reader Value) : Reader Value := do
  let _ ← char '['
  let items ← Reader.optional (separated (filler *> value <* filler) (char ','))
  if items.isSome then
    let _ ← Reader.optional (char ',')
  filler
  let _ ← char ']'
  return .array (items.getD [])

/-- A key with its value, as a path, a last name and the value. -/
def assignment (value : Reader Value) : Reader (List String × String × Value) := do
  let names ← key
  let _ ← char '='
  spaces
  let v ← value
  match names.getLast? with
  | some last => return (names.dropLast, last, v)
  | none => failure

def insertAll : List (List String × String × Value) → Table → Option Table
  | [], t => some t
  | (path, name, v) :: rest, t => (t.insertValue path name v).bind (insertAll rest)

/-- An inline table, on one line and without a comma at the end. -/
def inlineTableOf (value : Reader Value) : Reader Value := do
  let _ ← char '{'
  let entries ← Reader.optional (separated (assignment value <* spaces) (char ','))
  spaces
  let _ ← char '}'
  match insertAll (entries.getD []) .empty with
  | some t => return .inlineTable t
  | none => failure

def scalar : Reader Value :=
  Value.string <$> string <|>
  Value.dateTime <$> dateTime <|>
  Value.float <$> float <|>
  Value.integer <$> integer <|>
  (literal ['t', 'r', 'u', 'e'] *> pure (.boolean true)) <|>
  (literal ['f', 'a', 'l', 's', 'e'] *> pure (.boolean false))

/-- **A value** in which arrays and inline tables nest at most `depth` deep. -/
def value : Nat → Reader Value
  | 0 => scalar
  | depth + 1 => scalar <|> arrayOf (value depth) <|> inlineTableOf (value depth)

/-- The table that is being filled: the document's own, or one that a header opened. -/
inductive Opened where
  | root
  | table (path : List String) (name : String)
  | element (path : List String) (name : String)
  deriving DecidableEq, Repr

/-- **A document in the making:** what is closed, and the open table. -/
structure Draft where
  root : Table := .empty
  opened : Opened := .root
  current : Table := .empty

namespace Draft

def close (d : Draft) : Option Table :=
  match d.opened with
  | .root => some d.current
  | .table path name =>
    d.root.updateAt false (fun parent =>
      match parent.get? name with
      | none => some (parent.set name (.table d.current))
      | some _ => none) path
  | .element path name =>
    d.root.updateAt false (fun parent =>
      match parent.get? name with
      | some (.tables elements) => some (parent.set name (.tables (elements ++ [d.current])))
      | _ => none) path

/-- Opens a table by its header. One that was only named so far, by a header, is taken up again and
moves to the end; any other must be new. -/
def openTable (root : Table) (path : List String) (name : String) : Option Draft := do
  let root ← root.updateAt false some path
  let found ← find path root
  match found with
  | none => some ⟨root, .table path name, .empty⟩
  | some (.table t) =>
    if t.implicit && !t.dotted then
      let root ← root.updateAt false (fun parent => some (parent.erase name)) path
      some ⟨root, .table path name, .mk false false t.entries⟩
    else none
  | some _ => none
where
  find : List String → Table → Option (Option Item)
    | [], t => some (t.get? name)
    | key :: rest, t =>
      match t.get? key with
      | some (.table child) => find rest child
      | some (.tables elements) => elements.getLast?.bind (find rest)
      | _ => none

def openElement (root : Table) (path : List String) (name : String) : Option Draft := do
  let root ← root.updateAt false (fun parent =>
    match parent.get? name with
    | none => some (parent.set name (.tables []))
    | some (.tables _) => some parent
    | some _ => none) path
  some ⟨root, .element path name, .empty⟩

def insert (d : Draft) (path : List String) (name : String) (v : Value) : Option Draft :=
  (d.current.insertValue path name v).map fun t => { d with current := t }

end Draft

inductive Expression where
  | assign (path : List String) (name : String) (value : Value)
  | table (path : List String) (name : String)
  | element (path : List String) (name : String)
  | blank

def splitKey (names : List String) : Reader (List String × String) :=
  match names.getLast? with
  | some last => pure (names.dropLast, last)
  | none => failure

def header : Reader Expression := do
  if ← ahead (literal ['[', '[']) then
    literal ['[', '[']
    let (path, name) ← splitKey (← key)
    literal [']', ']']
    lineRest
    return .element path name
  else
    let _ ← char '['
    let (path, name) ← splitKey (← key)
    let _ ← char ']'
    lineRest
    return .table path name

/-- One expression, up to the end of its line and the blanks in front of the next. -/
def expression : Reader Expression := do
  let e ← match ← peek with
    | some '#' => comment *> lineEnd *> pure .blank
    | some '[' => header
    | some '\n' | some '\r' => newline *> pure .blank
    | some _ => do
      let (path, name, v) ← assignment (value nestingLimit)
      lineRest
      pure (.assign path name v)
    | none => failure
  spaces
  return e

def Draft.add (d : Draft) : Expression → Option Draft
  | .blank => some d
  | .assign path name v => d.insert path name v
  | .table path name => d.close.bind fun root => openTable root path name
  | .element path name => d.close.bind fun root => openElement root path name

/-- The expressions of a text, which may start with a byte order mark. -/
def expressions : Reader (List Expression) := do
  let _ ← Reader.optional (char '\uFEFF')
  spaces
  let es ← many expression
  atEnd
  return es

/-- **Reads a document;** none if it is no valid TOML. -/
def parse? (text : String) : Option Table := do
  let (es, _) ← expressions text.toList
  let draft ← es.foldlM Draft.add {}
  draft.close

end DebugMap.Toml
