import DebugMap.Text.Blank
import DebugMap.Text.Segments

/-!
# Class names

A class has two spellings: the runtime reports binary names (`com.example.Foo`), a smali file
writes descriptors (`Lcom/example/Foo;`). Everything that is looked up by class name is first
brought into binary form, so both spellings reach the same entry. Array types and malformed names
have no binary form.
-/

set_option autoImplicit false

namespace DebugMap.ClassName

def unwrap? : List Char → Option (List Char)
  | 'L' :: r => if r.getLast? = some ';' then some r.dropLast else none
  | _ => none

/-- The part of a trimmed name that spells the class: the inside of `L…;`, or the name itself if
it has no such wrapper and no `;` at all. -/
def body? (t : List Char) : Option (List Char) :=
  match unwrap? t with
  | some c => some c
  | none => if ';' ∈ t then none else some t

def dotted (c : Char) : Char :=
  if c = '/' then '.' else c

def slashed (c : Char) : Char :=
  if c = '.' then '/' else c

/-- The binary form of a trimmed spelling. -/
def normalize? (t : List Char) : Option (List Char) :=
  if t = [] ∨ t.head? = some '[' then none
  else
    (body? t).bind fun c =>
      if c = [] ∨ ';' ∈ c ∨ '[' ∈ c then none
      else if Text.hasEmptySegment '.' (c.map dotted) then none
      else some (c.map dotted)

/-- **The binary name** of a class written as a descriptor, with slashes or with dots. Blanks at
the ends do not count. -/
def binary? (name : String) : Option String :=
  (normalize? (Text.trim name.toList)).map String.ofList

def wrap (binary : List Char) : List Char :=
  'L' :: binary.map slashed ++ [';']

/-- **The descriptor** of a class in any accepted spelling. -/
def descriptor? (name : String) : Option String :=
  (binary? name).map fun b => String.ofList (wrap b.toList)

def sameClass (name binary : String) : Bool :=
  binary? name == some binary

@[simp] theorem sameClass_iff {name binary : String} :
    sameClass name binary = true ↔ binary? name = some binary := by
  simp [sameClass]

theorem descriptor?_isSome {name : String} :
    (descriptor? name).isSome = (binary? name).isSome := by
  simp [descriptor?]

end DebugMap.ClassName
