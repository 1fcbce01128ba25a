import DebugMap.Text.Lines
import DebugMap.ClassName

/-!
# Structure of a smali file

A disassembled file holds one class, its methods and their instructions, each with its range in
the text. Ranges come from whoever read the text and may be anything; nothing here assumes that
they nest. Two searches matter: the smallest node that encloses an offset (`elementAt`), and the
instruction at which execution can stop for an offset (`Method.instructionAtOrAfter?`). Main
statements: `first?_eq_some_iff` (a search finds the first match) and `first?_eq_none_iff`.
-/

set_option autoImplicit false

namespace DebugMap

/-- **The first entry** that satisfies `p`, with its position. -/
def first? {α : Type} (p : α → Bool) (xs : List α) : Option (Nat × α) :=
  (xs.findIdx? p).bind fun i => xs[i]?.map (i, ·)

theorem first?_eq_some_iff {α : Type} {p : α → Bool} {xs : List α} {i : Nat} {a : α} :
    first? p xs = some (i, a) ↔
      xs[i]? = some a ∧ p a = true ∧ ∀ j b, j < i → xs[j]? = some b → p b = false := by
  simp only [first?, Option.bind_eq_some_iff, Option.map_eq_some_iff, Prod.mk.injEq,
    List.findIdx?_eq_some_iff_getElem]
  constructor
  · rintro ⟨k, ⟨hk, hp, hlt⟩, b, hb, rfl, rfl⟩
    refine ⟨hb, ?_, fun j c hj hc => ?_⟩
    · rw [List.getElem?_eq_getElem hk] at hb
      cases hb
      exact hp
    · have hlen : j < xs.length := by omega
      rw [List.getElem?_eq_getElem hlen] at hc
      cases hc
      simpa using hlt j hj
  · rintro ⟨hi, hp, hlt⟩
    obtain ⟨hlen, rfl⟩ := List.getElem?_eq_some_iff.1 hi
    refine ⟨i, ⟨hlen, hp, fun j hj => ?_⟩, _, hi, rfl, rfl⟩
    simpa using hlt j xs[j] hj (List.getElem?_eq_getElem (by omega))

theorem first?_eq_none_iff {α : Type} {p : α → Bool} {xs : List α} :
    first? p xs = none ↔ ∀ a ∈ xs, p a = false := by
  constructor
  · intro h a ha
    cases hf : xs.findIdx? p with
    | none => exact List.findIdx?_eq_none_iff.1 hf a ha
    | some i =>
      obtain ⟨hi, -⟩ := List.findIdx?_eq_some_iff_getElem.1 hf
      simp [first?, hf, List.getElem?_eq_getElem hi] at h
  · intro h
    simp [first?, List.findIdx?_eq_none_iff.2 h]

namespace Smali

structure Instruction where
  range : TextRange
  codeOffset : UInt64
  deriving DecidableEq, Repr

structure Method where
  name : String
  descriptor : String
  range : TextRange
  instructions : List Instruction
  deriving DecidableEq, Repr

namespace Method

/-- Name and descriptor in one word, as the runtime spells a method (`bar()V`). -/
def signature (m : Method) : String :=
  m.name ++ m.descriptor

def instructionAtCodeOffset? (m : Method) (codeOffset : UInt64) : Option (Nat × Instruction) :=
  first? (fun i => codeOffset ≤ i.codeOffset) m.instructions

/-- The instruction at a text offset of the method, or else the next one: blank and directive
lines lead to the instruction that follows them, and what stands after the last instruction leads
to none. -/
def instructionAtOrAfter? (m : Method) (offset : Nat) : Option (Nat × Instruction) :=
  if m.range.contains offset then first? (fun i => offset < i.range.stop) m.instructions else none

end Method

/-- The class of a file. Its name is kept as written. -/
structure ClassDef where
  name : String
  range : TextRange
  methods : List Method
  deriving DecidableEq, Repr

inductive Node where
  | file
  | classDef
  | method (method : Nat)
  | instruction (method index : Nat)
  deriving DecidableEq, Repr

namespace ClassDef

def qualifiedName? (c : ClassDef) : Option String :=
  ClassName.binary? c.name

def methodContaining? (c : ClassDef) (offset : Nat) : Option (Nat × Method) :=
  first? (fun m => m.range.contains offset) c.methods

def elementAt (c : ClassDef) (offset : Nat) : Node :=
  if c.range.contains offset then
    match c.methodContaining? offset with
    | none => .classDef
    | some (m, method) =>
      match first? (fun i => i.range.contains offset) method.instructions with
      | none => .method m
      | some (i, _) => .instruction m i
  else .file

end ClassDef

/-- What a source file is: a smali file, which defines one class, or any other text in which a
debugger may place positions. -/
inductive Content where
  | smali (classDef : ClassDef)
  | foreign
  deriving DecidableEq, Repr

end Smali

open Smali

structure SourceFile where
  path : String
  text : String
  content : Content
  deriving DecidableEq, Repr

namespace SourceFile

def lines (f : SourceFile) : LineTable :=
  LineTable.ofText f.text

def classDef? (f : SourceFile) : Option ClassDef :=
  match f.content with
  | .smali c => some c
  | .foreign => none

def elementAt (f : SourceFile) (offset : Nat) : Node :=
  match f.content with
  | .smali c => c.elementAt offset
  | .foreign => .file

end SourceFile

end DebugMap
