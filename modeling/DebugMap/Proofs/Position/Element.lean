import DebugMap.Position
import DebugMap.Proofs.Smali.Layout
import DebugMap.Query.Target

/-!
# What a position shows and where a breakpoint at it stops

A position keeps the smallest node around its offset; the code for it is found by the offset alone.
Main statement: `element_agrees_with_stop` (in a nested class the two never contradict each other).
-/

set_option autoImplicit false

namespace DebugMap

open Smali

theorem SourceFile.elementAt_of_classDef? {file : SourceFile} {c : ClassDef}
    (h : file.classDef? = some c) (offset : Nat) : file.elementAt offset = c.elementAt offset := by
  unfold classDef? at h
  split at h
  · rename_i c' hcontent
    obtain rfl := Option.some.inj h
    rw [elementAt, hcontent]
  · cases h

namespace Smali.ClassDef

variable {c : ClassDef} {offset k i : Nat}

/-- **What an offset of a class leads to**, if the node there is `element`. -/
structure Agrees (c : ClassDef) (offset : Nat) (element : Node) : Prop where
  element_iff : ∀ node, element = node ↔ c.Innermost offset node
  unique : ∀ k i k' i', c.Innermost offset (.instruction k i) →
    c.Innermost offset (.instruction k' i') → k = k' ∧ i = i'
  at_instruction : ∀ k i, element = .instruction k i →
    ∃ m x, c.methods[k]? = some m ∧ m.instructions[i]? = some x ∧
      c.methodContaining? offset = some (k, m) ∧ m.instructionAtOrAfter? offset = some (i, x) ∧
      ∀ config name, coverageIn config c name offset =
        .code ⟨name, m.name, m.descriptor, config.codeIndex x.codeOffset⟩
  /-- In a method and at no instruction, a breakpoint stops at the next one, if there is one. -/
  in_method : ∀ k, element = .method k →
    ∃ m, c.methods[k]? = some m ∧ c.methodContaining? offset = some (k, m) ∧
      m.instructionAtOrAfter? offset = first? (fun x => offset < x.range.start) m.instructions ∧
      ∀ config name, coverageIn config c name offset =
        match first? (fun x => offset < x.range.start) m.instructions with
        | none => .gap (.afterLastInstruction name m.signature offset)
        | some (_, x) => .code ⟨name, m.name, m.descriptor, config.codeIndex x.codeOffset⟩

theorem Nested.agrees (h : c.Nested) (offset : Nat) : c.Agrees offset (c.elementAt offset) where
  element_iff _ := h.elementAt_eq_iff
  unique k i k' i' hi hi' := by
    have heq := (h.elementAt_eq_iff.2 hi).symm.trans (h.elementAt_eq_iff.2 hi')
    exact ⟨(Node.instruction.inj heq).1, (Node.instruction.inj heq).2⟩
  at_instruction k i heq := by
    obtain ⟨m, x, hm, hx, -, hmethod, hstop⟩ := h.stop_of_instruction heq
    refine ⟨m, x, hm, hx, hmethod, hstop, fun config name => ?_⟩
    simp only [coverageIn, hmethod, hstop]
  in_method k heq := by
    obtain ⟨m, hm, hmethod, hstop⟩ := h.stop_of_method heq
    refine ⟨m, hm, hmethod, hstop, fun config name => ?_⟩
    cases hfirst : first? (fun x => decide (offset < x.range.start)) m.instructions with
    | none => simp only [coverageIn, hmethod, hstop, hfirst]
    | some found => simp only [coverageIn, hmethod, hstop, hfirst]

end Smali.ClassDef

namespace FilePosition

/-- **The node of a position and the stop of a breakpoint there** never contradict each other, if
the file's class is nested, as it is in each file that calls write. -/
theorem element_agrees_with_stop :
    (∀ (id : FileId) (file : SourceFile) (c : ClassDef), file.classDef? = some c → c.Nested →
      ∀ offset, c.Agrees offset (atOffset id file offset).element) ∧
    ∀ (className : String) (calls : List Call) (id : FileId) (offset : Nat),
      ∃ c, (writtenFile className calls).classDef? = some c ∧ c.Nested ∧
        c.Agrees offset (atOffset id (writtenFile className calls) offset).element := by
  have hagrees (id : FileId) (file : SourceFile) (c : ClassDef) (hc : file.classDef? = some c)
      (h : c.Nested) (offset : Nat) : c.Agrees offset (atOffset id file offset).element := by
    rw [atOffset, SourceFile.elementAt_of_classDef? hc]
    exact h.agrees offset
  refine ⟨hagrees, fun className calls id offset => ?_⟩
  have hc := classDef?_writtenFile className calls
  have hnested := nested_written className calls
  exact ⟨_, hc, hnested, hagrees id _ _ hc hnested offset⟩

/-- The second instruction of `f` is empty and stands where the third starts; `g` comes first in the
class and last in the text. Offset 4 is in the third, and at offset 6 that has ended. -/
theorem element_agrees_with_stop_empty :
    let c : ClassDef := ⟨"LA;", ⟨0, 12⟩, [⟨"g", "()V", ⟨10, 12⟩, []⟩,
      ⟨"f", "()V", ⟨0, 10⟩, [⟨⟨2, 4⟩, 0⟩, ⟨⟨4, 4⟩, 2⟩, ⟨⟨4, 6⟩, 2⟩]⟩]⟩
    c.Nested ∧ c.Agrees 4 (.instruction 1 2) ∧ c.Agrees 6 (.method 1) := by
  intro c
  have hnested : c.Nested := by decide
  have hagrees := element_agrees_with_stop.1 ⟨0⟩ ⟨"a", "", .smali c⟩ c rfl hnested
  exact ⟨hnested, hagrees 4, hagrees 6⟩

end FilePosition

end DebugMap
