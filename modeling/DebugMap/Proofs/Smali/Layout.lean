import DebugMap.Proofs.Smali.Lookup
import DebugMap.Proofs.Smali.Writer
import Mathlib.Algebra.GroupWithZero.Nat
import Mathlib.Data.List.Forall2

/-!
# Where calls leave what they write

The file that calls write has one method for each method call and one instruction for each that its
body writes. What was noted of each, when less of the text was there, holds of the whole text. Main
statements: `MethodCall.standsAs_written` (each method is where its text stands),
`StandsAs.onOwnLine` (each instruction has a line of its own) and `writtenFile_laidOut`.
-/

set_option autoImplicit false

namespace DebugMap.Smali

/-! ## Where a line stands -/

/-- **An indented line of its own:** `line` stands at `range` of the text, between newlines but for
the indentation. -/
def OnOwnLine (text : String) (range : TextRange) (line : String) : Prop :=
  ∃ before after : String, text = before ++ ("\n" ++ indent) ++ line ++ ("\n" ++ after) ∧
    range =
      ⟨(before ++ ("\n" ++ indent)).utf8ByteSize,
        (before ++ ("\n" ++ indent)).utf8ByteSize + line.utf8ByteSize⟩

theorem slice?_of_eq {text before piece after : String} (h : text = before ++ piece ++ after) :
    Text.slice? text.toList
      ⟨before.utf8ByteSize, before.utf8ByteSize + piece.utf8ByteSize⟩ = some piece.toList := by
  rw [h, String.toList_append, String.toList_append, Text.utf8ByteSize_eq, Text.utf8ByteSize_eq]
  exact Text.slice?_append _ _ _

theorem OnOwnLine.slice? {text line : String} {range : TextRange} (h : OnOwnLine text range line) :
    Text.slice? text.toList range = some line.toList := by
  obtain ⟨before, after, htext, rfl⟩ := h
  exact slice?_of_eq htext

/-! ## The instructions of a body -/

/-- The instruction that a line holds, and the code units that it takes. -/
def BodyLine.code? : BodyLine → Option (String × UInt64)
  | .instruction line codeUnits => some (line, codeUnits)
  | _ => none

theorem BodyLine.exists_text_eq (line : BodyLine) : ∃ inner, line.text = inner ++ "\n" := by
  cases line with
  | instruction line _ | directive line => exact ⟨indent ++ line, rfl⟩
  | blank => exact ⟨"", rfl⟩

section

variable {lines : List BodyLine} {codeOffset : UInt64} {offset : Nat}

def bodySize (lines : List BodyLine) : Nat :=
  (String.join (lines.map BodyLine.text)).utf8ByteSize

theorem bodySize_cons (line : BodyLine) (rest : List BodyLine) :
    bodySize (line :: rest) = line.text.utf8ByteSize + bodySize rest := by
  rw [bodySize, List.map_cons, String.join_cons, String.utf8ByteSize_append, bodySize]

/-- **Each instruction of a body** stands on a line of its own, if the body follows a newline. -/
theorem onOwnLine_placeInstructions {text before after : String}
    (h : text = before ++ "\n" ++ String.join (lines.map BodyLine.text) ++ after)
    (codeOffset : UInt64) :
    List.Forall₂ (fun entry x => OnOwnLine text x.range entry.1) (lines.filterMap BodyLine.code?)
      (placeInstructions (before ++ "\n").utf8ByteSize codeOffset lines) := by
  induction lines generalizing before codeOffset with
  | nil => exact .nil
  | cons line rest ih =>
    obtain ⟨inner, hinner⟩ := line.exists_text_eq
    have hrest : text =
        before ++ "\n" ++ inner ++ "\n" ++ String.join (rest.map BodyLine.text) ++ after := by
      rw [h, List.map_cons, String.join_cons, hinner]
      simp only [String.append_assoc]
    have hsize : (before ++ "\n" ++ inner ++ "\n").utf8ByteSize =
        (before ++ "\n").utf8ByteSize + line.text.utf8ByteSize := by
      rw [hinner, String.append_assoc, String.utf8ByteSize_append]
    have tail := fun codeOffset => hsize ▸ ih hrest codeOffset
    cases line with
    | directive line => exact tail codeOffset
    | blank => exact tail codeOffset
    | instruction line codeUnits =>
      refine .cons ⟨before, String.join (rest.map BodyLine.text) ++ after, ?_, ?_⟩ (tail _)
      · rw [h, List.map_cons, String.join_cons, BodyLine.text]
        simp only [String.append_assoc]
      · rw [← String.append_assoc, String.utf8ByteSize_append (t := indent)]

theorem bounds_placeInstructions {x : Instruction}
    (h : x ∈ placeInstructions offset codeOffset lines) :
    offset < x.range.start ∧ x.range.start ≤ x.range.stop ∧
      x.range.stop < offset + bodySize lines := by
  induction lines generalizing offset codeOffset with
  | nil => cases h
  | cons line rest ih =>
    have htail {codeOffset : UInt64}
        (hmem : x ∈ placeInstructions (offset + line.text.utf8ByteSize) codeOffset rest) :
        offset < x.range.start ∧ x.range.start ≤ x.range.stop ∧
          x.range.stop < offset + bodySize (line :: rest) := by
      have := ih hmem
      rw [bodySize_cons]
      omega
    cases line with
    | directive line => exact htail h
    | blank => exact htail h
    | instruction line codeUnits =>
      rcases List.mem_cons.1 h with rfl | h
      · have hindent : indent.utf8ByteSize = 4 := rfl
        have hnewline : "\n".utf8ByteSize = 1 := rfl
        rw [bodySize_cons]
        simp only [BodyLine.text, String.utf8ByteSize_append, hindent, hnewline]
        omega
      · exact htail h

theorem pairwise_placeInstructions :
    (placeInstructions offset codeOffset lines).Pairwise fun x y =>
      x.range.stop < y.range.start := by
  induction lines generalizing offset codeOffset with
  | nil => exact .nil
  | cons line rest ih =>
    cases line with
    | directive line => exact ih
    | blank => exact ih
    | instruction line codeUnits =>
      refine .cons (fun y hy => ?_) ih
      have := (bounds_placeInstructions hy).1
      have hnewline : "\n".utf8ByteSize = 1 := rfl
      simp only [BodyLine.text, String.utf8ByteSize_append, hnewline] at this ⊢
      omega

/-- **Code offsets add up** the code units before, two bytes each, if the sum fits in 64 bits. -/
theorem codeOffset_placeInstructions
    (hfits : codeOffset.toNat +
      2 * ((lines.filterMap BodyLine.code?).map fun entry => entry.2.toNat).sum < 2 ^ 64)
    {i : Nat} {x : Instruction}
    (hx : (placeInstructions offset codeOffset lines)[i]? = some x) :
    x.codeOffset.toNat =
      codeOffset.toNat +
        2 * (((lines.filterMap BodyLine.code?).take i).map fun entry => entry.2.toNat).sum := by
  induction lines generalizing offset codeOffset i with
  | nil => cases hx
  | cons line rest ih =>
    cases line with
    | directive line => exact ih hfits hx
    | blank => exact ih hfits hx
    | instruction line codeUnits =>
      have hcode : (BodyLine.instruction line codeUnits :: rest).filterMap BodyLine.code? =
          (line, codeUnits) :: rest.filterMap BodyLine.code? := rfl
      rw [hcode] at hfits ⊢
      cases i with
      | zero =>
        cases hx
        simp
      | succ i =>
        rw [List.map_cons, List.sum_cons] at hfits
        dsimp only at hfits
        have hnext : (codeOffset + codeUnits * unitBytes).toNat =
            codeOffset.toNat + 2 * codeUnits.toNat := by
          have htwo : unitBytes.toNat = 2 := rfl
          rw [UInt64.toNat_add, UInt64.toNat_mul, htwo]
          omega
        rw [List.take_succ_cons, List.map_cons, List.sum_cons, ih (by omega) hx, hnext]
        dsimp only
        omega

end

/-! ## The methods of a file -/

namespace MethodCall

def text (call : MethodCall) : String :=
  methodText call.name call.descriptor call.lines

/-- **The instructions that a method call writes**, with their code units. -/
def code (call : MethodCall) : List (String × UInt64) :=
  call.lines.filterMap BodyLine.code?

/-- **The method of a call** in a text: it is placed where the call's text stands. -/
def StandsAs (call : MethodCall) (text : String) (m : Method) : Prop :=
  ∃ before after : String, text = before ++ "\n" ++ call.text ++ after ∧
    m = placeMethod (before ++ "\n").utf8ByteSize call.name call.descriptor call.lines

end MethodCall

def Call.method? : Call → Option MethodCall
  | .method call => some call
  | _ => none

theorem standsAs_placeMethods {calls : List Call} {text before after : String}
    (h : text =
      before ++ String.join ((calls.filterMap Call.item?).map Item.text) ++ after) :
    List.Forall₂ (fun call m => call.StandsAs text m) (calls.filterMap Call.method?)
      (placeMethods before.utf8ByteSize (calls.filterMap Call.item?)) := by
  induction calls generalizing before with
  | nil => exact .nil
  | cons call rest ih =>
    -- A call that writes an item leaves the text before the rest longer by that item.
    have tail (item : Item) (hitem : call.item? = some item) :
        List.Forall₂ (fun call m => call.StandsAs text m) (rest.filterMap Call.method?)
          (placeMethods (before.utf8ByteSize + item.text.utf8ByteSize)
            (rest.filterMap Call.item?)) := by
      rw [← String.utf8ByteSize_append]
      refine ih ?_
      rw [h, List.filterMap_cons_some hitem, List.map_cons, String.join_cons]
      simp only [String.append_assoc]
    cases call with
    | path name => exact ih h
    | directive line => exact tail _ rfl
    | method call =>
      refine .cons ⟨before, String.join ((rest.filterMap Call.item?).map Item.text) ++ after,
        ?_, ?_⟩ (tail _ rfl)
      · rw [h, List.filterMap_cons_some (show (Call.method call).item? = some call.item from rfl),
          List.map_cons, String.join_cons, MethodCall.item, Item.text, MethodCall.text]
        simp only [String.append_assoc]
      · rw [String.utf8ByteSize_append]

section

variable {items : List Item} {offset : Nat}

def itemsSize (items : List Item) : Nat :=
  (String.join (items.map Item.text)).utf8ByteSize

theorem itemsSize_cons (item : Item) (rest : List Item) :
    itemsSize (item :: rest) = item.text.utf8ByteSize + itemsSize rest := by
  rw [itemsSize, List.map_cons, String.join_cons, String.utf8ByteSize_append, itemsSize]

theorem methodText_size_pos (name descriptor : String) (lines : List BodyLine) :
    0 < (methodText name descriptor lines).utf8ByteSize := by
  have hfooter : methodFooter.utf8ByteSize = 12 := rfl
  rw [methodText, String.utf8ByteSize_append, hfooter]
  omega

theorem bounds_placeMethods {m : Method} (h : m ∈ placeMethods offset items) :
    offset < m.range.start ∧ m.range.start < m.range.stop ∧
      m.range.stop ≤ offset + itemsSize items := by
  induction items generalizing offset with
  | nil => cases h
  | cons item rest ih =>
    have htail (hmem : m ∈ placeMethods (offset + item.text.utf8ByteSize) rest) :
        offset < m.range.start ∧ m.range.start < m.range.stop ∧
          m.range.stop ≤ offset + itemsSize (item :: rest) := by
      have := ih hmem
      rw [itemsSize_cons]
      omega
    cases item with
    | directive line => exact htail h
    | method name descriptor body =>
      rcases List.mem_cons.1 h with rfl | h
      · have hnewline : "\n".utf8ByteSize = 1 := rfl
        have hpos := methodText_size_pos name descriptor body
        rw [itemsSize_cons]
        simp only [placeMethod, Item.text, String.utf8ByteSize_append, hnewline]
        omega
      · exact htail h

theorem pairwise_placeMethods :
    (placeMethods offset items).Pairwise fun a b => a.range.stop < b.range.start := by
  induction items generalizing offset with
  | nil => exact .nil
  | cons item rest ih =>
    cases item with
    | directive line => exact ih
    | method name descriptor body =>
      refine .cons (fun m hm => ?_) ih
      have := (bounds_placeMethods hm).1
      simp only [placeMethod, Item.text, String.utf8ByteSize_append] at this ⊢
      omega

end

namespace MethodCall.StandsAs

variable {call : MethodCall} {text : String} {m : Method}

theorem slice? (h : call.StandsAs text m) :
    Text.slice? text.toList m.range = some call.text.toList := by
  obtain ⟨before, after, htext, rfl⟩ := h
  exact slice?_of_eq htext

/-- **Each instruction of a method call** stands on a line of its own. -/
theorem onOwnLine (h : call.StandsAs text m) :
    List.Forall₂ (fun entry x => OnOwnLine text x.range entry.1) call.code m.instructions := by
  obtain ⟨before, after, htext, rfl⟩ := h
  have hbody : text =
      before ++ "\n" ++ ".method public " ++ call.name ++ call.descriptor ++ "\n" ++
        String.join (call.lines.map BodyLine.text) ++ (methodFooter ++ after) := by
    rw [htext, MethodCall.text, methodText, methodHeader_eq]
    simp only [String.append_assoc]
  have hsize : (before ++ "\n" ++ ".method public " ++ call.name ++ call.descriptor ++
        "\n").utf8ByteSize =
      (before ++ "\n").utf8ByteSize + (methodHeader call.name call.descriptor).utf8ByteSize := by
    rw [← String.utf8ByteSize_append, methodHeader_eq]
    simp only [String.append_assoc]
  have hlines := onOwnLine_placeInstructions hbody 0
  rwa [hsize] at hlines

theorem within (h : call.StandsAs text m) {x : Instruction} (hx : x ∈ m.instructions) :
    m.range.start < x.range.start ∧ x.range.start ≤ x.range.stop ∧
      x.range.stop < m.range.stop := by
  obtain ⟨before, after, -, rfl⟩ := h
  have := bounds_placeInstructions hx
  simp only [placeMethod, methodText, String.utf8ByteSize_append, bodySize] at this ⊢
  omega

theorem successive (h : call.StandsAs text m) :
    m.instructions.Pairwise fun x y => x.range.stop < y.range.start := by
  obtain ⟨before, after, -, rfl⟩ := h
  exact pairwise_placeInstructions

theorem codeOffset_eq (h : call.StandsAs text m)
    (hfits : 2 * (call.code.map fun entry => entry.2.toNat).sum < 2 ^ 64) {i : Nat}
    {x : Instruction} (hx : m.instructions[i]? = some x) :
    x.codeOffset.toNat = 2 * ((call.code.take i).map fun entry => entry.2.toNat).sum := by
  obtain ⟨before, after, -, rfl⟩ := h
  have hzero : (0 : UInt64).toNat = 0 := rfl
  rw [codeOffset_placeInstructions (by rwa [hzero, Nat.zero_add]) hx, hzero, Nat.zero_add, code]

theorem nested (h : call.StandsAs text m) : m.Nested where
  forward _ hx := (h.within hx).2.1
  inside _ hx := TextRange.inside_iff.2 <| .inr ⟨(h.within hx).1.le, (h.within hx).2.2.le⟩
  successive := (h.successive.imp fun hlt => hlt.le).isChain

end MethodCall.StandsAs

/-! ## The file -/

theorem exists_of_forall₂ {α β : Type} {R : α → β → Prop} {as : List α} {bs : List β}
    (h : List.Forall₂ R as bs) {i : Nat} {b : β} (hb : bs[i]? = some b) :
    ∃ a, as[i]? = some a ∧ R a b := by
  obtain ⟨hi, rfl⟩ := List.getElem?_eq_some_iff.1 hb
  have hlen : i < as.length := h.length_eq ▸ hi
  exact ⟨as[i], List.getElem?_eq_getElem hlen, h.get hlen hi⟩

def writtenClass (className : String) (calls : List Call) : ClassDef :=
  (listing className calls).classDef

section

variable (className : String) (calls : List Call)

theorem classDef?_writtenFile :
    (writtenFile className calls).classDef? = some (writtenClass className calls) := by
  rw [writtenFile_eq]
  rfl

theorem range_writtenClass :
    (writtenClass className calls).range =
      ⟨0, (writtenFile className calls).text.utf8ByteSize⟩ := by
  rw [writtenFile_eq]
  rfl

/-- **The methods of the file** are those of the method calls, in their order. -/
theorem standsAs_written :
    List.Forall₂ (fun call m => call.StandsAs (writtenFile className calls).text m)
      (calls.filterMap Call.method?) (writtenClass className calls).methods := by
  have htext : (writtenFile className calls).text =
      (listing className calls).header ++
        String.join ((calls.filterMap Call.item?).map Item.text) ++ "" := by
    rw [writtenFile_eq, String.append_empty]
    rfl
  exact standsAs_placeMethods htext

theorem within_writtenClass {m : Method} (hm : m ∈ (writtenClass className calls).methods) :
    m.range.start < m.range.stop ∧
      m.range.stop ≤ (writtenFile className calls).text.utf8ByteSize := by
  obtain ⟨-, hnonempty, hstop⟩ := bounds_placeMethods hm
  rw [writtenFile_eq, Listing.toFile, Listing.text, String.utf8ByteSize_append]
  exact ⟨hnonempty, hstop⟩

theorem nested_written : (writtenClass className calls).Nested where
  apart := pairwise_placeMethods.imp fun {a b} hlt => by
    rw [TextRange.apart_iff]
    omega
  inside m hm := by
    rw [TextRange.inside_iff, range_writtenClass]
    exact .inr ⟨Nat.zero_le _, (within_writtenClass className calls hm).2⟩
  nested m hm := by
    obtain ⟨k, hk⟩ := List.getElem?_of_mem hm
    obtain ⟨call, -, hcall⟩ := exists_of_forall₂ (standsAs_written className calls) hk
    exact hcall.nested

end

/-- **A method as its call asked for it**, in the text of the whole file. -/
structure MethodCall.LaidOut (call : MethodCall) (text : String) (m : Method) : Prop where
  name_eq : m.name = call.name
  descriptor_eq : m.descriptor = call.descriptor
  nonempty : m.range.start < m.range.stop
  text_eq : Text.slice? text.toList m.range =
    some (".method public " ++ call.name ++ call.descriptor ++ "\n" ++
      String.join (call.lines.map BodyLine.text) ++ ".end method\n").toList
  /-- The instructions are the calls' own, in their order, and each is the text passed. -/
  instructions : List.Forall₂ (fun entry x => Text.slice? text.toList x.range = some entry.1.toList)
    call.code m.instructions
  inside : ∀ x ∈ m.instructions, m.range.start ≤ x.range.start ∧ x.range.start ≤ x.range.stop ∧
    x.range.stop ≤ m.range.stop
  successive : m.instructions.Pairwise fun x y => x.range.stop < y.range.start
  codeOffset_eq : ∀ i x, m.instructions[i]? = some x →
    x.codeOffset.toNat = 2 * ((call.code.take i).map fun entry => entry.2.toNat).sum

theorem MethodCall.StandsAs.laidOut {call : MethodCall} {text : String} {m : Method}
    (h : call.StandsAs text m)
    (hfits : 2 * (call.code.map fun entry => entry.2.toNat).sum < 2 ^ 64) :
    call.LaidOut text m where
  name_eq := by
    obtain ⟨before, after, -, rfl⟩ := h
    rfl
  descriptor_eq := by
    obtain ⟨before, after, -, rfl⟩ := h
    rfl
  nonempty := by
    obtain ⟨before, after, -, rfl⟩ := h
    exact Nat.lt_add_of_pos_right (methodText_size_pos _ _ _)
  text_eq := h.slice?
  instructions := h.onOwnLine.imp fun _ _ hline => hline.slice?
  inside _ hx := ⟨(h.within hx).1.le, (h.within hx).2.1, (h.within hx).2.2.le⟩
  successive := h.successive
  codeOffset_eq _ _ hx := h.codeOffset_eq hfits hx

/-- **What was noted while the text grew holds of the file.** Whatever the calls are, and whatever
the strings passed: the class is the whole text; it has the methods of the method calls, in their
order, one behind the other; and each method is laid out as its call asked, if its code fits in 64
bits. -/
theorem writtenFile_laidOut (className : String) (calls : List Call)
    (hfits : ∀ call ∈ calls.filterMap Call.method?,
      2 * (call.code.map fun entry => entry.2.toNat).sum < 2 ^ 64) :
    ∃ c, (writtenFile className calls).classDef? = some c ∧
      c.range = ⟨0, (writtenFile className calls).text.utf8ByteSize⟩ ∧
      List.Forall₂ (fun call m => call.LaidOut (writtenFile className calls).text m)
        (calls.filterMap Call.method?) c.methods ∧
      (c.methods.Pairwise fun a b => a.range.Apart b.range ∧ a.range.stop < b.range.start) ∧
      ∀ m ∈ c.methods, c.range.start ≤ m.range.start ∧ m.range.stop ≤ c.range.stop := by
  refine ⟨_, classDef?_writtenFile className calls, range_writtenClass className calls, ?_, ?_, ?_⟩
  · have hboth := (List.forall₂_and_left _ _).2 ⟨hfits, standsAs_written className calls⟩
    exact hboth.imp fun call m ⟨hcode, hstands⟩ => hstands.laidOut hcode
  · exact (nested_written className calls).apart.and pairwise_placeMethods
  · intro m hm
    rw [range_writtenClass]
    exact ⟨Nat.zero_le _, (within_writtenClass className calls hm).2⟩

/-- A directive of two lines, an instruction without text, one of two lines, and two of no
effect. -/
theorem writtenFile_laidOut_umlauts :
    let calls : List Call := [.path "p", .directive "é", .method ⟨"f", "()V",
      [.directive "x\ny", .instruction "" 3, .blank, .instruction "ß\nΩ" 1, .nops 2]⟩]
    ∃ c m, (writtenFile "a.B" calls).classDef? = some c ∧ c.methods = [m] ∧
      Text.slice? (writtenFile "a.B" calls).text.toList m.range =
        some (".method public f()V\n    x\ny\n    \n\n    ß\nΩ\n    nop\n    nop\n" ++
          ".end method\n").toList ∧
      m.instructions.length = 4 ∧
      ∀ x, m.instructions[3]? = some x → x.codeOffset.toNat = 10 := by
  obtain ⟨c, hc, -, hmethods, -⟩ := writtenFile_laidOut "a.B"
    [.path "p", .directive "é", .method ⟨"f", "()V",
      [.directive "x\ny", .instruction "" 3, .blank, .instruction "ß\nΩ" 1, .nops 2]⟩]
    (by decide)
  obtain ⟨m, rest, hm, hrest, hmethods'⟩ := List.forall₂_cons_left_iff.1 hmethods
  cases hrest
  exact ⟨c, m, hc, hmethods', hm.text_eq, hm.instructions.length_eq.symm, hm.codeOffset_eq 3⟩

end DebugMap.Smali
