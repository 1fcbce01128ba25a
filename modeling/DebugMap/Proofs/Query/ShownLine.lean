import DebugMap.Proofs.ClassName.Descriptor
import DebugMap.Proofs.Position.Element
import DebugMap.Proofs.Position.Gutter
import DebugMap.Proofs.Query.RoundTrip

/-!
# The line where an instruction is shown

In a file that calls write, an instruction whose text can be seen has its line for itself, and a
click beside the line leads to that instruction. Main statements: `OnOwnLine.atLine?` (where a click
beside such a line lands), `always_sourcePosition` (what a query shows, whatever an index answers)
and `click_beside_shown_line`.
-/

set_option autoImplicit false

namespace DebugMap

open Smali Text

/-! ## Clicks beside the line of an instruction -/

namespace Smali.OnOwnLine

variable {text line : String} {range : TextRange}

theorem isLine (h : OnOwnLine text range line) (hline : '\n' ∉ line.toList) :
    ∃ number before after, IsLine text.toList number before (indent.toList ++ line.toList) after ∧
      range.start = byteLength before + byteLength indent.toList ∧
      range.stop = range.start + byteLength line.toList := by
  obtain ⟨before, after, htext, rfl⟩ := h
  refine ⟨_, before.toList ++ ['\n'], '\n' :: after.toList,
    ⟨?_, .inr ⟨_, rfl⟩, ?_, .inr ⟨_, rfl⟩, rfl⟩, ?_, ?_⟩
  · rw [htext]
    simp [String.toList_append]
  · rw [List.mem_append, not_or]
    exact ⟨by decide, hline⟩
  · rw [utf8ByteSize_eq, String.toList_append, String.toList_append, ← List.append_assoc,
      byteLength_append]
    rfl
  · rw [utf8ByteSize_eq line]

/-- **A click beside the line of an instruction** lands in the instruction, if there is something of
it to see: the indentation and the blanks that it starts with are passed over. -/
theorem atLine? {file : SourceFile} (hcount : file.lines.lineCount < UInt32.size)
    (h : OnOwnLine file.text range line) (hline : '\n' ∉ line.toList)
    (hvisible : ∃ c ∈ line.toList, isBlank c = false) (id : FileId) :
    ∃ offset, FilePosition.atLine? id file (file.lines.lineOf range.start) =
        some (.atOffset id file offset) ∧
      file.lines.lineOf offset = file.lines.lineOf range.start ∧
      range.contains offset = true := by
  obtain ⟨number, before, after, hisLine, hstart, hstop⟩ := h.isLine hline
  obtain ⟨blanks, c, rest, hcut, hblanks, hc⟩ := FilePosition.exists_visible hvisible
  have hindent : ∀ b ∈ indent.toList ++ blanks, isBlank b = true := by
    intro b hb
    rcases List.mem_append.1 hb with hb | hb
    · exact List.all_eq_true.1 (by decide : indent.toList.all isBlank = true) b hb
    · exact hblanks b hb
  have hcolumn : FilePosition.firstColumn (indent.toList ++ line.toList) =
      byteLength indent.toList + byteLength blanks := by
    rw [hcut, ← List.append_assoc, FilePosition.firstColumn_append hindent hc, byteLength_append]
  have hnumber : file.lines.lineOf range.start = number := by
    rw [hstart]
    exact hisLine.lineOf_of_lt hcount (Nat.le_add_right _ _) (by rw [byteLength_append]; omega)
  rw [hnumber]
  have hlt : number < UInt32.size := hisLine.le_lineCount.trans_lt hcount
  refine ⟨_, hisLine.atLine? id, hisLine.line_atLine?.trans (Nat.mod_eq_of_lt hlt), ?_⟩
  have hpos := c.utf8Size_pos
  rw [hcut, byteLength_append, byteLength] at hstop
  rw [TextRange.contains_iff, hcolumn]
  omega

end Smali.OnOwnLine

/-! ## What a query shows -/

/-- **The position of an instruction** of a present file. -/
def Store.ShowsInstruction (store : Store) (pos : FilePosition) : Prop :=
  ∃ file c k m i x, store.file? pos.file = some file ∧ file.classDef? = some c ∧
    c.methods[k]? = some m ∧ m.instructions[i]? = some x ∧ pos.offset = x.range.start ∧
    pos.line = file.lines.lineOf x.range.start ∧ pos.element = .instruction k i

theorem Store.showsInstruction_of_positionIn {store : Store} {config : Config} {name : String}
    {location : RuntimeLocation} {symbol : MethodSymbol} {pos : FilePosition}
    (h : store.positionIn config name location symbol = .ok pos) : store.ShowsInstruction pos := by
  unfold positionIn at h
  split at h
  · cases h
  · rename_i file hfile
    split at h
    · cases h
    · rename_i m hmethod
      obtain ⟨c, hc, hm⟩ := SourceFile.methodAt?_eq_some_iff.1 hmethod
      obtain ⟨i, x, hx, rfl⟩ := MethodSite.positionAt_eq_ok_iff.1 h
      have hi := (Method.instructionFrom?_eq_some_iff.1 hx).1
      exact ⟨file, c, _, m, i, x, hfile, hc, hm, hi, rfl, rfl, rfl⟩

namespace Query

/-- **A location is shown at an instruction** of a present file, if at all, whatever the index
answers. -/
theorem always_sourcePosition (store : Store) (config : Config) (location : RuntimeLocation) :
    (sourcePosition config location).Always (standing store) fun outcome =>
      ∀ pos, outcome = .ok pos → store.ShowsInstruction pos := by
  unfold sourcePosition
  cases ClassName.binary? location.declaringType with
  | none => rintro _ ⟨⟩
  | some name =>
    intro (answer : Store) (hanswer : answer = store) (classes : List ClassSymbol) _
    subst hanswer
    show Dialogue.Always _ _ (pickFirst (.ambiguousClass name) _ >>= _)
    rw [Dialogue.always_bind]
    refine Dialogue.always_of_forall (fun chosen => ?_) _
    cases chosen with
    | none => rintro _ ⟨⟩
    | some chosen =>
      intro (methods : List MethodSymbol) _
      show Dialogue.Always _ _ (pickFirst (.ambiguousMethod location.signature) _ >>= _)
      rw [Dialogue.always_bind]
      refine Dialogue.always_of_forall (fun symbol => ?_) _
      cases symbol with
      | none => rintro _ ⟨⟩
      | some symbol => exact fun pos hpos => Store.showsInstruction_of_positionIn hpos

/-! ## Files that calls write -/

/-- **A click beside a line leads to an instruction**: it is the instruction that is displayed, and
the one where a breakpoint stops. -/
def ClickLeadsTo (store : Store) (config : Config) (id : FileId) (className : String)
    (line k i : Nat) (m : Method) (x : Instruction) : Prop :=
  ∃ file pos codeIndex, store.file? id = some file ∧
    FilePosition.atLine? id file line = some pos ∧ pos.line = line ∧
    pos.element = .instruction k i ∧
    store.coverage config pos = .ok (.code ⟨className, m.name, m.descriptor, codeIndex⟩) ∧
    codeIndex.toNat = x.codeOffset.toNat / config.codeUnitBytes.toNat

section

variable {className name : String} {calls : List Call} {store : Store} {k i : Nat} {m : Method}
  {x : Instruction}

theorem coverage_written (hname : ClassName.binary? className = some name) (config : Config)
    {pos : FilePosition} (hfile : store.file? pos.file = some (writtenFile className calls))
    (hm : (writtenClass className calls).methods[k]? = some m) (hx : m.instructions[i]? = some x)
    (hin : x.range.contains pos.offset = true) :
    store.coverage config pos =
      .ok (.code ⟨name, m.name, m.descriptor, config.codeIndex x.codeOffset⟩) := by
  have hnested := nested_written className calls
  have hmethod := hnested.nested m (List.mem_of_getElem? hm)
  have hclass : store.classDef? pos.file = some (writtenClass className calls) := by
    rw [Store.classDef?, hfile, Option.bind_some, classDef?_writtenFile]
  have hqualified : (writtenClass className calls).qualifiedName? = some name :=
    (binary?_writtenName className).trans hname
  exact Store.coverage_of_nested config hclass hnested hqualified hm
    (hmethod.inside x (List.mem_of_getElem? hx) _ hin)
    (hmethod.instructionAtOrAfter?_of_contains hx hin)

theorem clickLeadsTo_written (hname : ClassName.binary? className = some name)
    (hlines : ∀ call ∈ calls.filterMap Call.method?, ∀ entry ∈ call.code,
      '\n' ∉ entry.1.toList ∧ ∃ c ∈ entry.1.toList, isBlank c = false)
    (hcount : (writtenFile className calls).lines.lineCount < UInt32.size) {id : FileId}
    (hfile : store.file? id = some (writtenFile className calls)) (config : Config)
    (hm : (writtenClass className calls).methods[k]? = some m)
    (hx : m.instructions[i]? = some x) :
    ClickLeadsTo store config id name
      ((writtenFile className calls).lines.lineOf x.range.start) k i m x := by
  obtain ⟨call, hcall, hstands⟩ := exists_of_forall₂ (standsAs_written className calls) hm
  obtain ⟨entry, hentry, hline⟩ := exists_of_forall₂ hstands.onOwnLine hx
  obtain ⟨hnewline, hvisible⟩ :=
    hlines call (List.mem_of_getElem? hcall) entry (List.mem_of_getElem? hentry)
  obtain ⟨offset, hpos, hnumber, hin⟩ := hline.atLine? hcount hnewline hvisible id
  have helement : (writtenFile className calls).elementAt offset = .instruction k i := by
    rw [SourceFile.elementAt_of_classDef? (classDef?_writtenFile className calls)]
    exact (nested_written className calls).elementAt_eq_iff.2 ⟨m, x, hm, hx, hin⟩
  exact ⟨_, _, _, hfile, hpos, hnumber, helement, coverage_written hname config hfile hm hx hin,
    config.toNat_codeIndex _⟩

theorem ClickLeadsTo.unique {config : Config} {id : FileId} {line k' i' : Nat} {m' : Method}
    {x' : Instruction} (h : ClickLeadsTo store config id name line k i m x)
    (h' : ClickLeadsTo store config id name line k' i' m' x') : k = k' ∧ i = i' := by
  obtain ⟨file, pos, -, hfile, hpos, -, helement, -⟩ := h
  obtain ⟨file', pos', -, hfile', hpos', -, helement', -⟩ := h'
  obtain rfl : file = file' := Option.some.inj (hfile.symm.trans hfile')
  obtain rfl : pos = pos' := Option.some.inj (hpos.symm.trans hpos')
  have heq := helement.symm.trans helement'
  exact ⟨(Node.instruction.inj heq).1, (Node.instruction.inj heq).2⟩

end

/-- **The line of an instruction leads back to it.** Let calls write a file of a class with a valid
name, of fewer than 2 ^ 32 lines, where each instruction is in one line and has something to see;
directives and names may be anything. No two instructions share a line. A click beside the line of
one leads to it, and so does a click beside the line of any position in the file that is shown for a
location. -/
theorem click_beside_shown_line {className name : String} {calls : List Call}
    (hname : ClassName.binary? className = some name)
    (hlines : ∀ call ∈ calls.filterMap Call.method?, ∀ entry ∈ call.code,
      '\n' ∉ entry.1.toList ∧ ∃ c ∈ entry.1.toList, isBlank c = false)
    (hcount : (writtenFile className calls).lines.lineCount < UInt32.size) {store : Store}
    {id : FileId} (hfile : store.file? id = some (writtenFile className calls)) (config : Config) :
    ∃ c, (writtenFile className calls).classDef? = some c ∧
      (∀ (k i k' i' : Nat) (m m' : Method) (x x' : Instruction), c.methods[k]? = some m →
        m.instructions[i]? = some x → c.methods[k']? = some m' → m'.instructions[i']? = some x' →
        (writtenFile className calls).lines.lineOf x.range.start =
          (writtenFile className calls).lines.lineOf x'.range.start → k = k' ∧ i = i') ∧
      (∀ (k i : Nat) (m : Method) (x : Instruction), c.methods[k]? = some m →
        m.instructions[i]? = some x →
        ClickLeadsTo store config id name
          ((writtenFile className calls).lines.lineOf x.range.start) k i m x) ∧
      ∀ location, (sourcePosition config location).Always (standing store) fun outcome =>
        ∀ pos, outcome = .ok pos → pos.file = id →
          ∃ (k i : Nat) (m : Method) (x : Instruction), c.methods[k]? = some m ∧
            m.instructions[i]? = some x ∧ pos.offset = x.range.start ∧
            pos.element = .instruction k i ∧
            ClickLeadsTo store config id name pos.line k i m x := by
  have hclass := classDef?_writtenFile className calls
  refine ⟨_, hclass, ?_, ?_, fun location => ?_⟩
  · intro k i k' i' m m' x x' hm hx hm' hx' hline
    have hclick := clickLeadsTo_written hname hlines hcount hfile config hm hx
    rw [hline] at hclick
    exact hclick.unique (clickLeadsTo_written hname hlines hcount hfile config hm' hx')
  · intro k i m x hm hx
    exact clickLeadsTo_written hname hlines hcount hfile config hm hx
  · refine (always_sourcePosition store config location).mono fun outcome hshows pos hpos hid => ?_
    obtain ⟨file, c, k, m, i, x, hshown, hc, hm, hx, hoffset, hline, helement⟩ := hshows pos hpos
    obtain rfl : _ = file := Option.some.inj (hfile.symm.trans (hid ▸ hshown))
    obtain rfl : _ = c := Option.some.inj (hclass.symm.trans hc)
    refine ⟨k, i, m, x, hm, hx, hoffset, helement, ?_⟩
    rw [hline]
    exact clickLeadsTo_written hname hlines hcount hfile config hm hx

/-- A directive of three lines comes first. The first instruction starts with a no-break space,
which a click beside its line passes over. -/
theorem click_beside_shown_line_indented :
    let calls : List Call := [.directive "x\n\ny", .method ⟨"f", "()V",
      [.directive "é", .instruction "\u00A0ß" 2, .nops 1]⟩]
    let file := writtenFile "a.B" calls
    let f : Method := ⟨"f", "()V", ⟨53, 109⟩, [⟨⟨84, 88⟩, 0⟩, ⟨⟨93, 96⟩, 4⟩]⟩
    ClickLeadsTo ⟨[(⟨3⟩, file)], 4, 1⟩ {} ⟨3⟩ "a.B" 10 0 0 f ⟨⟨84, 88⟩, 0⟩ ∧
      ClickLeadsTo ⟨[(⟨3⟩, file)], 4, 1⟩ {} ⟨3⟩ "a.B" 11 0 1 f ⟨⟨93, 96⟩, 4⟩ := by
  intro calls file f
  have hname : ClassName.binary? "a.B" = some "a.B" := rfl
  have hlines : ∀ call ∈ calls.filterMap Call.method?, ∀ entry ∈ call.code,
      '\n' ∉ entry.1.toList ∧ entry.1.toList.any (!isBlank ·) = true := by
    decide
  simp only [List.any_eq_true, Bool.not_eq_true'] at hlines
  have hfile : (Store.mk [(⟨3⟩, file)] 4 1).file? ⟨3⟩ = some file := rfl
  obtain ⟨c, hc, -, hclick, -⟩ := click_beside_shown_line hname hlines (by decide +kernel) hfile {}
  have hclass : file.classDef? = some ⟨"La/B;", ⟨0, 109⟩, [f]⟩ := by decide +kernel
  obtain rfl : _ = c := Option.some.inj (hclass.symm.trans hc)
  have hfirst : file.lines.lineOf 84 = 10 := by decide +kernel
  have hsecond : file.lines.lineOf 93 = 11 := by decide +kernel
  have hleads := hclick 0 0 f _ rfl rfl
  have hleads' := hclick 0 1 f _ rfl rfl
  rw [hfirst] at hleads
  rw [hsecond] at hleads'
  exact ⟨hleads, hleads'⟩

end Query

end DebugMap
