import DebugMap.Smali.Writer

/-!
# What a sequence of calls writes

A writer notes where things stand while its one text grows; a listing computes it from the sizes of
the pieces. Main statement: `writtenFile_eq` (calls write the file that their listing lays out).
Both follow the same plan: what is there already stays, and each call adds its own text and its own
structure, placed at the end of the text that it finds.
-/

set_option autoImplicit false

namespace DebugMap.Smali

/-! ## The listing of the calls -/

def BodyCall.lines : BodyCall → List BodyLine
  | .directive line => [.directive line]
  | .blank => [.blank]
  | .instruction line codeUnits => [.instruction line codeUnits]
  | .nops count => BodyLine.nops count

def MethodCall.lines (call : MethodCall) : List BodyLine :=
  call.body.flatMap BodyCall.lines

def MethodCall.item (call : MethodCall) : Item :=
  .method call.name call.descriptor call.lines

def Call.item? : Call → Option Item
  | .path _ => none
  | .directive line => some (.directive line)
  | .method call => some call.item

def Call.path? : Call → Option String
  | .path name => some name
  | _ => none

/-- **The listing of the calls.** The last path counts. -/
def listing (className : String) (calls : List Call) : Listing where
  className := className
  path := (calls.filterMap Call.path?).getLast?
  items := calls.filterMap Call.item?

-- The equations that a rewrite by name would derive for these two are slow to find.

theorem methodHeader_eq (name descriptor : String) :
    methodHeader name descriptor = ".method public " ++ name ++ descriptor ++ "\n" := rfl

theorem Listing.header_eq (l : Listing) :
    l.header = ".class public " ++ writtenName l.className ++ "\n.super Ljava/lang/Object;\n" := rfl

/-! ## Bodies -/

namespace BodyWriter

def writeLine (w : BodyWriter) : BodyLine → BodyWriter
  | .directive line => w.directive line
  | .blank => w.blank
  | .instruction line codeUnits => w.instruction line codeUnits

theorem write_eq (w : BodyWriter) (call : BodyCall) :
    w.write call = call.lines.foldl writeLine w := by
  cases call with
  | directive | blank | instruction => rfl
  | nops count =>
    show w.nops count = (BodyLine.nops count).foldl writeLine w
    induction count generalizing w with
    | zero => rfl
    | succ count ih => exact ih (w.instruction "nop" 1)

theorem foldl_write (w : BodyWriter) (calls : List BodyCall) :
    calls.foldl write w = (calls.flatMap BodyCall.lines).foldl writeLine w := by
  rw [List.foldl_flatMap, ← funext fun w => funext fun call => write_eq w call]

theorem text_foldl_writeLine (w : BodyWriter) (lines : List BodyLine) :
    (lines.foldl writeLine w).text = w.text ++ String.join (lines.map BodyLine.text) := by
  induction lines generalizing w with
  | nil => exact String.append_empty.symm
  | cons line rest ih =>
    rw [List.foldl_cons, ih, List.map_cons, String.join_cons, ← String.append_assoc]
    cases line <;>
      simp only [writeLine, directive, blank, instruction, BodyLine.text, String.append_assoc]

/-- **The instructions of a body** stand where its lines place them, from the end of the text that
the writer started with. -/
theorem instructions_foldl_writeLine (w : BodyWriter) (lines : List BodyLine) :
    (lines.foldl writeLine w).instructions.toList =
      w.instructions.toList ++ placeInstructions w.text.utf8ByteSize w.codeOffset lines := by
  induction lines generalizing w with
  | nil => exact (List.append_nil _).symm
  | cons line rest ih =>
    rw [List.foldl_cons, ih]
    cases line <;>
      simp only [writeLine, directive, blank, instruction, placeInstructions, BodyLine.text,
        String.utf8ByteSize_append, Array.toList_push, List.append_assoc, List.cons_append,
        List.nil_append, Nat.add_assoc]

end BodyWriter

/-! ## Files -/

namespace Writer

theorem method_eq (w : Writer) (call : MethodCall) :
    w.method call =
      { w with
        text := w.text ++ call.item.text
        methods := w.methods.push
          (placeMethod (w.text.utf8ByteSize + "\n".utf8ByteSize) call.name call.descriptor
            call.lines) } := by
  simp only [method, BodyWriter.foldl_write, BodyWriter.text_foldl_writeLine,
    BodyWriter.instructions_foldl_writeLine, placeMethod, MethodCall.item, Item.text, methodText,
    methodHeader_eq, methodFooter, MethodCall.lines, String.append_assoc, String.utf8ByteSize_append,
    Nat.add_assoc]
  rfl

/-- **What calls add to a file** that is being written: the text of their items, and the methods
placed from its end on. -/
theorem foldl_write (w : Writer) (calls : List Call) :
    calls.foldl write w =
      { w with
        path := (calls.filterMap Call.path?).getLast?.or w.path
        text := w.text ++ String.join ((calls.filterMap Call.item?).map Item.text)
        methods := w.methods ++
          (placeMethods w.text.utf8ByteSize (calls.filterMap Call.item?)).toArray } := by
  induction calls generalizing w with
  | nil => simp [placeMethods]
  | cons call rest ih =>
    rw [List.foldl_cons, ih]
    cases call with
    | path name =>
      have hitems : (Call.path name :: rest).filterMap Call.item? = rest.filterMap Call.item? := rfl
      have hpaths : (Call.path name :: rest).filterMap Call.path? =
          name :: rest.filterMap Call.path? := rfl
      rw [hitems, hpaths, List.getLast?_cons]
      cases (rest.filterMap Call.path?).getLast? <;> rfl
    | directive line =>
      simp [write, directive, Call.path?, Call.item?, placeMethods, Item.text,
        String.append_assoc]
    | method call =>
      simp [write, method_eq, Call.path?, Call.item?, MethodCall.item, placeMethods,
        String.append_assoc]

end Writer

/-- **Calls write the file that their listing lays out.** -/
theorem writtenFile_eq (className : String) (calls : List Call) :
    writtenFile className calls = (listing className calls).toFile := by
  have hheader : (Writer.start className).text = (listing className calls).header := by
    simp [Writer.start, Listing.header_eq, listing, String.append_assoc]
  rw [writtenFile, Writer.foldl_write, hheader]
  simp [Writer.finish, Writer.start, Listing.toFile, Listing.classDef, Listing.text, listing]

end DebugMap.Smali
