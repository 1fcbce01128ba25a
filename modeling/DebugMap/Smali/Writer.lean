import DebugMap.Smali.Listing

/-!
# Writing a smali file call by call

A `Writer` grows the text of a file and notes, as it goes, where the methods and their instructions
stand. The body of a method is written into the same text by a `BodyWriter`. Every noted range is
made of the sizes that the text had before and after, so what is noted once has to stay true while
more is written. What a sequence of calls comes to is stated by the `Listing` of the calls.
-/

set_option autoImplicit false

namespace DebugMap.Smali

inductive BodyCall where
  | directive (line : String)
  | blank
  | instruction (line : String) (codeUnits : UInt64)
  | nops (count : Nat)
  deriving DecidableEq, Repr

/-- **The text of a file** up to some place in the body of a method, with the instructions of that
method so far and the size of their code. -/
structure BodyWriter where
  text : String
  codeOffset : UInt64 := 0
  instructions : Array Instruction := #[]

namespace BodyWriter

def directive (w : BodyWriter) (line : String) : BodyWriter :=
  { w with text := w.text ++ indent ++ line ++ "\n" }

def blank (w : BodyWriter) : BodyWriter :=
  { w with text := w.text ++ "\n" }

def instruction (w : BodyWriter) (line : String) (codeUnits : UInt64) : BodyWriter :=
  let opened := w.text ++ indent
  let start := opened.utf8ByteSize
  let closed := opened ++ line
  let stop := closed.utf8ByteSize
  { text := closed ++ "\n"
    codeOffset := w.codeOffset + codeUnits * unitBytes
    instructions := w.instructions.push { range := ⟨start, stop⟩, codeOffset := w.codeOffset } }

def nops (w : BodyWriter) : Nat → BodyWriter
  | 0 => w
  | count + 1 => (w.instruction "nop" 1).nops count

def write (w : BodyWriter) : BodyCall → BodyWriter
  | .directive line => w.directive line
  | .blank => w.blank
  | .instruction line codeUnits => w.instruction line codeUnits
  | .nops count => w.nops count

end BodyWriter

structure MethodCall where
  name : String
  descriptor : String
  body : List BodyCall
  deriving DecidableEq, Repr

inductive Call where
  | path (path : String)
  | directive (line : String)
  | method (call : MethodCall)
  deriving DecidableEq, Repr

/-- **A file being written:** its text so far, and the methods in it. -/
structure Writer where
  path : Option String := none
  className : String
  text : String
  methods : Array Method := #[]

namespace Writer

def start (className : String) : Writer where
  className := writtenName className
  text := ".class public " ++ writtenName className ++ "\n" ++ ".super Ljava/lang/Object;\n"

def directive (w : Writer) (line : String) : Writer :=
  { w with text := w.text ++ "\n" ++ line ++ "\n" }

def method (w : Writer) (call : MethodCall) : Writer :=
  let opened := w.text ++ "\n"
  let start := opened.utf8ByteSize
  let header := opened ++ ".method public " ++ call.name ++ call.descriptor ++ "\n"
  let body := call.body.foldl BodyWriter.write { text := header }
  let closed := body.text ++ ".end method\n"
  let stop := closed.utf8ByteSize
  { w with
    text := closed
    methods := w.methods.push
      { name := call.name
        descriptor := call.descriptor
        range := ⟨start, stop⟩
        instructions := body.instructions.toList } }

def write (w : Writer) : Call → Writer
  | .path path => { w with path := some path }
  | .directive line => w.directive line
  | .method call => w.method call

def finish (w : Writer) : SourceFile where
  path := w.path.getD (defaultPath w.className)
  text := w.text
  content := .smali
    { name := w.className
      range := ⟨0, w.text.utf8ByteSize⟩
      methods := w.methods.toList }

end Writer

/-- **The file that calls write**, in their order. -/
def writtenFile (className : String) (calls : List Call) : SourceFile :=
  (calls.foldl Writer.write (.start className)).finish

end DebugMap.Smali
