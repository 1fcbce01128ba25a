import DebugMap.Smali.Basic

/-!
# Listings: smali text laid out together with its structure

A `Listing` says what a smali file is to hold; `Listing.toFile` lays its text out and records where
everything went. Top-level directives stand at column 0 and method bodies are indented by four
spaces. The text is the concatenation of the items' texts, and the recorded ranges are computed
from the sizes of the pieces before them.
-/

set_option autoImplicit false

namespace DebugMap.Smali

def indent : String := "    "

def unitBytes : UInt64 := 2

/-- A line of a method's body. A directive is any line that holds no code. -/
inductive BodyLine where
  | instruction (line : String) (codeUnits : UInt64)
  | directive (line : String)
  | blank
  deriving DecidableEq, Repr

namespace BodyLine

def text : BodyLine → String
  | .instruction line _ => indent ++ line ++ "\n"
  | .directive line => indent ++ line ++ "\n"
  | .blank => "\n"

/-- `count` instructions that do nothing, one code unit each. -/
def nops (count : Nat) : List BodyLine :=
  List.replicate count (.instruction "nop" 1)

end BodyLine

/-- Where the instructions of a body stand, if the body starts at `offset` of the text and at
`codeOffset` of the code. -/
def placeInstructions (offset : Nat) (codeOffset : UInt64) : List BodyLine → List Instruction
  | [] => []
  | .instruction line codeUnits :: rest =>
    let start := offset + indent.utf8ByteSize
    { range := ⟨start, start + line.utf8ByteSize⟩, codeOffset } ::
      placeInstructions (offset + (BodyLine.instruction line codeUnits).text.utf8ByteSize)
        (codeOffset + codeUnits * unitBytes) rest
  | line :: rest => placeInstructions (offset + line.text.utf8ByteSize) codeOffset rest

inductive Item where
  | directive (line : String)
  | method (name descriptor : String) (body : List BodyLine)
  deriving DecidableEq, Repr

def methodHeader (name descriptor : String) : String :=
  ".method public " ++ name ++ descriptor ++ "\n"

def methodFooter : String := ".end method\n"

def methodText (name descriptor : String) (body : List BodyLine) : String :=
  methodHeader name descriptor ++ String.join (body.map BodyLine.text) ++ methodFooter

/-- The text of an item: a blank line, then the item. -/
def Item.text : Item → String
  | .directive line => "\n" ++ (line ++ "\n")
  | .method name descriptor body => "\n" ++ methodText name descriptor body

def placeMethod (start : Nat) (name descriptor : String) (body : List BodyLine) : Method where
  name := name
  descriptor := descriptor
  range := ⟨start, start + (methodText name descriptor body).utf8ByteSize⟩
  instructions := placeInstructions (start + (methodHeader name descriptor).utf8ByteSize) 0 body

def placeMethods (offset : Nat) : List Item → List Method
  | [] => []
  | .directive line :: rest =>
    placeMethods (offset + (Item.directive line).text.utf8ByteSize) rest
  | .method name descriptor body :: rest =>
    placeMethod (offset + "\n".utf8ByteSize) name descriptor body ::
      placeMethods (offset + (Item.method name descriptor body).text.utf8ByteSize) rest

/-- The class name as a file writes it: its descriptor, or the given text if it is no class name. -/
def writtenName (className : String) : String :=
  (ClassName.descriptor? className).getD className

def defaultPath (writtenName : String) : String :=
  match ClassName.unwrap? writtenName.toList with
  | some inner => String.ofList inner ++ ".smali"
  | none => writtenName ++ ".smali"

/-- **What a smali file is to hold.** The class name may have any spelling; without a path the
file is named after its class. -/
structure Listing where
  className : String
  path : Option String := none
  items : List Item := []
  deriving DecidableEq, Repr

namespace Listing

def header (l : Listing) : String :=
  ".class public " ++ writtenName l.className ++ "\n.super Ljava/lang/Object;\n"

def text (l : Listing) : String :=
  l.header ++ String.join (l.items.map Item.text)

def classDef (l : Listing) : ClassDef where
  name := writtenName l.className
  range := ⟨0, l.text.utf8ByteSize⟩
  methods := placeMethods l.header.utf8ByteSize l.items

/-- **The file laid out**, with its structure. -/
def toFile (l : Listing) : SourceFile where
  path := l.path.getD (defaultPath (writtenName l.className))
  text := l.text
  content := .smali l.classDef

end Listing

end DebugMap.Smali
