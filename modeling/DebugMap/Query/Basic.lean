import DebugMap.Dialogue
import DebugMap.Error
import DebugMap.Index.Basic
import DebugMap.Log
import DebugMap.Text.Quoted

/-!
# Questions of a position query

A query reads the store, consults the index, asks the process and tells the log what it notices.
Each of these is a question of a dialogue, so what a query asks, and in which order, can be read
off it. The store is read once, as a whole: what the process does while it answers cannot change
what a query has read.
-/

set_option autoImplicit false

namespace DebugMap

inductive QueryEvent where
  | ambiguousClass (name : String) (candidates : Nat) (chosen : ClassSymbol)
  | ambiguousMethod (signature : String) (candidates : Nat) (chosen : MethodSymbol)
  | outsideMethods (className : String) (offset : Nat)
  | afterLastInstruction (className method : String) (offset : Nat)
  | unrelatedType (loaded className : String)
  | undeclaredMethod (className method : String)
  | resolvedTypes (className : String) (loaded : Nat)
  deriving DecidableEq, Repr

def ClassSymbol.describe (s : ClassSymbol) : String :=
  "ClassSymbol \x7b file: FileId(" ++ toString s.file.raw ++ "), name: " ++ Text.quoted s.name ++
    " \x7d"

def MethodSymbol.describe (s : MethodSymbol) : String :=
  "MethodSymbol \x7b file: FileId(" ++ toString s.file.raw ++ "), method: " ++
    toString s.method ++ ", name_and_proto: " ++ Text.quoted s.signature ++ " \x7d"

namespace QueryEvent

def ambiguity (kind symbol : String) (candidates : Nat) (chosen : String) : LogRecord where
  level := .debug
  message := "ambiguous smali symbol; using first candidate"
  fields := [("symbol_kind", .text kind), ("symbol", .text symbol),
    ("candidates", .number candidates), ("chosen", .text chosen)]

def record : QueryEvent → LogRecord
  | ambiguousClass name candidates chosen => ambiguity "class" name candidates chosen.describe
  | ambiguousMethod signature candidates chosen =>
    ambiguity "method" signature candidates chosen.describe
  | outsideMethods className offset =>
    { level := .debug
      message := "position is outside any method"
      fields := [("class", .text className), ("offset", .number offset)] }
  | afterLastInstruction className method offset =>
    { level := .debug
      message := "position is after the last instruction"
      fields := [("class", .text className), ("method", .text method),
        ("offset", .number offset)] }
  | unrelatedType loaded className =>
    { level := .debug
      message := "loaded type does not back this smali class"
      fields := [("loaded", .text loaded), ("class", .text className)] }
  | undeclaredMethod className method =>
    { level := .debug
      message := "loaded type does not declare method"
      fields := [("class", .text className), ("method", .text method)] }
  | resolvedTypes className loaded =>
    { level := .trace
      message := "resolved loaded classes"
      fields := [("class", .text className), ("loaded", .number loaded)] }

end QueryEvent

namespace Query

/-- **What a query may ask** of its surroundings. -/
inductive Question where
  | store
  | classSymbols (name : String) (scope : SearchScope)
  | methodSymbols (signature : String) (scope : SearchScope)
  | loadedTypes (name : String)
  | declares (type : RuntimeType) (name descriptor : String)
  /-- Something the log may be told. -/
  | note (event : QueryEvent)
  deriving DecidableEq, Repr

/-- The answers to a question. The process may fail to answer. -/
def Question.Answer : Question → Type
  | .store => Store
  | .classSymbols .. => List ClassSymbol
  | .methodSymbols .. => List MethodSymbol
  | .loadedTypes _ => Except HostError (List RuntimeType)
  | .declares .. => Except HostError Bool
  | .note _ => Unit

end Query

abbrev Query : Type → Type :=
  Dialogue Query.Question Query.Question.Answer

abbrev Outcome (α : Type) : Type :=
  Except PositionError α

namespace Query

def ask (q : Question) : Query q.Answer :=
  Dialogue.question q

def note (event : QueryEvent) : Query Unit :=
  ask (.note event)

def noMapping {α : Type} (reason : NoMapping) : Query (Outcome α) :=
  pure (.error (.noMapping reason))

/-- Goes on from a result, unless it is a failure. -/
def andThen {α β : Type} (result : Outcome α) (next : α → Query (Outcome β)) :
    Query (Outcome β) :=
  match result with
  | .ok a => next a
  | .error e => pure (.error e)

def orUnavailable {α β : Type} (answer : Except HostError α)
    (next : α → Query (Outcome β)) : Query (Outcome β) :=
  match answer with
  | .ok a => next a
  | .error e => pure (.error (.hostUnavailable e))

end Query

end DebugMap
