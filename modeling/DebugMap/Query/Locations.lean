import DebugMap.Query.Target

/-!
# From a position to runtime locations

The places in loaded types at which execution can stop for a position of a file. An empty answer
means that the position is inside a class but has no code, or that the class is not loaded; a
position that has no class is an error.
-/

set_option autoImplicit false

namespace DebugMap.Query

/-- The location of a target in one loaded type: none if the type is of another class, or if the
process has to be asked and the type does not declare the method. -/
def locationIn (config : Config) (target : CodeTarget) (type : RuntimeType) :
    Query (Outcome (Option RuntimeLocation)) :=
  let location : RuntimeLocation :=
    ⟨type.id, type.name, target.methodName, target.methodDescriptor, target.codeIndex⟩
  if ClassName.sameClass type.name target.className then
    if config.verifyMethods then do
      let answer ← ask (.declares type target.methodName target.methodDescriptor)
      orUnavailable answer fun declared =>
        if declared then pure (.ok (some location))
        else do
          note (.undeclaredMethod type.name (target.methodName ++ target.methodDescriptor))
          pure (.ok none)
    else pure (.ok (some location))
  else do
    note (.unrelatedType type.name target.className)
    pure (.ok none)

/-- The locations of a target in loaded types, in their order. The first failure ends it. -/
def locationsIn (config : Config) (target : CodeTarget) :
    List RuntimeType → Query (Outcome (List RuntimeLocation))
  | [] => pure (.ok [])
  | type :: rest => do
    andThen (← locationIn config target type) fun found => do
      andThen (← locationsIn config target rest) fun more =>
        pure (.ok (found.toList ++ more))

/-- Goes on with the code for a position. Where there is none, the answer is empty. -/
def withTarget (config : Config) (pos : FilePosition)
    (next : CodeTarget → Query (Outcome (List RuntimeLocation))) :
    Query (Outcome (List RuntimeLocation)) := do
  let store ← ask .store
  andThen (store.coverage config pos) fun
    | .gap event => do
      note event
      pure (.ok [])
    | .code target => next target

/-- **The runtime locations of a position** in every loaded type of its class. -/
def runtimeLocations (config : Config) (pos : FilePosition) :
    Query (Outcome (List RuntimeLocation)) :=
  withTarget config pos fun target => do
    orUnavailable (← ask (.loadedTypes target.className)) fun types =>
      locationsIn config target types

/-- **The runtime locations of a position in one loaded type**, at most one. -/
def locationsForType (config : Config) (type : RuntimeType) (pos : FilePosition) :
    Query (Outcome (List RuntimeLocation)) :=
  withTarget config pos fun target => do
    andThen (← locationIn config target type) fun found => pure (.ok found.toList)

def classNameAt (pos : FilePosition) : Query (Outcome String) := do
  let store ← ask .store
  pure (store.classNameAt pos)

/-- **The loaded types of the class** around a position. Types that the process reports under a
name of another class are left out. -/
def loadedClasses (pos : FilePosition) : Query (Outcome (List RuntimeType)) := do
  andThen (← classNameAt pos) fun name => do
    orUnavailable (← ask (.loadedTypes name)) fun types => do
      let own := types.filter fun type => ClassName.sameClass type.name name
      note (.resolvedTypes name own.length)
      pure (.ok own)

end DebugMap.Query
