/-!
# Log records

What is told to whoever listens to the log: a level, a fixed message and named values.
-/

set_option autoImplicit false

namespace DebugMap

inductive LogLevel where
  | debug
  | trace
  deriving DecidableEq, Repr

inductive LogValue where
  | text (value : String)
  | number (value : Int)
  deriving DecidableEq, Repr

structure LogRecord where
  level : LogLevel
  message : String
  fields : List (String × LogValue)
  deriving DecidableEq, Repr

end DebugMap
