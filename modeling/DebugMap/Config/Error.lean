import DebugMap.Files.Tree
import DebugMap.Number.Shortest
import DebugMap.Text.Quoted
import DebugMap.Toml.Value

/-!
# Why settings are refused
-/

set_option autoImplicit false

namespace DebugMap

inductive FoundValue where
  | integer (number : Int)
  | float (number : Binary64)
  | boolean (flag : Bool)
  | string (text : String)
  | sequence
  | map
  deriving DecidableEq, Repr

namespace FoundValue

/-- What a value is called in a message; dates and times go by the name of a map. -/
def ofValue : Toml.Value → FoundValue
  | .string text => .string text
  | .integer number => .integer number
  | .float number => .float number
  | .boolean flag => .boolean flag
  | .array _ => .sequence
  | .dateTime _ => .map
  | .inlineTable _ => .map

def ofItem : Toml.Item → FoundValue
  | .value v => ofValue v
  | .table _ => .map
  | .tables _ => .sequence

def describe : FoundValue → String
  | integer number => "integer `" ++ toString number ++ "`"
  | float number => "floating point `" ++ number.text ++ "`"
  | boolean flag => "boolean `" ++ toString flag ++ "`"
  | string text => "string " ++ Text.quoted text
  | sequence => "sequence"
  | map => "map"

end FoundValue

inductive SettingKind where
  | word32
  | boolean
  deriving DecidableEq, Repr

def SettingKind.describe : SettingKind → String
  | .word32 => "u32"
  | .boolean => "a boolean"

/-- **Why settings are refused.** -/
inductive ConfigError where
  | unreadable (path : String) (fault : ReadFault)
  | notToml
  | unknownField (name : String)
  | wrongType (found : FoundValue) (expected : SettingKind)
  | outOfRange (number : Int)
  | zeroCodeUnit
  deriving DecidableEq, Repr

def ConfigError.message : ConfigError → String
  | .unreadable path fault => "failed to read config file " ++ path ++ ": " ++ fault.message
  | .notToml => "failed to parse toml config: not a TOML document"
  | .unknownField name =>
    "failed to parse toml config: unknown field `" ++ name ++
      "`, expected `code_unit_bytes` or `verify_runtime_methods`"
  | .wrongType found expected =>
    "failed to parse toml config: invalid type: " ++ found.describe ++ ", expected " ++
      expected.describe
  | .outOfRange number =>
    "failed to parse toml config: invalid value: " ++ (FoundValue.integer number).describe ++
      ", expected " ++ SettingKind.word32.describe
  | .zeroCodeUnit => "invalid config: code_unit_bytes must be at least 1"

end DebugMap
