import DebugMap.Config.Basic
import DebugMap.Config.Error
import DebugMap.Toml.Document

/-!
# Loading settings

Settings are read from a TOML document. The document is read as a whole first, then its names are
taken in their order and the first bad one is reported, and last the settings are checked together.
A setting that is not given keeps its default.
-/

set_option autoImplicit false

namespace DebugMap

/-- Settings as they were written: not checked, and perhaps not all given. -/
structure ConfigDraft where
  codeUnitBytes : Option UInt32 := none
  verifyMethods : Option Bool := none
  deriving DecidableEq, Repr

namespace ConfigDraft

def word32 : Toml.Item → Except ConfigError UInt32
  | .value (.integer n) =>
    if 0 ≤ n ∧ n < UInt32.size then .ok (UInt32.ofNat n.toNat) else .error (.outOfRange n)
  | item => .error (.wrongType (.ofItem item) .word32)

def boolean : Toml.Item → Except ConfigError Bool
  | .value (.boolean flag) => .ok flag
  | item => .error (.wrongType (.ofItem item) .boolean)

def add (d : ConfigDraft) (entry : String × Toml.Item) : Except ConfigError ConfigDraft := do
  match entry.1 with
  | "code_unit_bytes" => return { d with codeUnitBytes := some (← word32 entry.2) }
  | "verify_runtime_methods" => return { d with verifyMethods := some (← boolean entry.2) }
  | name => .error (.unknownField name)

/-- Fills in the defaults and checks the settings. -/
def check (d : ConfigDraft) : Except ConfigError Config :=
  let bytes := d.codeUnitBytes.getD 2
  if h : 0 < bytes then
    .ok { codeUnitBytes := bytes
          verifyMethods := d.verifyMethods.getD true
          codeUnitBytes_pos := h }
  else .error .zeroCodeUnit

def ofTable (table : Toml.Table) : Except ConfigError ConfigDraft :=
  table.entries.foldlM add {}

theorem check_empty : check {} = .ok {} := rfl

end ConfigDraft

namespace Config

/-- **The settings of a document.** -/
def ofToml (text : String) : Except ConfigError Config :=
  match Toml.parse? text with
  | none => .error .notToml
  | some table => do (← ConfigDraft.ofTable table).check

/-- **The settings of a file.** -/
def load (cwd : TreePlace) (path : String) : Except ConfigError Config :=
  match cwd.readText path with
  | .error fault => .error (.unreadable path fault)
  | .ok text => ofToml text

end Config

end DebugMap
