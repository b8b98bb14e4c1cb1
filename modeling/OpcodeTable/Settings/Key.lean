import OpcodeTable.Settings
import OpcodeTable.Settings.Mismatch

/-!
# Settings by key

Each setting has a key under which a settings file names it. Five of them are texts, and one is
the name of an opcode type.
-/

namespace OpcodeTable.Settings

inductive Key where
  | header
  | moduleName
  | opcodeType
  | countName
  | tableName
  | accessorName
  deriving DecidableEq, Repr

namespace Key

def all : List Key :=
  [header, moduleName, opcodeType, countName, tableName, accessorName]

def name : Key → String
  | header => "header"
  | moduleName => "module"
  | opcodeType => "opcode_type"
  | countName => "count_name"
  | tableName => "table_name"
  | accessorName => "accessor_name"

/-- The key with the given name. -/
def ofName? (s : String) : Option Key :=
  all.find? (·.name == s)

theorem ofName?_name (k : Key) : ofName? k.name = some k := by
  cases k <;> decide

end Key

/-- The opcode type with the given name. -/
def readType (name : String) : Except Mismatch OpcodeType :=
  match OpcodeType.ofName? name with
  | some t => .ok t
  | none => .error (.unknownType name)

/-- Change one setting to the given text. -/
def set (s : Settings) (key : Key) (text : String) : Except Mismatch Settings :=
  match key with
  | .header => .ok { s with header := text }
  | .moduleName => .ok { s with moduleName := text }
  | .opcodeType => (readType text).map fun t => { s with opcodeType := t }
  | .countName => .ok { s with countName := text }
  | .tableName => .ok { s with tableName := text }
  | .accessorName => .ok { s with accessorName := text }

end OpcodeTable.Settings
