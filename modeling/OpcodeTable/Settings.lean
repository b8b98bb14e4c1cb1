import OpcodeTable.OpcodeType

/-!
# Settings of the generated module

The names and fixed texts that a settings file may change. A setting that is not given keeps
its default value.
-/

namespace OpcodeTable

structure Settings where
  /-- Text in front of the module, written as it is. -/
  header : String := "// This file is generated by opgen. Do not edit it by hand.\n\n"
  moduleName : String := "instructions"
  opcodeType : OpcodeType := .u8
  countName : String := "INSTRUCTION_NUMBER"
  tableName : String := "INSTRUCTION_NAMES"
  accessorName : String := "get_name"
  deriving DecidableEq, Repr

instance : Inhabited Settings := ⟨{}⟩

end OpcodeTable
