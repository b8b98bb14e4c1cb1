import OpcodeTable.Line
import OpcodeTable.OpcodeType

/-!
# The options of a run
-/

namespace OpcodeTable

structure Options where
  /-- The path of the definition file. -/
  input : String := "ins.txt"
  /-- Where the generated module goes, if not to standard output. -/
  output : Option String := none
  /-- The path of the settings file. -/
  settings : Option String := none
  /-- An opcode type that replaces the one of the settings. -/
  opcodeType : Option OpcodeType := none
  lenient : Bool := false
  dump : Bool := false
  verbose : Bool := false
  deriving DecidableEq, Repr

instance : Inhabited Options := ⟨{}⟩

def Options.mode (o : Options) : Mode :=
  if o.lenient then .lenient else .strict

end OpcodeTable
