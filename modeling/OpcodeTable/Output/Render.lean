import OpcodeTable.Definition
import OpcodeTable.Fault
import OpcodeTable.Output.Fragment

/-!
# The generated module

The opcode constants stand in the order of the source lines, with comments and blank lines in
between as in the source. The count and the table with its accessor follow.
-/

namespace OpcodeTable.Definition

/-- What stands in the declarations for one source line. -/
def declaration (s : Settings) (maxlen : Nat) : Line → String
  | .comment text => Fragment.comment text
  | .blank => ""
  | .instruction inst =>
    Fragment.opcodeConst s inst.ident (Fragment.spaces inst.ident maxlen) inst.opcode

/-- The assignment that puts an instruction's display name into the table. -/
def assignment (maxlen : Nat) (inst : Instruction) : String :=
  Fragment.nameAssign inst.ident (Fragment.spaces inst.ident maxlen) inst.name

/-- The fragments of the generated module in order. -/
def fragments (d : Definition) (s : Settings) : List String :=
  let assignments := d.instructions.map (assignment d.maxlen)
  [Fragment.moduleOpen s] ++
    d.records.toList.map (fun r => declaration s d.maxlen r.line) ++
    ["", Fragment.countConst s d.count, "", Fragment.tableOpen s assignments.isEmpty] ++
    assignments ++
    [Fragment.tableClose, "", Fragment.accessor s, Fragment.moduleClose]

/-- The text of the generated module. There is none when the opcode type cannot number all
instructions. -/
def render (d : Definition) (s : Settings) : Except Fault String :=
  if s.opcodeType.capacity < d.count then
    .error (.tooManyInstructions d.count s.opcodeType)
  else
    .ok (s.header ++ "\n".intercalate (d.fragments s) ++ "\n")

end OpcodeTable.Definition
