import OpcodeTable.Definition
import OpcodeTable.Text.Numeral
import OpcodeTable.Text.Style

/-!
# The listing of a definition

One row for each source line: the opcode, the line number, and the line itself. Identifiers are
padded to the longest one, and a column cannot be wider than `widthLimit`.
-/

namespace OpcodeTable.Definition

/-- The widest column that a row can have. -/
def widthLimit : Nat := 65535

/-- The left column of a row without an opcode. -/
def emptyColumn : String := Text.repeated 11 ' '

/-- The row of one source line, without its line feed. -/
def listingRow (maxlen : Nat) (r : Record) : String :=
  let number := Text.padLeft 4 ' ' (Text.decimal (r.index + 1))
  match r.line with
  | .blank => emptyColumn ++ "| " ++ number ++ ":"
  | .comment text => emptyColumn ++ "| " ++ number ++ ": " ++ Text.styled [.dim] text
  | .instruction inst =>
    "[" ++ Text.padLeft 4 '0' (Text.hexUpper inst.opcode) ++ "]     | " ++ number ++ ":   " ++
      Text.styled [.yellow] (Text.padRight maxlen ' ' inst.ident) ++ " " ++
      Text.styled [.green] ("\"" ++ inst.name ++ "\"")

/-- The first row names the file. -/
def listingHead (path : String) : String :=
  Text.repeated 11 '-' ++ "+------[" ++ path ++ "]" ++ Text.repeated (45 - path.utf8ByteSize) '-'

def listingFoot : String :=
  Text.repeated 11 '-' ++ "+" ++ Text.repeated 53 '-'

/-- The rows of the listing, without their line feeds. -/
def listingRows (d : Definition) (path : String) : List String :=
  [listingHead path] ++ d.records.toList.map (listingRow d.maxlen) ++ [listingFoot]

/-- The listing; there is none when an identifier column would be too wide. -/
def listing? (d : Definition) (path : String) : Option String :=
  if !d.instructions.isEmpty && widthLimit < d.maxlen then
    none
  else
    some (String.join ((d.listingRows path).map (· ++ "\n")))

end OpcodeTable.Definition
