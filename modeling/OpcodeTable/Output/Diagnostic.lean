import OpcodeTable.Fault
import OpcodeTable.Text.Numeral
import OpcodeTable.Text.Style

/-!
# Diagnostics

A fault is shown together with the source line it was found in, and with the earlier line it
refers to, if there is one.
-/

namespace OpcodeTable.Diagnostic

/-- A source line with its file and its number; a line past the end is shown as empty. -/
def location (file : String) (lines : Array String) (index : Nat) : String :=
  let number := Text.decimal (index + 1)
  "     " ++ Text.styled [.blue] "-->" ++ " " ++
      Text.styled [.underline] (file ++ ":" ++ number) ++ "\n" ++
    "      " ++ Text.styled [.blue] "|" ++ "\n" ++
    " " ++ Text.styled [.blue] (Text.padLeft 4 ' ' number ++ " |") ++ " " ++
      lines[index]?.getD "" ++ "\n" ++
    "      " ++ Text.styled [.blue] "|" ++ "\n"

/-- A labelled message on a line of its own. -/
def headline (style : Text.Style) (label message : String) : String :=
  Text.styled [style, .bold] label ++ ": " ++ message ++ "\n"

/-- The diagnostic of a fault that was found in the line with the given index. -/
def render (file : String) (lines : Array String) (index : Nat) (fault : Fault) : String :=
  headline .red "error" fault.message ++ location file lines index ++
    match fault.earlier? with
    | some first => headline .green "note" "First defined here" ++ location file lines first
    | none => ""

end OpcodeTable.Diagnostic
