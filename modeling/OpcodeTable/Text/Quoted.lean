import OpcodeTable.Text.Numeral
import OpcodeTable.Text.Printable

/-!
# Quoted texts

A text in a message stands between double quotes. Quotes, backslashes and the common controls
have short escapes, and other characters that cannot be shown are given by their number.
-/

namespace OpcodeTable.Text

/-- One character inside the quotes. -/
def quotedChar (c : Char) : List Char :=
  match c with
  | '\x00' => ['\\', '0']
  | '\t' => ['\\', 't']
  | '\n' => ['\\', 'n']
  | '\r' => ['\\', 'r']
  | '"' => ['\\', '"']
  | '\\' => ['\\', '\\']
  | _ =>
    if isPrintable c then [c]
    else ['\\', 'u', '\x7b'] ++ (hexLower c.toNat).toList ++ ['\x7d']

def quoted (s : String) : String :=
  String.ofList (['"'] ++ s.toList.flatMap quotedChar ++ ['"'])

end OpcodeTable.Text
