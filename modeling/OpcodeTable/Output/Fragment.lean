import OpcodeTable.Settings
import OpcodeTable.Text.Numeral

/-!
# Fragments of the generated module

Every piece of the generated module is one of these texts. The padding of an identifier is the
run of spaces that brings it up to the length of the longest identifier.
-/

namespace OpcodeTable.Fragment

def indent : String := "    "

/-- The local name under which the table is filled. -/
def localTable : String := "table"

/-- The padding of an identifier. -/
def spaces (ident : String) (maxlen : Nat) : String :=
  Text.repeated (maxlen - ident.length) ' '

/-- Put `image` in the place of every occurrence of a character. -/
def substitute (c : Char) (image : List Char) (cs : List Char) : List Char :=
  cs.flatMap fun d => if d = c then image else [d]

/-- The inside of a string literal that denotes the given text, as three substitutions in turn:
the backslash comes first, so that no backslash of an escape is escaped again. -/
def escape (s : String) : String :=
  String.ofList <| substitute '\r' ['\\', 'r'] <| substitute '"' ['\\', '"'] <|
    substitute '\\' ['\\', '\\'] s.toList

/-- A comment as an ordinary line comment: an exclamation mark behind the marker, which would
make it documentation of the module, is left out. -/
def comment (text : String) : String :=
  match text.toList with
  | '/' :: '/' :: '!' :: rest => String.ofList ('/' :: '/' :: rest)
  | _ => text

def moduleOpen (s : Settings) : String :=
  "pub mod " ++ s.moduleName ++ " \x7b"

def moduleClose : String := "\x7d"

def opcodeConst (s : Settings) (ident pad : String) (opcode : Nat) : String :=
  indent ++ "pub const " ++ ident ++ pad ++ ": " ++ s.opcodeType.name ++ " = " ++
    toString opcode ++ ";"

def countConst (s : Settings) (count : Nat) : String :=
  indent ++ "pub const " ++ s.countName ++ ": usize = " ++ toString count ++ ";"

/-- The head of the table; the local table is mutable unless there is nothing to assign. -/
def tableOpen (s : Settings) (isEmpty : Bool) : String :=
  indent ++ "pub static " ++ s.tableName ++ ": [&str; " ++ s.countName ++ "] = \x7b\n" ++
    indent ++ indent ++ (if isEmpty then "let" else "let mut") ++ " " ++ localTable ++
    " = [\"\"; " ++ s.countName ++ "];"

def nameAssign (ident pad name : String) : String :=
  indent ++ indent ++ localTable ++ "[" ++ ident ++ " as usize]" ++ pad ++ " = \"" ++
    escape name ++ "\";"

def tableClose : String :=
  indent ++ indent ++ localTable ++ "\n" ++ indent ++ "\x7d;"

def accessor (s : Settings) : String :=
  indent ++ "pub fn " ++ s.accessorName ++ "(opcode: " ++ s.opcodeType.name ++
    ") -> &'static str \x7b\n" ++
    indent ++ indent ++ s.tableName ++ "[opcode as usize]\n" ++
    indent ++ "\x7d"

example : escape "a\\\"\r" = "a\\\\\\\"\\r" := by decide
example : comment "//! x" = "// x" ∧ comment "/// x" = "/// x" := by decide

end OpcodeTable.Fragment
