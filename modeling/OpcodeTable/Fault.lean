import OpcodeTable.Files.Fault
import OpcodeTable.Line
import OpcodeTable.OpcodeType
import OpcodeTable.Settings.File

/-!
# Faults

Everything that can keep the generated module from being written, and the one place that words
it. A fault caused by another one names its cause separately.
-/

namespace OpcodeTable

namespace LineFault

def message : LineFault → String
  | malformed =>
    "Malformed instruction: expected `<identifier> <display name>` separated by a single space"
  | missingName ident => "Missing display name for `" ++ ident ++ "`"
  | redefined ident _ => "Re-defined identifier: `" ++ ident ++ "`"

/-- The index of the earlier line that the fault refers to. -/
def earlier? : LineFault → Option Nat
  | redefined _ first => some first
  | _ => none

end LineFault

inductive Fault where
  | line (fault : LineFault)
  | tooManyInstructions (count : Nat) (type : OpcodeType)
  /-- The definition file has this many faulty lines. -/
  | aborted (path : String) (count : Nat)
  | unreadable (path : String) (cause : FileFault)
  | unwritable (path : String) (cause : FileFault)
  | badSettings (path : String) (cause : Settings.FileMismatch)
  deriving DecidableEq, Repr

namespace Fault

def message : Fault → String
  | line fault => fault.message
  | tooManyInstructions count type =>
    "Too many instructions: " ++ toString count ++ " opcodes do not fit in `" ++ type.name ++ "`"
  | aborted path count =>
    "Could not generate `" ++ path ++ "` due to " ++ toString count ++ " previous error(s)"
  | unreadable path _ => "Failed to open file: " ++ path
  | unwritable path _ => "Failed to write file: " ++ path
  | badSettings path _ => "Failed to load config: " ++ path

/-- The text of the fault's cause. -/
def cause? : Fault → Option String
  | unreadable _ cause | unwritable _ cause => some cause.message
  | badSettings _ cause => some cause.message
  | _ => none

/-- The index of the earlier line that the fault refers to. -/
def earlier? : Fault → Option Nat
  | line fault => fault.earlier?
  | _ => none

end Fault

end OpcodeTable
