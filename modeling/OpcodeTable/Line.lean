import OpcodeTable.Text.Split

/-!
# Lines of a definition file

One line is a comment, blank, or an instruction: an identifier and a display name. `Line.classify`
decides which, or says what is wrong with the line.
-/

namespace OpcodeTable

/-- How a line is cut into fields. -/
inductive Mode where
  /-- Single spaces separate, and nothing may follow the second field. -/
  | strict
  /-- Runs of blank characters separate, and fields after the second are ignored. -/
  | lenient
  deriving DecidableEq, Repr

/-- What is wrong with one line. -/
inductive LineFault where
  | malformed
  | missingName (ident : String)
  /-- The identifier was defined before, by the line with index `first`. -/
  | redefined (ident : String) (first : Nat)
  deriving DecidableEq, Repr

structure Instruction where
  /-- Name of the generated constant. -/
  ident : String
  /-- Name that the generated table holds. -/
  name : String
  opcode : Nat
  deriving DecidableEq, Repr

inductive Line where
  | comment (text : String)
  | blank
  | instruction (inst : Instruction)
  deriving DecidableEq, Repr

/-- The fields of a line that is neither blank nor a comment. -/
def Mode.fields : Mode → List Char → List (List Char)
  | strict, cs => Text.fields cs
  | lenient, cs => (Text.words cs).take 2

namespace Line

/-- A line that starts with these characters is a comment. -/
def commentMarker : List Char := ['/', '/']

/-- Classify a line without its terminator. The opcode is the one that an instruction gets. -/
def classify (mode : Mode) (opcode : Nat) (raw : String) : Except LineFault Line :=
  let cs := raw.toList
  if commentMarker.isPrefixOf cs then
    .ok (comment raw)
  else if cs.isEmpty then
    .ok blank
  else
    match mode.fields cs with
    | [ident, name] =>
      if ident.isEmpty || name.isEmpty then
        .error .malformed
      else
        .ok (instruction ⟨String.ofList ident, String.ofList name, opcode⟩)
    | [ident] => .error (.missingName (String.ofList ident))
    | _ => .error .malformed

def instruction? : Line → Option Instruction
  | instruction inst => some inst
  | _ => none

@[simp] theorem instruction?_comment (text : String) : (comment text).instruction? = none := rfl

@[simp] theorem instruction?_blank : blank.instruction? = none := rfl

@[simp] theorem instruction?_instruction (inst : Instruction) :
    (instruction inst).instruction? = some inst := rfl

end Line

end OpcodeTable
