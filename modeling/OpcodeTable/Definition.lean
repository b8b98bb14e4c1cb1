import OpcodeTable.Line
import OpcodeTable.OpcodeMap
import OpcodeTable.Text.Lines

/-!
# Definitions

A definition is a definition file that was read without a fault: its lines with their positions,
the correspondence between identifiers and opcodes, and the length of the longest identifier.
Opcodes are handed out in file order, and only instructions take one.
-/

namespace OpcodeTable

/-- A line together with its index in the file, counted from zero. -/
structure Record where
  index : Nat
  line : Line
  deriving DecidableEq, Repr

/-- A line that is not part of the definition, and why. -/
structure Rejection where
  index : Nat
  fault : LineFault
  deriving DecidableEq, Repr

structure Definition where
  /-- The accepted lines in file order. -/
  records : Array Record
  /-- The number of characters of the longest identifier. -/
  maxlen : Nat
  map : OpcodeMap

namespace Definition

def empty : Definition where
  records := #[]
  maxlen := 0
  map := .empty

instance : Inhabited Definition := ⟨empty⟩

/-- The number of instructions, which is the next opcode to hand out. -/
def count (d : Definition) : Nat :=
  d.map.size

def opcode? (d : Definition) (ident : String) : Option Nat :=
  d.map.opcode? ident

def ident? (d : Definition) (opcode : Nat) : Option String :=
  d.map.ident? opcode

/-- The instructions in file order. -/
def instructions (d : Definition) : List Instruction :=
  d.records.toList.filterMap (·.line.instruction?)

/-- The index of the line that defines an opcode. -/
def lineOf? (d : Definition) (opcode : Nat) : Option Nat :=
  (d.records.find? fun r => r.line.instruction?.map (·.opcode) == some opcode).map (·.index)

/-- Accept a line. An instruction is refused when its identifier or its opcode is taken; the
fault then points to the line that defines the identifier. -/
@[inline] def push (d : Definition) (index : Nat) (line : Line) : Except LineFault Definition :=
  match line with
  | .instruction inst =>
    if h : d.map.Fresh inst.ident inst.opcode then
      .ok
        { records := d.records.push ⟨index, line⟩
          maxlen := max d.maxlen inst.ident.length
          map := d.map.insert inst.ident inst.opcode h }
    else
      .error (.redefined inst.ident (((d.opcode? inst.ident).bind d.lineOf?).getD index))
  | _ => .ok { d with records := d.records.push ⟨index, line⟩ }

/-- How far a text has been read: the lines accepted and the lines rejected up to here. -/
structure Progress where
  definition : Definition
  rejections : Array Rejection

namespace Progress

def start : Progress where
  definition := .empty
  rejections := #[]

/-- Leave a line out of the definition. -/
def reject (p : Progress) (index : Nat) (fault : LineFault) : Progress :=
  { p with rejections := p.rejections.push ⟨index, fault⟩ }

/-- Read one more line. -/
def step (mode : Mode) (p : Progress) (line : String × Nat) : Progress :=
  match Line.classify mode p.definition.count line.1 with
  | .error fault => p.reject line.2 fault
  | .ok record =>
    match p.definition.push line.2 record with
    | .error fault => p.reject line.2 fault
    | .ok definition => { p with definition }

end Progress

/-- Read all lines of a text. -/
def progress (mode : Mode) (text : String) : Progress :=
  (Text.lines text).zipIdx.foldl (Progress.step mode) .start

/-- The definition that a text states, or all its rejected lines if there is one. -/
def parse (mode : Mode) (text : String) : Except (List Rejection) Definition :=
  let p := progress mode text
  if p.rejections.isEmpty then .ok p.definition else .error p.rejections.toList

end Definition

end OpcodeTable
