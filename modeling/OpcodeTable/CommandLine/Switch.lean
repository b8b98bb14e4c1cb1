/-!
# Switches

The options that the command line knows. A flag stands alone, and a parameter takes a value. Each
has a long name, and most have a letter too.
-/

namespace OpcodeTable.CommandLine

inductive Flag where
  | lenient
  | dump
  | verbose
  | help
  | version
  deriving DecidableEq, Repr

inductive Parameter where
  | output
  | settings
  | opcodeType
  deriving DecidableEq, Repr

inductive Switch where
  | flag (flag : Flag)
  | parameter (parameter : Parameter)
  deriving DecidableEq, Repr

namespace Switch

def all : List Switch :=
  [.parameter .output, .parameter .settings, .parameter .opcodeType, .flag .lenient, .flag .dump,
    .flag .verbose, .flag .help, .flag .version]

/-- The name after two hyphens. -/
def longName : Switch → String
  | .parameter .output => "output"
  | .parameter .settings => "config"
  | .parameter .opcodeType => "opcode-type"
  | .flag .lenient => "lenient"
  | .flag .dump => "dump"
  | .flag .verbose => "verbose"
  | .flag .help => "help"
  | .flag .version => "version"

/-- The letter after one hyphen. -/
def letter? : Switch → Option Char
  | .parameter .output => some 'o'
  | .parameter .settings => some 'c'
  | .parameter .opcodeType => some 't'
  | .flag .lenient => none
  | .flag .dump => some 'd'
  | .flag .verbose => some 'v'
  | .flag .help => some 'h'
  | .flag .version => some 'V'

/-- The switch as a message names it: a parameter with a placeholder for its value. -/
def usage (s : Switch) : String :=
  "--" ++ s.longName ++
    match s with
    | .parameter .output => " <OUTPUT>"
    | .parameter .settings => " <CONFIG>"
    | .parameter .opcodeType => " <OPCODE_TYPE>"
    | .flag _ => ""

def ofLongName? (name : String) : Option Switch :=
  all.find? (·.longName == name)

def ofLetter? (c : Char) : Option Switch :=
  all.find? (·.letter? == some c)

theorem ofLongName?_longName (s : Switch) : ofLongName? s.longName = some s := by
  rcases s with s | s <;> cases s <;> decide

end Switch

end OpcodeTable.CommandLine
