import OpcodeTable.CommandLine.Options
import OpcodeTable.CommandLine.Switch

/-!
# The command line

Arguments are read one by one. A parameter without a value of its own takes the next argument
that does not look like a switch, and its value is looked at only when the next switch or
positional argument, or the end, has been reached.
-/

namespace OpcodeTable.CommandLine

/-- What is wrong with the arguments. -/
inductive UsageFault where
  | unexpectedArgument (argument : String)
  | unexpectedValue (value : String) (flag : Flag)
  | missingValue (parameter : Parameter)
  | invalidType (value : String)
  | repeated (switch : Switch)
  deriving DecidableEq, Repr

def UsageFault.message : UsageFault → String
  | unexpectedArgument argument => "error: unexpected argument '" ++ argument ++ "' found"
  | unexpectedValue value flag =>
    "error: unexpected value '" ++ value ++ "' for '" ++ (Switch.flag flag).usage ++
      "' found; no more were expected"
  | missingValue parameter =>
    "error: a value is required for '" ++ (Switch.parameter parameter).usage ++
      "' but none was supplied"
  | invalidType value =>
    "error: invalid value '" ++ value ++ "' for '" ++ (Switch.parameter .opcodeType).usage ++
      "': Matching variant not found"
  | repeated switch =>
    "error: the argument '" ++ switch.usage ++ "' cannot be used multiple times"

/-- What the command line asks for. -/
inductive Request where
  | run (options : Options)
  | help
  | version
  | misuse (fault : UsageFault)
  deriving DecidableEq, Repr

/-- The arguments read so far. -/
structure Reading where
  options : Options := {}
  /-- The switches whose effect is in the options. -/
  given : List Switch := []
  /-- A parameter that waits for its value, or whose value has not been looked at. -/
  pending : Option (Parameter × Option String) := none
  hasInput : Bool := false
  /-- Whether all further arguments are positional. -/
  escaped : Bool := false

/-- A result, or a request that is settled without reading on. -/
abbrev Attempt := Except Request

def misuse {α : Type} (fault : UsageFault) : Attempt α :=
  .error (.misuse fault)

namespace Reading

/-- Note that a switch is given; none may be given twice. -/
def note (r : Reading) (s : Switch) : Attempt Reading :=
  if s ∈ r.given then misuse (.repeated s) else .ok { r with given := s :: r.given }

/-- Give a parameter its value. -/
def assign (r : Reading) (p : Parameter) (value : String) : Attempt Reading := do
  let r ← r.note (.parameter p)
  match p with
  | .output => return { r with options := { r.options with output := some value } }
  | .settings => return { r with options := { r.options with settings := some value } }
  | .opcodeType =>
    match OpcodeType.ofName? value with
    | some t => return { r with options := { r.options with opcodeType := some t } }
    | none => misuse (.invalidType value)

/-- Look at the pending parameter and its value. -/
def settle (r : Reading) : Attempt Reading :=
  match r.pending with
  | none => .ok r
  | some (p, none) => misuse (.missingValue p)
  | some (p, some value) => { r with pending := none }.assign p value

/-- Read a flag. Help and version are settled at once. -/
def setFlag (r : Reading) (f : Flag) : Attempt Reading := do
  let r ← r.settle
  match f with
  | .help => .error .help
  | .version => .error .version
  | .lenient => return { ← r.note (.flag f) with options := { r.options with lenient := true } }
  | .dump => return { ← r.note (.flag f) with options := { r.options with dump := true } }
  | .verbose => return { ← r.note (.flag f) with options := { r.options with verbose := true } }

/-- Read a parameter whose value belongs to the same argument. -/
def setParameter (r : Reading) (p : Parameter) (value : String) : Attempt Reading := do
  (← r.settle).assign p value

/-- Read a parameter whose value is still to come. -/
def await (r : Reading) (p : Parameter) : Attempt Reading := do
  return { ← r.settle with pending := some (p, none) }

/-- Read a positional argument; there is only one. -/
def positional (r : Reading) (argument : String) : Attempt Reading := do
  if r.hasInput then
    misuse (.unexpectedArgument argument)
  else
    let r ← r.settle
    return { r with hasInput := true, options := { r.options with input := argument } }

/-- Read what follows two hyphens. -/
def long (r : Reading) (cs : List Char) : Attempt Reading :=
  let name := String.ofList (cs.takeWhile (· != '='))
  match Switch.ofLongName? name, cs.dropWhile (· != '=') with
  | none, _ => misuse (.unexpectedArgument ("--" ++ name))
  | some (.flag f), [] => r.setFlag f
  | some (.flag f), _ :: value => misuse (.unexpectedValue (String.ofList value) f)
  | some (.parameter p), [] => r.await p
  | some (.parameter p), _ :: value => r.setParameter p (String.ofList value)

/-- Read the letters that follow one hyphen. What follows a parameter's letter is its value. -/
def letters (r : Reading) : List Char → Attempt Reading
  | [] => .ok r
  | c :: rest =>
    match Switch.ofLetter? c, rest with
    | none, _ => misuse (.unexpectedArgument (String.ofList ['-', c]))
    | some (.flag f), _ => do (← r.setFlag f).letters rest
    | some (.parameter p), [] => r.await p
    | some (.parameter p), '=' :: value => r.setParameter p (String.ofList value)
    | some (.parameter p), value => r.setParameter p (String.ofList value)

/-- Read an argument that does not look like a switch. -/
def plain (r : Reading) (argument : String) : Attempt Reading :=
  match r.pending with
  | some (p, none) => .ok { r with pending := some (p, some argument) }
  | _ => r.positional argument

def step (r : Reading) (argument : String) : Attempt Reading :=
  if r.escaped then
    r.positional argument
  else
    match argument.toList with
    | ['-', '-'] => .ok { r with escaped := true }
    | '-' :: '-' :: cs => r.long cs
    | '-' :: c :: cs => r.letters (c :: cs)
    | _ => r.plain argument

end Reading

/-- What the arguments ask for. -/
def parse (arguments : List String) : Request :=
  match (arguments.foldlM Reading.step ({} : Reading)) >>= Reading.settle with
  | .ok r => .run r.options
  | .error request => request

end OpcodeTable.CommandLine
