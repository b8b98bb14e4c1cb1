import OpcodeTable.CommandLine.Options
import OpcodeTable.Fault
import OpcodeTable.Files
import OpcodeTable.Output.Diagnostic
import OpcodeTable.Output.Listing
import OpcodeTable.Output.Render

/-!
# Runs

A run loads the settings, reads the definition file, and generates the module; only then is
anything written. What it reports on the way goes to standard error. The first stage that fails
ends the run.
-/

namespace OpcodeTable

/-- Why a run stops before its end. -/
inductive Stop where
  | fault (fault : Fault)
  /-- The listing would need too wide a column. -/
  | listingTooWide
  deriving DecidableEq, Repr

/-- How a path can be looked up. -/
abbrev Lookup := String → Except FileFault Entry

/-- A stage of a run: a result, or the reason to stop, and what has been reported so far. -/
abbrev Stage := ExceptT Stop (StateM String)

namespace Stage

def report (text : String) : Stage Unit :=
  modify (· ++ text)

def fail {α : Type} (fault : Fault) : Stage α :=
  throw (.fault fault)

end Stage

/-- The settings in a file. A file that cannot be found is told apart from one that cannot be
understood. -/
def loadSettings (lookup : Lookup) (path : String) : Except Fault Settings :=
  match lookup path with
  | .error cause => .error (.unreadable path cause)
  | .ok entry =>
    match entry.read with
    | .error cause => .error (.badSettings path (.unreadable cause))
    | .ok bytes => (Settings.ofBytes bytes).mapError (.badSettings path)

/-- The text of a definition file. -/
def readSource (lookup : Lookup) (path : String) : Except Fault String :=
  (do Files.text (← (← lookup path).read)).mapError (.unreadable path)

namespace Options

/-- Report progress if it is wanted. -/
def progress (o : Options) (text : String) : Stage Unit :=
  if o.verbose then Stage.report (text ++ "\n") else pure ()

/-- The settings of the run: those of the file or the defaults, with the given opcode type. -/
def loadSettings (o : Options) (lookup : Lookup) : Stage Settings := do
  let s ←
    match o.settings with
    | none => pure {}
    | some path => do
      o.progress ("  < " ++ path)
      match OpcodeTable.loadSettings lookup path with
      | .ok s => pure s
      | .error fault => Stage.fail fault
  return { s with opcodeType := o.opcodeType.getD s.opcodeType }

/-- The diagnostics of all rejected lines in order. -/
def diagnostics (o : Options) (source : String) (rejections : List Rejection) : String :=
  let lines := (Text.lines source).toArray
  String.join (rejections.map fun r => Diagnostic.render o.input lines r.index (.line r.fault))

/-- The definition that the input states. -/
def readDefinition (o : Options) (lookup : Lookup) : Stage Definition := do
  match readSource lookup o.input with
  | .error fault => Stage.fail fault
  | .ok source =>
    match Definition.parse o.mode source with
    | .ok d => return d
    | .error rejections => do
      Stage.report (o.diagnostics source rejections)
      Stage.fail (.aborted o.input rejections.length)

/-- Report the listing if it is wanted. -/
def list (o : Options) (d : Definition) : Stage Unit :=
  if o.dump then
    match d.listing? o.input with
    | some text => Stage.report text
    | none => throw .listingTooWide
  else
    pure ()

/-- All stages before anything is written: the text of the generated module. -/
def generate (o : Options) (lookup : Lookup) : Stage String := do
  o.progress "1. Load Config"
  let s ← o.loadSettings lookup
  o.progress "2. Read File and Parse Lines"
  o.progress ("  < " ++ o.input)
  let d ← o.readDefinition lookup
  o.progress ("  " ++ toString d.count ++ " instructions, longest identifier " ++ toString d.maxlen)
  o.list d
  o.progress "3. Generate Code"
  match d.render s with
  | .ok text =>
    o.progress ("  > " ++ o.output.getD "<stdout>")
    return text
  | .error fault => Stage.fail fault

end Options

/-- How a run ends. -/
inductive Ending where
  | success
  | failure (fault : Fault)
  | crash
  deriving DecidableEq, Repr

/-- The end of a run that stops. -/
def Stop.ending : Stop → Ending
  | fault f => .failure f
  | listingTooWide => .crash

/-- The exit status. -/
def Ending.status : Ending → Nat
  | success => 0
  | failure _ => 1
  | crash => 101

/-- The last report of a run, by how it ends. -/
def Ending.report : Ending → String
  | failure fault =>
    Diagnostic.headline .red "error" fault.message ++
      match fault.cause? with
      | some cause => "  " ++ Text.styled [.blue] "caused by" ++ ": " ++ cause ++ "\n"
      | none => ""
  | success | crash => ""

/-- What a run leaves behind. -/
structure Outcome where
  ending : Ending
  stdout : String
  stderr : String
  files : Files

/-- Whether standard output takes what is written to it. -/
inductive StandardOutput where
  | available
  | full
  deriving DecidableEq, Repr

/-- Write the generated module to where it belongs: the text on standard output and the files
after it, or the fault. -/
def deliver (output : Option String) (stdout : StandardOutput) (files : Files) (text : String) :
    Except Fault (String × Files) :=
  match output, stdout with
  | some path, _ =>
    match files.write path text.toUTF8 with
    | .ok files => .ok ("", files)
    | .error cause => .error (.unwritable path cause)
  | none, .available => .ok (text, files)
  | none, .full => .error (.unwritable "<stdout>" .noSpace)

/-- Run on a tree of files. -/
def run (o : Options) (stdout : StandardOutput) (files : Files) : Outcome :=
  let stopped (ending : Ending) (stderr : String) : Outcome :=
    ⟨ending, "", stderr ++ ending.report, files⟩
  match (o.generate files.lookup).run "" with
  | (.error stop, stderr) => stopped stop.ending stderr
  | (.ok text, stderr) =>
    match deliver o.output stdout files text with
    | .ok (written, files) => ⟨.success, written, stderr, files⟩
    | .error fault => stopped (.failure fault) stderr

end OpcodeTable
