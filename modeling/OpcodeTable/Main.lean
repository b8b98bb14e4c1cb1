import OpcodeTable.CommandLine
import OpcodeTable.CommandLine.Help
import OpcodeTable.Run

/-!
# The command line program

Reads the files that the options name, and writes what the run gives.
-/

namespace OpcodeTable.Main

/-- The number of a system error, which may come with a sign. -/
def errorNumber (code : UInt32) : Nat :=
  (code.toInt32.toInt).natAbs

/-- The file fault that an error of the system stands for. -/
def fileFault (e : IO.Error) : FileFault :=
  match e with
  | .noFileOrDirectory .. => .notFound
  | .resourceExhausted .. => .noSpace
  | .inappropriateType _ code _ | .invalidArgument _ code _ | .otherError code _ =>
    match errorNumber code with
    | 20 => .notDirectory
    | 21 => .isDirectory
    | 36 => .nameTooLong
    | _ => .other (toString e)
  | _ => .other (toString e)

/-- Look a path up in the file system. -/
def lookupPath (path : String) : IO (Except FileFault Entry) := do
  try
    return .ok (.file (← IO.FS.readBinFile path))
  catch e =>
    match fileFault e with
    | .isDirectory => return .ok .directory
    | fault => return .error fault

/-- Write the generated module; the result is the fault if there is one. -/
def write (output : Option String) (text : String) : IO (Option Fault) := do
  match output with
  | some path =>
    try
      let file ← IO.FS.Handle.mk path .write
      file.putStr text
      file.flush
      return none
    catch e => return some (.unwritable path (fileFault e))
  | none =>
    try
      let stdout ← IO.getStdout
      stdout.putStr text
      stdout.flush
      return none
    catch e => return some (.unwritable "<stdout>" (fileFault e))

/-- End a run: report it and give its exit status. -/
def conclude (ending : Ending) : IO UInt32 := do
  IO.eprint ending.report
  return ending.status.toUInt32

/-- Run on the file system. -/
def execute (o : Options) : IO UInt32 := do
  let paths := o.input :: o.settings.toList
  let entries ← paths.mapM fun path => return (path, ← lookupPath path)
  let lookup (path : String) := (entries.lookup path).getD (.error .notFound)
  let (result, stderr) := (o.generate lookup).run ""
  IO.eprint stderr
  match result with
  | .error stop => conclude stop.ending
  | .ok text =>
    match ← write o.output text with
    | none => conclude .success
    | some fault => conclude (.failure fault)

end OpcodeTable.Main

def main (arguments : List String) : IO UInt32 := do
  match OpcodeTable.CommandLine.parse arguments with
  | .run o => OpcodeTable.Main.execute o
  | .help =>
    IO.print OpcodeTable.CommandLine.help
    return 0
  | .version =>
    IO.print OpcodeTable.CommandLine.version
    return 0
  | .misuse fault =>
    IO.eprintln fault.message
    return 2
