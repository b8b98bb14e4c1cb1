/-!
# File faults

Why a file could not be read or written. The texts are those of the operating system, which
numbers most of its causes.
-/

namespace OpcodeTable

inductive FileFault where
  | notFound
  | notDirectory
  | isDirectory
  | noSpace
  | nameTooLong
  | zeroInPath
  | notText
  /-- A cause that only its text describes. -/
  | other (text : String)
  deriving DecidableEq, Repr

namespace FileFault

/-- A cause as the operating system words and numbers it. -/
def numbered (text : String) (code : Nat) : String :=
  text ++ " (os error " ++ toString code ++ ")"

def message : FileFault → String
  | notFound => numbered "No such file or directory" 2
  | notDirectory => numbered "Not a directory" 20
  | isDirectory => numbered "Is a directory" 21
  | noSpace => numbered "No space left on device" 28
  | nameTooLong => numbered "File name too long" 36
  | zeroInPath => "file name contained an unexpected NUL byte"
  | notText => "stream did not contain valid UTF-8"
  | other text => text

end FileFault

end OpcodeTable
