import OpcodeTable.Files.Fault
import OpcodeTable.Text.Split

/-!
# Files

A finite tree of files, as far as a run can see it. Paths are followed name by name from the
working directory or from the root, and a name can only be followed in a directory.
-/

namespace OpcodeTable

/-- A place in the tree: the names that lead to it from the root. -/
abbrev Location := List String

inductive Entry where
  | file (content : ByteArray)
  | directory
  /-- A device that keeps nothing. -/
  | sink
  /-- A device that is full. -/
  | full

/-- The bytes of an entry. A directory has none, although it can be opened. -/
def Entry.read : Entry → Except FileFault ByteArray
  | file content => .ok content
  | directory => .error .isDirectory
  | sink | full => .ok .empty

structure Files where
  /-- The place that paths without a leading slash start from. -/
  workDir : Location
  entries : List (Location × Entry)

namespace Files

/-- The longest name that a directory can hold, in bytes. -/
def nameLimit : Nat := 255

/-- No path is this long, in bytes. -/
def pathLimit : Nat := 4096

/-- A tree with an empty working directory and the devices that a program may write to. -/
def bare : Files where
  workDir := ["work"]
  entries :=
    [([], .directory), (["work"], .directory), (["dev"], .directory), (["dev", "null"], .sink),
      (["dev", "full"], .full)]

instance : Inhabited Files := ⟨bare⟩

def entry? (fs : Files) (place : Location) : Option Entry :=
  (fs.entries.find? (·.1 == place)).map (·.2)

/-- Put an entry at a place, instead of the one that may be there. -/
def put (fs : Files) (place : Location) (entry : Entry) : Files :=
  { fs with entries := (place, entry) :: fs.entries.filter (·.1 != place) }

/-- The place that a name leads to from another place. -/
def follow (fs : Files) (here : Location) (name : String) : Except FileFault Location :=
  match fs.entry? here with
  | none => .error .notFound
  | some .directory =>
    if name = "." then
      .ok here
    else if name = ".." then
      .ok here.dropLast
    else if nameLimit < name.utf8ByteSize then
      .error .nameTooLong
    else
      .ok (here ++ [name])
  | some _ => .error .notDirectory

/-- The names of a path in order. -/
def pathNames (path : String) : List String :=
  ((Text.splitWhere (· = '/') path.toList).filter (!·.isEmpty)).map String.ofList

/-- Whether a path asks for a directory by its last character. -/
def endsInSlash (path : String) : Bool :=
  path.toList.getLast? == some '/'

/-- The place that a path denotes; there need not be an entry. -/
def locate (fs : Files) (path : String) : Except FileFault Location :=
  if path.toList.contains '\x00' then
    .error .zeroInPath
  else if path.isEmpty then
    .error .notFound
  else if pathLimit ≤ path.utf8ByteSize then
    .error .nameTooLong
  else
    (pathNames path).foldlM fs.follow (if path.toList.head? = some '/' then [] else fs.workDir)

/-- The entry that a path denotes. -/
def lookup (fs : Files) (path : String) : Except FileFault Entry := do
  let place ← fs.locate path
  match fs.entry? place with
  | none => .error .notFound
  | some .directory => .ok .directory
  | some entry => if endsInSlash path then .error .notDirectory else .ok entry

/-- Give a file new content, and create it where there is none. -/
def write (fs : Files) (path : String) (content : ByteArray) : Except FileFault Files := do
  let place ← fs.locate path
  match fs.entry? place with
  | some .directory => .error .isDirectory
  | entry =>
    if endsInSlash path then
      .error .isDirectory
    else
      match entry with
      | some .sink => .ok fs
      | some .full => if content.isEmpty then .ok fs else .error .noSpace
      | _ => .ok (fs.put place (.file content))

/-- Add a file or, for a name with a slash at its end, a directory, with all directories above. -/
def add (fs : Files) (path : String) (content : ByteArray) : Files :=
  let place := fs.workDir ++ pathNames path
  let above := (List.range (pathNames path).length).map fun n => place.take (fs.workDir.length + n)
  let fs := above.foldl (fun fs place => fs.put place .directory) fs
  fs.put place (if endsInSlash path then .directory else .file content)

/-- The text of a file. -/
def text (bytes : ByteArray) : Except FileFault String :=
  match String.fromUTF8? bytes with
  | some s => .ok s
  | none => .error .notText

end Files

end OpcodeTable
