import OpcodeTable.Files.Fault
import OpcodeTable.Settings.Key
import OpcodeTable.Settings.Scalar
import OpcodeTable.Yaml.Document

/-!
# Settings files

A settings file is a document with one mapping from keys to values, or with nothing. Every scalar
is good for a text, whatever its tag. Values under other keys are read over. The opcode type is
named by a scalar, or by the tag of a value that is empty.
-/

namespace OpcodeTable.Settings

open OpcodeTable.Yaml (Mark Document Node NodeKind)

/-- Why a settings file does not state settings. -/
inductive FileMismatch where
  | unreadable (cause : FileFault)
  | document (fault : Yaml.Fault)
  /-- A value that does not fit, the name of its place, and its position. -/
  | value (mismatch : Mismatch) (place : Option String) (mark : Mark)
  | moreDocuments
  deriving DecidableEq, Repr

def FileMismatch.message : FileMismatch → String
  | unreadable cause => cause.message
  | document fault => fault.message
  | value mismatch place mark =>
    (place.map (· ++ ": ")).getD "" ++ mismatch.message ++ mark.place
  | moreDocuments => "deserializing from YAML containing more than one document is not supported"

/-- A result of reading a document. A failure without a cause means that the nodes end early. -/
abbrev Read := Except (Option FileMismatch)

/-- Fail with a value that does not fit. -/
def misfit {α : Type} (mismatch : Mismatch) (place : Option String) (mark : Mark) : Read α :=
  .error (some (.value mismatch place mark))

/-- The mismatch of a node that stands where something else is expected. -/
def mismatchOf (node : Node) (expected : Expected) : Mismatch :=
  match node.kind with
  | .scalar text isPlain => Mismatch.ofScalar text isPlain node.tag expected
  | .sequenceStart | .sequenceEnd => .kind .sequence expected
  | _ => .kind .map expected

/-- The node that an alias refers to; other nodes stand for themselves. -/
def target (targets : Array Node) (node : Node) : Read Node :=
  match node.kind with
  | .aliasTo number => (targets[number]?.map Except.ok).getD (.error none)
  | _ => .ok node

/-- The text of a scalar. -/
def readText (place : Option String) (expected : Expected) (node : Node) : Read String :=
  match node.kind with
  | .scalar text _ => .ok text
  | _ => misfit (mismatchOf node expected) place node.mark

/-- The name in a tag that the document itself defines, without the exclamation mark. -/
def localTag? (tag : Option String) : Option String :=
  match tag.map String.toList with
  | some ['!'] => some "!"
  | some ('!' :: cs) => some (String.ofList cs)
  | _ => none

/-- Make sure that a node has nothing but a tag. -/
def readNothing (place : Option String) (node : Node) : Read Unit :=
  match node.kind with
  | .scalar text isPlain =>
    if text.isEmpty || (isPlain && isNull text) then .ok ()
    else misfit (mismatchOf node .nothing) place node.mark
  | _ => misfit (mismatchOf node .nothing) place node.mark

/-- Whether a node refers to another one. -/
def isAlias (node : Node) : Bool :=
  match node.kind with
  | .aliasTo _ => true
  | _ => false

/-- What the value of a setting has to be. -/
def expectedOf : Key → Expected
  | .opcodeType => .typeTag
  | _ => .text

/-- Change one setting to a text that was found at a place. -/
def setAt (s : Settings) (key : Key) (text : String) (place : Option String) (mark : Mark) :
    Read Settings :=
  (s.set key text).mapError fun mismatch => some (.value mismatch place mark)

/-- Change one setting to what a node states, inside the mapping that starts at a mark. A wrong name
in a tag is found elsewhere: at the alias that led to the node, or else at the start of the whole
mapping. -/
def readSetting (targets : Array Node) (root : Mark) (place : Option String) (key : Key)
    (value : Node) (s : Settings) : Read Settings := do
  let node ← target targets value
  match key, localTag? node.tag with
  | .opcodeType, some name =>
    let changed ←
      if isAlias value then s.setAt key name place value.mark else s.setAt key name none root
    readNothing place node
    return changed
  | _, _ => s.setAt key (← readText place (expectedOf key) node) place node.mark

/-- Read over one value inside a number of open collections. -/
def skipValue : Nat → List Node → Option (List Node)
  | _, [] => none
  | depth, node :: rest =>
    match node.kind, depth with
    | .sequenceStart, _ => skipValue (depth + 1) rest
    | .mappingStart, _ => skipValue (depth + 1) rest
    | .sequenceEnd, depth + 2 => skipValue (depth + 1) rest
    | .mappingEnd, depth + 2 => skipValue (depth + 1) rest
    | .sequenceEnd, _ => some rest
    | .mappingEnd, _ => some rest
    | _, 0 => some rest
    | _, depth + 1 => skipValue (depth + 1) rest

theorem length_skipValue {depth : Nat} {nodes rest : List Node}
    (h : skipValue depth nodes = some rest) : rest.length < nodes.length := by
  fun_induction skipValue depth nodes <;> grind

/-- The place of a value: its key, if that is a scalar. -/
def placeOf (node : Node) : String :=
  match node.kind with
  | .scalar text _ => text
  | _ => "?"

/-- Read the entries of the mapping that starts at a mark. No setting may be given twice. -/
def readEntries (targets : Array Node) (root : Mark) (s : Settings) (given : List Key) :
    List Node → Read Settings
  | [] => .error none
  | node :: rest =>
    if node.kind = .mappingEnd then
      .ok s
    else do
      let name ← readText none .settingName (← target targets node)
      match Key.ofName? name with
      | none =>
        match _h : skipValue 0 rest with
        | none => .error none
        | some rest' => readEntries targets root s given rest'
      | some key =>
        if key ∈ given then
          misfit (.repeatedSetting name) none root
        else
          match rest with
          | [] => .error none
          | value :: rest => do
            let s ← readSetting targets root (some (placeOf node)) key value s
            readEntries targets root s (key :: given) rest
termination_by nodes => nodes.length
decreasing_by
  all_goals simp only [List.length_cons]
  · have := length_skipValue ‹_›
    omega
  · omega

/-- Read the settings at the root of a document. -/
def readRoot (targets : Array Node) : List Node → Read Settings
  | [] => .error none
  | node :: rest =>
    match node.kind with
    | .mappingStart => readEntries targets node.mark {} [] rest
    | .scalar "" true => .ok {}
    | _ => misfit (mismatchOf node .settings) none node.mark

/-- The settings that a document states. A fault behind what was needed counts too. -/
def ofDocument (d : Document) : Except FileMismatch Settings :=
  match d.fault, readRoot d.targets d.nodes with
  | _, .error (some mismatch) => .error mismatch
  | some fault, _ => .error (.document fault)
  | none, .error none => .ok {}
  | none, .ok s => if d.hasMore then .error .moreDocuments else .ok s

/-- The settings that the content of a file states. -/
def ofBytes (bytes : ByteArray) : Except FileMismatch Settings :=
  ofDocument (Document.ofBytes bytes)

end OpcodeTable.Settings
