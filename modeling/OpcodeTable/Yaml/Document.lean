import OpcodeTable.Yaml.Events

/-!
# Documents

The nodes of the first document in a stream. Aliases refer to the node that carries their anchor
by a number, which is the number of different anchors before it: when an anchor is used again,
its new number may later be taken over by another node.
-/

namespace OpcodeTable.Yaml

inductive NodeKind where
  /-- A reference to the node with an anchor of this number. -/
  | aliasTo (number : Nat)
  | scalar (text : String) (isPlain : Bool)
  | sequenceStart
  | sequenceEnd
  | mappingStart
  | mappingEnd
  deriving DecidableEq, Repr

/-- A scalar or an alias, or one end of a collection. -/
structure Node where
  kind : NodeKind
  mark : Mark
  tag : Option String
  deriving DecidableEq, Repr

structure Document where
  nodes : List Node
  /-- The nodes that aliases refer to, by number. -/
  targets : Array Node
  /-- The fault that ended the document early. -/
  fault : Option Fault
  /-- Whether anything but the end of the stream follows. -/
  hasMore : Bool

/-- How far a document has been read; the last node comes first. -/
structure DocumentReader where
  nodes : List Node := []
  targets : Array Node := #[]
  /-- The number that each anchor stands for, the latest first. -/
  anchors : List (String × Nat) := []
  /-- The number of different anchors. -/
  anchorCount : Nat := 0

namespace DocumentReader

/-- Give a node its anchor. -/
def bind (r : DocumentReader) (node : Node) : Option String → DocumentReader
  | none => r
  | some name =>
    let number := r.anchorCount
    { r with
      targets :=
        if h : number < r.targets.size then r.targets.set number node else r.targets.push node
      anchors := (name, number) :: r.anchors
      anchorCount := if (r.anchors.lookup name).isSome then number else number + 1 }

/-- Add a node. -/
def add (r : DocumentReader) (event : Event) (kind : NodeKind) : DocumentReader :=
  let node : Node := ⟨kind, event.mark, event.tag⟩
  { r.bind node event.anchor with nodes := node :: r.nodes }

/-- The document that ends here. -/
def document (r : DocumentReader) (fault : Option Fault) (hasMore : Bool) : Document :=
  ⟨r.nodes.reverse, r.targets, fault, hasMore⟩

/-- Read nodes up to the end of the document. -/
def read (fault : Option Fault) (r : DocumentReader) : List Event → Document
  | [] => r.document fault false
  | event :: rest =>
    match event.kind with
    | .documentStart => read fault r rest
    | .streamEnd => r.document none false
    | .documentEnd => r.document none (rest.head?.map (·.kind) != some .streamEnd)
    | .aliasTo name =>
      match r.anchors.lookup name with
      | some number => read fault (r.add event (.aliasTo number)) rest
      | none => r.document (some { problem := .unknownAnchor, mark := event.mark }) false
    | .scalar text isPlain => read fault (r.add event (.scalar text isPlain)) rest
    | .sequenceStart => read fault (r.add event .sequenceStart) rest
    | .sequenceEnd => read fault (r.add event .sequenceEnd) rest
    | .mappingStart => read fault (r.add event .mappingStart) rest
    | .mappingEnd => read fault (r.add event .mappingEnd) rest

end DocumentReader

/-- The first document of a stream of octets. -/
def Document.ofBytes (bytes : ByteArray) : Document :=
  let events := (Source.ofBytes bytes).tokens.events
  DocumentReader.read events.fault {} events.items

end OpcodeTable.Yaml
