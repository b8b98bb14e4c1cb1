import OpcodeTable.Yaml.Token

/-!
# Events

The nodes of a document in order: scalars, aliases, and the start and end of every collection.
Events are read from tokens along a stack of goals, which say what has to come next.
-/

namespace OpcodeTable.Yaml

inductive EventKind where
  | documentStart
  | documentEnd
  | streamEnd
  | aliasTo (name : String)
  /-- A scalar, and whether it is written without quotes or a block indicator. -/
  | scalar (text : String) (isPlain : Bool)
  | sequenceStart
  | sequenceEnd
  | mappingStart
  | mappingEnd
  deriving DecidableEq, Repr

structure Event where
  kind : EventKind
  mark : Mark
  anchor : Option String := none
  tag : Option String := none
  deriving DecidableEq, Repr

/-- What has to come next. The marks are those of the collections' starts. -/
inductive Goal where
  /-- A document; only the first may begin without an indicator. -/
  | document (isFirst : Bool)
  | documentContent
  | documentEnd
  | blockNode
  | blockSequence (start : Mark)
  /-- A sequence that is not indented deeper than the mapping it stands in. -/
  | indentlessSequence
  | blockKey (start : Mark)
  | blockValue (start : Mark)
  | flowSequence (start : Mark) (isFirst : Bool)
  /-- A mapping of one pair, which stands in a flow sequence without brackets. -/
  | pairKey
  | pairValue
  | pairEnd
  | flowKey (start : Mark) (isFirst : Bool)
  | flowValue (start : Mark)
  /-- The value of a key without a colon. -/
  | flowNoValue (start : Mark)
  deriving DecidableEq, Repr

/-- How far the events have been read. -/
structure EventReader where
  tokens : List Token
  goals : List Goal
  /-- The tag handles of the current document and what they stand for. -/
  handles : List (String × String) := []

/-- One event, and the state after it. -/
abbrev EventStep := Lex (Event × EventReader)

namespace EventReader

/-- The next token. -/
def peek (r : EventReader) : Lex Token :=
  match r.tokens with
  | [] => .error none
  | t :: _ => .ok t

/-- Go on behind the next token. -/
def skip (r : EventReader) : EventReader :=
  { r with tokens := r.tokens.tail }

/-- Add a goal in front of the others. -/
def aim (r : EventReader) (goal : Goal) : EventReader :=
  { r with goals := goal :: r.goals }

/-- A scalar without characters. -/
def absent (r : EventReader) (mark : Mark) : EventStep :=
  .ok (⟨.scalar "" true, mark, none, none⟩, r)

/-! ## Nodes -/

/-- The anchor and the tag of a node. -/
structure Properties where
  anchor : Option String := none
  tag : Option (String × String × Mark) := none
  start : Option Mark := none

/-- Read an anchor if there is one. -/
def readAnchorProperty (p : Properties) (r : EventReader) : Lex (Properties × EventReader) := do
  let t ← r.peek
  match t.kind with
  | .anchor name =>
    return ({ p with anchor := some name, start := p.start <|> some t.start }, r.skip)
  | _ => return (p, r)

/-- Read a tag if there is one. -/
def readTagProperty (p : Properties) (r : EventReader) : Lex (Properties × EventReader) := do
  let t ← r.peek
  match t.kind with
  | .tag handle suffix =>
    return ({ p with tag := some (handle, suffix, t.start), start := p.start <|> some t.start },
      r.skip)
  | _ => return (p, r)

/-- Read an anchor and a tag in either order. -/
def readProperties (r : EventReader) : Lex (Properties × EventReader) := do
  let (p, r) ← readAnchorProperty {} r
  let (p, r) ← readTagProperty p r
  if p.anchor.isNone && p.tag.isSome then readAnchorProperty p r else return (p, r)

/-- The tag that a handle and a suffix denote. -/
def resolveTag (r : EventReader) (start : Mark) :
    Option (String × String × Mark) → Lex (Option String)
  | none => .ok none
  | some (handle, suffix, mark) =>
    if handle.isEmpty then
      .ok (some suffix)
    else
      match r.handles.lookup handle with
      | some uri => .ok (some (uri ++ suffix))
      | none => failAt .undefinedHandle mark (some (.node, start))

/-- Read the node of a block or of a flow collection. -/
def node (isBlock mayBeIndentless : Bool) (r : EventReader) : EventStep := do
  let t ← r.peek
  match t.kind with
  | .aliasTo name => return ({ kind := .aliasTo name, mark := t.start }, r.skip)
  | _ =>
    let (p, r) ← r.readProperties
    let t ← r.peek
    let mark := p.start.getD t.start
    let tag ← r.resolveTag mark p.tag
    let event (kind : EventKind) : Event := { kind, mark, anchor := p.anchor, tag }
    match t.kind, isBlock with
    | .scalar text isPlain, _ =>
      let tag := if tag = some "!" then none else tag
      return ({ event (.scalar text isPlain) with tag }, r.skip)
    | .flowSequenceStart, _ =>
      return (event .sequenceStart, r.skip.aim (.flowSequence t.start true))
    | .flowMappingStart, _ => return (event .mappingStart, r.skip.aim (.flowKey t.start true))
    | .blockSequenceStart, true =>
      return (event .sequenceStart, r.skip.aim (.blockSequence t.start))
    | .blockMappingStart, true => return (event .mappingStart, r.skip.aim (.blockKey t.start))
    | kind, _ =>
      if mayBeIndentless && kind = .blockEntry then
        return (event .sequenceStart, r.aim .indentlessSequence)
      else if p.anchor.isSome || tag.isSome then
        return (event (.scalar "" true), r)
      else
        failAt .noNodeContent t.start (some (if isBlock then .blockNode else .flowNode, mark))

/-! ## Block collections -/

/-- Whether a block entry or key without a node ends at this token. -/
def endsBlockItem : TokenKind → Bool
  | .key | .value | .blockEnd => true
  | _ => false

def blockSequence (start : Mark) (r : EventReader) : EventStep := do
  let t ← r.peek
  match t.kind with
  | .blockEntry =>
    let r := r.skip.aim (.blockSequence start)
    match (← r.peek).kind with
    | .blockEntry | .blockEnd => r.absent t.stop
    | _ => r.node true false
  | .blockEnd => return ({ kind := .sequenceEnd, mark := t.start }, r.skip)
  | _ => failAt .noEntryIndicator t.start (some (.blockSequence, start))

def indentlessSequence (r : EventReader) : EventStep := do
  let t ← r.peek
  match t.kind with
  | .blockEntry =>
    let r := r.skip.aim .indentlessSequence
    let next := (← r.peek).kind
    if next = .blockEntry || endsBlockItem next then r.absent t.stop else r.node true false
  | _ => return ({ kind := .sequenceEnd, mark := t.start }, r)

def blockKey (start : Mark) (r : EventReader) : EventStep := do
  let t ← r.peek
  match t.kind with
  | .key =>
    let r := r.skip.aim (.blockValue start)
    if endsBlockItem (← r.peek).kind then r.absent t.stop else r.node true true
  | .blockEnd => return ({ kind := .mappingEnd, mark := t.start }, r.skip)
  | _ => failAt .noKey t.start (some (.blockMapping, start))

def blockValue (start : Mark) (r : EventReader) : EventStep := do
  let t ← r.peek
  match t.kind with
  | .value =>
    let r := r.skip.aim (.blockKey start)
    if endsBlockItem (← r.peek).kind then r.absent t.stop else r.node true true
  | _ => (r.aim (.blockKey start)).absent t.start

/-! ## Flow collections -/

/-- Read the comma before every item of a flow collection but the first. -/
def separator (isFirst : Bool) (problem : Problem) (context : Activity × Mark) (r : EventReader) :
    Lex EventReader := do
  if isFirst then
    return r
  else
    let t ← r.peek
    if t.kind = .flowEntry then return r.skip else failAt problem t.start (some context)

def flowSequence (start : Mark) (isFirst : Bool) (r : EventReader) : EventStep := do
  let t ← r.peek
  if t.kind = .flowSequenceEnd then
    return ({ kind := .sequenceEnd, mark := t.start }, r.skip)
  else
    let r ← separator isFirst .noCommaOrBracket (.flowSequence, start) r
    let t ← r.peek
    match t.kind with
    | .flowSequenceEnd => return ({ kind := .sequenceEnd, mark := t.start }, r.skip)
    | .key =>
      return ({ kind := .mappingStart, mark := t.start },
        (r.skip.aim (.flowSequence start false)).aim .pairKey)
    | _ => (r.aim (.flowSequence start false)).node false false

def pairKey (r : EventReader) : EventStep := do
  let t ← r.peek
  let r := r.aim .pairValue
  match t.kind with
  | .value | .flowEntry | .flowSequenceEnd => r.skip.absent t.stop
  | _ => r.node false false

def pairValue (r : EventReader) : EventStep := do
  let t ← r.peek
  let r := r.aim .pairEnd
  match t.kind with
  | .value =>
    let next ← r.skip.peek
    match next.kind with
    | .flowEntry | .flowSequenceEnd => r.skip.absent next.start
    | _ => r.skip.node false false
  | _ => r.absent t.start

def pairEnd (r : EventReader) : EventStep := do
  return ({ kind := .mappingEnd, mark := (← r.peek).start }, r)

def flowKey (start : Mark) (isFirst : Bool) (r : EventReader) : EventStep := do
  let t ← r.peek
  if t.kind = .flowMappingEnd then
    return ({ kind := .mappingEnd, mark := t.start }, r.skip)
  else
    let r ← separator isFirst .noCommaOrBrace (.flowMapping, start) r
    let t ← r.peek
    match t.kind with
    | .flowMappingEnd => return ({ kind := .mappingEnd, mark := t.start }, r.skip)
    | .key =>
      let r := r.skip.aim (.flowValue start)
      let next ← r.peek
      match next.kind with
      | .value | .flowEntry | .flowMappingEnd => r.absent next.start
      | _ => r.node false false
    | _ => (r.aim (.flowNoValue start)).node false false

def flowValue (start : Mark) (r : EventReader) : EventStep := do
  let t ← r.peek
  let r := r.aim (.flowKey start false)
  match t.kind with
  | .value =>
    let next ← r.skip.peek
    match next.kind with
    | .flowEntry | .flowMappingEnd => r.skip.absent next.start
    | _ => r.skip.node false false
  | _ => r.absent t.start

def flowNoValue (start : Mark) (r : EventReader) : EventStep := do
  (r.aim (.flowKey start false)).absent (← r.peek).start

/-! ## Documents -/

/-- The handles that every document knows. -/
def standardHandles : List (String × String) :=
  [("!", "!"), ("!!", "tag:yaml.org,2002:")]

/-- Read the directives in front of a document. -/
def directives (hasVersion : Bool) (handles : List (String × String)) :
    List Token → Lex (List (String × String) × List Token)
  | [] => .error none
  | t :: rest =>
    match t.kind with
    | .versionDirective major minor =>
      if hasVersion then
        failAt .repeatedVersion t.start none
      else if major = 1 && (minor = 1 || minor = 2) then
        directives true handles rest
      else
        failAt .incompatibleVersion t.start none
    | .tagDirective handle uri =>
      if (handles.lookup handle).isSome then
        failAt .repeatedHandle t.start none
      else
        directives hasVersion (handles ++ [(handle, uri)]) rest
    | _ => .ok (handles ++ standardHandles, t :: rest)

/-- Tokens with which a document begins explicitly, or with which the last one ends. -/
def isExplicit : TokenKind → Bool
  | .versionDirective .. | .tagDirective .. | .documentStart | .streamEnd => true
  | _ => false

def document (isFirst : Bool) (r : EventReader) : EventStep := do
  let tokens := if isFirst then r.tokens else r.tokens.dropWhile (·.kind == .documentEnd)
  let r := { r with tokens }
  let t ← r.peek
  if isFirst && !isExplicit t.kind then
    return ({ kind := .documentStart, mark := t.start },
      { (r.aim .documentEnd).aim .blockNode with handles := standardHandles })
  else if t.kind = .streamEnd then
    return ({ kind := .streamEnd, mark := t.start }, r.skip)
  else
    let (handles, tokens) ← directives false [] r.tokens
    let r := { r with handles, tokens }
    let next ← r.peek
    if next.kind = .documentStart then
      return ({ kind := .documentStart, mark := t.start },
        (r.skip.aim .documentEnd).aim .documentContent)
    else
      failAt .noDocumentStart next.start none

def documentContent (r : EventReader) : EventStep := do
  let t ← r.peek
  if isExplicit t.kind || t.kind = .documentEnd then r.absent t.start else r.node true false

def documentEnd (r : EventReader) : EventStep := do
  let t ← r.peek
  let r := r.aim (.document false)
  return ({ kind := .documentEnd, mark := t.start }, if t.kind = .documentEnd then r.skip else r)

/-- Reach a goal, or the first part of it. -/
def reach (r : EventReader) : Goal → EventStep
  | .document isFirst => r.document isFirst
  | .documentContent => r.documentContent
  | .documentEnd => r.documentEnd
  | .blockNode => r.node true false
  | .blockSequence start => r.blockSequence start
  | .indentlessSequence => r.indentlessSequence
  | .blockKey start => r.blockKey start
  | .blockValue start => r.blockValue start
  | .flowSequence start isFirst => r.flowSequence start isFirst
  | .pairKey => r.pairKey
  | .pairValue => r.pairValue
  | .pairEnd => r.pairEnd
  | .flowKey start isFirst => r.flowKey start isFirst
  | .flowValue start => r.flowValue start
  | .flowNoValue start => r.flowNoValue start

end EventReader

end OpcodeTable.Yaml
