import OpcodeTable.Yaml.Property

/-!
# Reading one token

Tokens are read one after another. Whether a node is a mapping key shows only at the colon behind
it, so that the key's token is inserted later, at a place remembered when the node was read. A
token counts as read once nothing can be inserted before it.
-/

namespace OpcodeTable.Yaml

/-- A place where a mapping key may turn out to start. -/
structure KeyCandidate where
  /-- The number of tokens before it. -/
  index : Nat
  mark : Mark
  /-- Whether nothing but a mapping key can stand there. -/
  isRequired : Bool
  deriving DecidableEq, Repr

/-- How far the tokens have been read. -/
structure Reader where
  rest : List Glyph
  /-- The tokens read so far, last one first, and their number. -/
  tokens : List Token := []
  count : Nat := 0
  /-- The column of the innermost block collection; there is none at first. -/
  column : Int := -1
  /-- The columns of the enclosing block collections, innermost first. -/
  columns : List Int := []
  /-- Whether a mapping key may start here. -/
  keyAllowed : Bool := true
  /-- The candidate of the innermost collection. -/
  candidate : Option KeyCandidate := none
  /-- The candidates of the collections around each open flow collection, innermost first. -/
  outer : List (Option KeyCandidate) := []
  isDone : Bool := false

namespace Reader

def inFlow (r : Reader) : Bool :=
  !r.outer.isEmpty

def mark (r : Reader) : Mark :=
  position r.rest

/-- The tokens before which nothing can be inserted any more, in order. -/
def settled (r : Reader) : List Token :=
  let index :=
    (r.candidate :: r.outer).foldl (fun n c => (c.map fun c => min n c.index).getD n) r.count
  (r.tokens.drop (r.count - index)).reverse

/-! ## Mapping keys -/

/-- The fault of a missing colon behind a required key. -/
def noColon {α : Type} (c : KeyCandidate) (mark : Mark) : Lex α :=
  failAt .noColon mark (some (.simpleKey, c.mark))

/-- Give up the innermost candidate. -/
def dropCandidate (r : Reader) (mark : Mark) : Lex Reader :=
  match r.candidate with
  | some c => if c.isRequired then noColon c mark else .ok { r with candidate := none }
  | none => .ok r

/-- Note that a mapping key may start here. -/
def noteCandidate (r : Reader) : Lex Reader := do
  if r.keyAllowed then
    let r ← r.dropCandidate r.mark
    let isRequired := !r.inFlow && r.column == r.mark.column
    return { r with candidate := some ⟨r.count, r.mark, isRequired⟩ }
  else
    return r

/-- The longest mapping key without an indicator, in characters. -/
def keyLimit : Nat := 1024

/-- A candidate that is still near enough: a key and its colon stand in one line. -/
def keepNear (mark : Mark) (c : Option KeyCandidate) : Lex (Option KeyCandidate) :=
  match c with
  | none => .ok none
  | some c =>
    if c.mark.line < mark.line || c.mark.column + keyLimit < mark.column then
      if c.isRequired then noColon c mark else .ok none
    else
      .ok (some c)

/-- Give up all candidates that are too far away. -/
def dropFar (r : Reader) (mark : Mark) : Lex Reader := do
  let outer ← r.outer.mapM (keepNear mark)
  let candidate ← keepNear mark r.candidate
  return { r with candidate, outer }

/-! ## Indentation -/

def push (r : Reader) (kind : TokenKind) (start stop : Mark) : Reader :=
  { r with tokens := ⟨kind, start, stop⟩ :: r.tokens, count := r.count + 1 }

/-- Insert a token without characters of its own. -/
def insert (r : Reader) (index : Nat) (kind : TokenKind) (mark : Mark) : Reader :=
  { r with
    tokens := r.tokens.insertIdx (r.count - index) ⟨kind, mark, mark⟩, count := r.count + 1 }

/-- Start a block collection if the column lies deeper than the innermost one. -/
def indent (r : Reader) (index : Nat) (kind : TokenKind) (mark : Mark) : Reader :=
  if !r.inFlow && r.column < mark.column then
    { r.insert index kind mark with column := mark.column, columns := r.column :: r.columns }
  else
    r

/-- The columns that are left after closing collections, and how many were closed. -/
def closing (target : Int) : Int → List Int → Nat → Int × List Int × Nat
  | column, [], n => (column, [], n)
  | column, outer :: columns, n =>
    if target < column then closing target outer columns (n + 1) else (column, outer :: columns, n)

/-- End all block collections that lie deeper than a column. -/
def dedent (r : Reader) (target : Int) (mark : Mark) : Reader :=
  if r.inFlow then
    r
  else
    let (column, columns, n) := closing target r.column r.columns 0
    { r with
      column, columns
      tokens := List.replicate n ⟨.blockEnd, mark, mark⟩ ++ r.tokens
      count := r.count + n }

/-! ## Tokens -/

/-- Read over white space and comments. A line break in a block lets a mapping key start. -/
def skipBetween (inFlow inComment keyAllowed : Bool) : List Glyph → Lex (Bool × List Glyph)
  | [] => .error none
  | g :: rest =>
    if isBreak g.char then
      skipBetween inFlow false (keyAllowed || !inFlow) rest
    else if inComment && !isEnd g.char then
      skipBetween inFlow true keyAllowed rest
    else if g.char == '#' then
      skipBetween inFlow true keyAllowed rest
    else if g.char == ' ' || (g.char == '\t' && (inFlow || !keyAllowed)) then
      skipBetween inFlow false keyAllowed rest
    else
      .ok (keyAllowed, g :: rest)

/-- Read over a byte order mark at the very start. -/
def skipByteOrderMark (gs : List Glyph) : List Glyph :=
  if position gs = .origin && nextIs (· == '\ufeff') gs then gs.drop 1 else gs

/-- Read an indicator of the given length. -/
def take (r : Reader) (n : Nat) (kind : TokenKind) : Reader :=
  let rest := r.rest.drop n
  { r.push kind r.mark (position rest) with rest }

/-- Read a node's token. It may be a key, and another one cannot follow it in the same line. -/
def node (r : Reader) (read : Mark → List Glyph → Lex (TokenKind × List Glyph)) : Lex Reader := do
  let start := r.mark
  let r ← r.noteCandidate
  let (kind, rest) ← read start r.rest
  return { r.push kind start (position rest) with rest, keyAllowed := false }

/-- Read a plain scalar. If its white space runs over a line, a mapping key may follow. -/
def plain (r : Reader) : Lex Reader := do
  let start := r.mark
  let r ← r.noteCandidate
  let scalar ← readPlain ⟨r.inFlow, r.column + 1, start⟩ {} [] r.rest
  return { r.push (.scalar scalar.text true) start (position scalar.rest) with
    rest := scalar.rest, keyAllowed := scalar.crossed }

def quoted (r : Reader) (quote : Char) : Lex Reader :=
  r.node fun start gs => do
    let (text, rest) ← readQuoted quote start {} [] (gs.drop 1)
    return (.scalar text false, rest)

def blockScalar (r : Reader) (isLiteral : Bool) : Lex Reader := do
  let r ← r.dropCandidate r.mark
  let start := r.mark
  let (text, rest) ← readBlockScalar isLiteral r.column start (r.rest.drop 1)
  return { r.push (.scalar text false) start (position rest) with rest, keyAllowed := true }

def anchor (r : Reader) : Lex Reader :=
  r.node fun start gs => do
    let (name, rest) ← readAnchor .anchor start (gs.drop 1)
    return (.anchor name, rest)

def aliasTo (r : Reader) : Lex Reader :=
  r.node fun start gs => do
    let (name, rest) ← readAnchor .aliasName start (gs.drop 1)
    return (.aliasTo name, rest)

def tag (r : Reader) : Lex Reader :=
  r.node fun start gs => do
    let ((handle, suffix), rest) ← readTag r.inFlow start gs
    return (.tag handle suffix, rest)

/-- Read the opening bracket of a flow collection. -/
def flowStart (r : Reader) (kind : TokenKind) : Lex Reader := do
  let r ← r.noteCandidate
  return { r.take 1 kind with
    candidate := none, outer := r.candidate :: r.outer, keyAllowed := true }

/-- Read the closing bracket of a flow collection. -/
def flowEnd (r : Reader) (kind : TokenKind) : Lex Reader := do
  let r ← r.dropCandidate r.mark
  return { r.take 1 kind with
    candidate := r.outer.head?.getD r.candidate, outer := r.outer.tail, keyAllowed := false }

def flowEntry (r : Reader) : Lex Reader := do
  let r ← r.dropCandidate r.mark
  return { r.take 1 .flowEntry with keyAllowed := true }

/-- Start a block collection with an indicator, where one may start. -/
def startBlock (r : Reader) (kind : TokenKind) (problem : Problem) : Lex Reader :=
  if r.inFlow then
    .ok r
  else if r.keyAllowed then
    .ok (r.indent r.count kind r.mark)
  else
    failAt problem r.mark none

def blockEntry (r : Reader) : Lex Reader := do
  let r ← r.startBlock .blockSequenceStart .entryNotAllowed
  let r ← r.dropCandidate r.mark
  return { r.take 1 .blockEntry with keyAllowed := true }

def key (r : Reader) : Lex Reader := do
  let r ← r.startBlock .blockMappingStart .keyNotAllowed
  let r ← r.dropCandidate r.mark
  return { r.take 1 .key with keyAllowed := !r.inFlow }

/-- Read a colon. The candidate before it turns out to be a mapping key. -/
def value (r : Reader) : Lex Reader :=
  match r.candidate with
  | some c =>
    let r := (r.insert c.index .key c.mark).indent c.index .blockMappingStart c.mark
    .ok { r.take 1 .value with candidate := none, keyAllowed := false }
  | none => do
    let r ← r.startBlock .blockMappingStart .valueNotAllowed
    return { r.take 1 .value with keyAllowed := !r.inFlow }

/-- End all block collections. -/
def outermost (r : Reader) (mark : Mark) : Lex Reader := do
  let r ← (r.dedent (-1) mark).dropCandidate mark
  return { r with keyAllowed := false }

def directive (r : Reader) : Lex Reader := do
  let r ← r.outermost r.mark
  let (token, rest) ← readDirective r.mark (r.rest.drop 1)
  return { r.push token.kind token.start token.stop with rest }

def documentIndicator (r : Reader) (kind : TokenKind) : Lex Reader := do
  return (← r.outermost r.mark).take 3 kind

/-- End the document. An unfinished last line is taken as finished. -/
def finish (r : Reader) : Lex Reader := do
  let mark := if r.mark.column = 0 then r.mark else ⟨r.mark.line + 1, 0⟩
  let r ← (← r.outermost mark).dropFar mark
  return { r.push .streamEnd mark mark with isDone := true }

/-- Characters that have a meaning of their own and cannot start a plain scalar. -/
def isIndicator (c : Char) : Bool :=
  ['-', '?', ':', ',', '[', ']', '\x7b', '\x7d', '#', '&', '*', '!', '|', '>', '\x27', '"', '%',
    '@', '\x60'].contains c

/-- Whether a plain scalar starts with this character. -/
def startsPlain (inFlow : Bool) (c : Char) (rest : List Glyph) : Bool :=
  !(endsWord c || isIndicator c) || (c == '-' && !nextIs isSpace rest) ||
    (!inFlow && (c == '?' || c == ':') && !nextIs endsWord rest)

/-- Read the token that starts with the next character. -/
def token (r : Reader) (c : Char) (after : List Glyph) : Lex Reader :=
  let bounded := nextIs endsWord after
  if isEnd c then r.finish
  else if r.mark.column = 0 && c == '%' then r.directive
  else if startsDocument '-' r.rest then r.documentIndicator .documentStart
  else if startsDocument '.' r.rest then r.documentIndicator .documentEnd
  else if c == '[' then r.flowStart .flowSequenceStart
  else if c == '\x7b' then r.flowStart .flowMappingStart
  else if c == ']' then r.flowEnd .flowSequenceEnd
  else if c == '\x7d' then r.flowEnd .flowMappingEnd
  else if c == ',' then r.flowEntry
  else if c == '-' && bounded then r.blockEntry
  else if c == '?' && (r.inFlow || bounded) then r.key
  else if c == ':' && (r.inFlow || bounded) then r.value
  else if c == '*' then r.aliasTo
  else if c == '&' then r.anchor
  else if c == '!' then r.tag
  else if c == '|' && !r.inFlow then r.blockScalar true
  else if c == '>' && !r.inFlow then r.blockScalar false
  else if c == '\x27' || c == '"' then r.quoted c
  else if startsPlain r.inFlow c after then r.plain
  else failAt .strayCharacter r.mark (some (.nextToken, r.mark))

/-- Read the next token with everything before it. -/
def step (r : Reader) : Lex Reader := do
  let (keyAllowed, rest) ← skipBetween r.inFlow false r.keyAllowed (skipByteOrderMark r.rest)
  let r ← { r with keyAllowed, rest }.dropFar (position rest)
  let r := r.dedent r.mark.column r.mark
  need 4 r.rest
  match r.rest with
  | [] => .error none
  | g :: after =>
    let r ← r.token g.char after
    r.dropFar r.mark

end Reader

end OpcodeTable.Yaml
