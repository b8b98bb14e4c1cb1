/-!
# Faults of a document

What can be wrong with a YAML document, where, and in the middle of what. Positions are shown
counted from one, and the very start of the document is not shown at all.
-/

namespace OpcodeTable.Yaml

/-- A position in a document, counted from zero. -/
structure Mark where
  line : Nat
  column : Nat
  deriving DecidableEq, Repr

namespace Mark

def origin : Mark := ⟨0, 0⟩

instance : Inhabited Mark := ⟨origin⟩

/-- The words that give a position. -/
def place (m : Mark) : String :=
  if m = origin then
    ""
  else
    " at line " ++ toString (m.line + 1) ++ " column " ++ toString (m.column + 1)

end Mark

inductive Problem where
  | leadingOctet
  | incompleteSequence
  | trailingOctet
  | sequenceLength
  | invalidCharacter
  | controlCharacter
  | noColon
  | entryNotAllowed
  | keyNotAllowed
  | valueNotAllowed
  | strayCharacter
  | unexpectedColon
  | tabInIndentation
  | tabForIndentation
  | documentIndicator
  | unexpectedEnd
  | unknownEscape
  | noHexDigit
  | invalidEscapeCode
  | zeroIndentation
  | noCommentOrBreak
  | noAnchorName
  | noTagEnd
  | noSpaceOrBreak
  | noSpace
  | noEscapedOctet
  | leadingEscapedOctet
  | trailingEscapedOctet
  | noTagUri
  | noTagMark
  | noVersionNumber
  | noDigitOrDot
  | longVersionNumber
  | noDirectiveName
  | nonAlphabetic
  | unknownDirective
  | noDocumentStart
  | noNodeContent
  | undefinedHandle
  | noEntryIndicator
  | noKey
  | noCommaOrBracket
  | noCommaOrBrace
  | repeatedVersion
  | incompatibleVersion
  | repeatedHandle
  | unknownAnchor
  deriving DecidableEq, Repr

def Problem.message : Problem → String
  | leadingOctet => "invalid leading UTF-8 octet"
  | incompleteSequence => "incomplete UTF-8 octet sequence"
  | trailingOctet => "invalid trailing UTF-8 octet"
  | sequenceLength => "invalid length of a UTF-8 sequence"
  | invalidCharacter => "invalid Unicode character"
  | controlCharacter => "control characters are not allowed"
  | noColon => "could not find expected ':'"
  | entryNotAllowed => "block sequence entries are not allowed in this context"
  | keyNotAllowed => "mapping keys are not allowed in this context"
  | valueNotAllowed => "mapping values are not allowed in this context"
  | strayCharacter => "found character that cannot start any token"
  | unexpectedColon => "found unexpected ':'"
  | tabInIndentation => "found a tab character that violates indentation"
  | tabForIndentation => "found a tab character where an indentation space is expected"
  | documentIndicator => "found unexpected document indicator"
  | unexpectedEnd => "found unexpected end of stream"
  | unknownEscape => "found unknown escape character"
  | noHexDigit => "did not find expected hexdecimal number"
  | invalidEscapeCode => "found invalid Unicode character escape code"
  | zeroIndentation => "found an indentation indicator equal to 0"
  | noCommentOrBreak => "did not find expected comment or line break"
  | noAnchorName => "did not find expected alphabetic or numeric character"
  | noTagEnd => "did not find the expected '>'"
  | noSpaceOrBreak => "did not find expected whitespace or line break"
  | noSpace => "did not find expected whitespace"
  | noEscapedOctet => "did not find URI escaped octet"
  | leadingEscapedOctet => "found an incorrect leading UTF-8 octet"
  | trailingEscapedOctet => "found an incorrect trailing UTF-8 octet"
  | noTagUri => "did not find expected tag URI"
  | noTagMark => "did not find expected '!'"
  | noVersionNumber => "did not find expected version number"
  | noDigitOrDot => "did not find expected digit or '.' character"
  | longVersionNumber => "found extremely long version number"
  | noDirectiveName => "could not find expected directive name"
  | nonAlphabetic => "found unexpected non-alphabetical character"
  | unknownDirective => "found unknown directive name"
  | noDocumentStart => "did not find expected <document start>"
  | noNodeContent => "did not find expected node content"
  | undefinedHandle => "found undefined tag handle"
  | noEntryIndicator => "did not find expected '-' indicator"
  | noKey => "did not find expected key"
  | noCommaOrBracket => "did not find expected ',' or ']'"
  | noCommaOrBrace => "did not find expected ',' or '\x7d'"
  | repeatedVersion => "found duplicate %YAML directive"
  | incompatibleVersion => "found incompatible YAML document"
  | repeatedHandle => "found duplicate %TAG directive"
  | unknownAnchor => "unknown anchor"

/-- What was being read when the problem was met. -/
inductive Activity where
  | nextToken
  | simpleKey
  | plainScalar
  | quotedScalar
  | quotedEscape
  | blockScalar
  | anchor
  | aliasName
  | tag
  | tagUri
  | directive
  | versionDirective
  | tagDirective
  | tagDirectiveHandle
  | tagDirectiveHandleEnd
  | tagDirectiveUri
  | node
  | blockNode
  | flowNode
  | blockSequence
  | blockMapping
  | flowSequence
  | flowMapping
  deriving DecidableEq, Repr

def Activity.message : Activity → String
  | nextToken => "while scanning for the next token"
  | simpleKey => "while scanning a simple key"
  | plainScalar => "while scanning a plain scalar"
  | quotedScalar => "while scanning a quoted scalar"
  | quotedEscape => "while parsing a quoted scalar"
  | blockScalar => "while scanning a block scalar"
  | anchor => "while scanning an anchor"
  | aliasName => "while scanning an alias"
  | tag => "while scanning a tag"
  | tagUri => "while parsing a tag"
  | directive => "while scanning a directive"
  | versionDirective => "while scanning a %YAML directive"
  | tagDirective => "while scanning a %TAG directive"
  | tagDirectiveHandle => "while scanning a tag directive"
  | tagDirectiveHandleEnd => "while parsing a tag directive"
  | tagDirectiveUri => "while parsing a %TAG directive"
  | node => "while parsing a node"
  | blockNode => "while parsing a block node"
  | flowNode => "while parsing a flow node"
  | blockSequence => "while parsing a block collection"
  | blockMapping => "while parsing a block mapping"
  | flowSequence => "while parsing a flow sequence"
  | flowMapping => "while parsing a flow mapping"

structure Fault where
  problem : Problem
  mark : Mark := .origin
  /-- The position of an octet that cannot be decoded, for which there is no mark. -/
  offset : Nat := 0
  /-- What was being read, and where it started. -/
  context : Option (Activity × Mark) := none
  deriving DecidableEq, Repr

namespace Fault

/-- Where the problem is. -/
def place (f : Fault) : String :=
  if f.mark = .origin && f.offset != 0 then
    " at position " ++ toString f.offset
  else
    f.mark.place

def message (f : Fault) : String :=
  f.problem.message ++ f.place ++
    match f.context with
    | none => ""
    | some (activity, start) =>
      ", " ++ activity.message ++ if start = f.mark then "" else start.place

end Fault

end OpcodeTable.Yaml
