import OpcodeTable.Yaml.Fault

/-!
# The characters of a document

A document comes as octets. They are decoded block by block, and an octet that cannot be decoded
spoils its whole block: what stands before the block can still be read. Line breaks of all kinds
except the two Unicode separators become line feeds, and every character knows its position.
-/

namespace OpcodeTable.Yaml

/-- A character and where it stands. -/
structure Glyph where
  char : Char
  mark : Mark
  deriving DecidableEq, Repr

/-- The readable characters. Unless a fault cuts them off, a final null character marks the end. -/
structure Source where
  glyphs : List Glyph
  cut : Option Fault
  deriving DecidableEq, Repr

/-! ## Octets -/

/-- The number of octets of a character by its leading octet; no character starts with an octet
of length zero. -/
def sequenceWidth (octet : UInt8) : Nat :=
  if octet < 0x80 then 1
  else if octet < 0xC0 then 0
  else if octet < 0xE0 then 2
  else if octet < 0xF0 then 3
  else if octet < 0xF8 then 4
  else 0

/-- The bits that a leading octet contributes. -/
def leadingBits (octet : UInt8) : Nat :=
  match sequenceWidth octet with
  | 1 => octet.toNat
  | 2 => octet.toNat % 32
  | 3 => octet.toNat % 16
  | _ => octet.toNat % 8

def isTrailing (octet : UInt8) : Bool :=
  0x80 ≤ octet && octet < 0xC0

/-- The code point of a sequence of octets. -/
def codePoint : List UInt8 → Nat
  | [] => 0
  | octet :: trailing => trailing.foldl (fun n o => n * 64 + o.toNat % 64) (leadingBits octet)

/-- The least code point that takes this many octets. -/
def leastOfWidth : Nat → Nat
  | 2 => 0x80
  | 3 => 0x800
  | 4 => 0x10000
  | _ => 0

/-- The characters that a document may hold. -/
def isAllowed (n : Nat) : Bool :=
  n == 0x9 || n == 0xA || n == 0xD || (0x20 ≤ n && n ≤ 0x7E) || n == 0x85 ||
    (0xA0 ≤ n && n ≤ 0xD7FF) || (0xE000 ≤ n && n ≤ 0xFFFD) || (0x10000 ≤ n && n ≤ 0x10FFFF)

/-- The character that a complete sequence of octets denotes. The offset is the sequence's. -/
def decodeSequence (offset : Nat) (octets : List UInt8) : Except Fault Char :=
  match octets.tail.findIdx? (!isTrailing ·) with
  | some k => .error { problem := .trailingOctet, offset := offset + k + 1 }
  | none =>
    let n := codePoint octets
    if n < leastOfWidth octets.length then
      .error { problem := .sequenceLength, offset }
    else if (0xD800 ≤ n && n ≤ 0xDFFF) || 0x10FFFF < n then
      .error { problem := .invalidCharacter, offset }
    else if isAllowed n then
      .ok (Char.ofNat n)
    else
      .error { problem := .controlCharacter, offset }

/-- The number of octets that are decoded at a time. -/
def blockSize : Nat := 16384

/-- The characters decoded so far, last one first. -/
structure Decoded where
  chars : List Char
  offset : Nat
  /-- Where the block starts, and the characters before it. -/
  blockStart : Nat
  before : List Char

/-- Enter the block of a sequence with the given width. -/
def Decoded.enter (d : Decoded) (width : Nat) : Decoded :=
  if d.blockStart + blockSize < d.offset + width then
    { d with blockStart := d.offset, before := d.chars }
  else
    d

/-- Decode all octets, up to the first fault. -/
def decode (d : Decoded) : List UInt8 → List Char × Option Fault
  | [] => (d.chars.reverse, none)
  | octet :: rest =>
    let width := sequenceWidth octet
    let trailing := rest.take (width - 1)
    if width = 0 then
      ((d.enter 1).before.reverse, some { problem := .leadingOctet, offset := d.offset })
    else if trailing.length + 1 < width then
      (d.chars.reverse, some { problem := .incompleteSequence, offset := d.offset })
    else
      let d := d.enter width
      match decodeSequence d.offset (octet :: trailing) with
      | .error fault => (d.before.reverse, some fault)
      | .ok c =>
        decode { d with chars := c :: d.chars, offset := d.offset + width } (rest.drop (width - 1))
termination_by octets => octets.length
decreasing_by
  simp only [List.length_cons, List.length_drop]
  omega

/-! ## Characters -/

/-- A character that ends a line. -/
def isBreak (c : Char) : Bool :=
  c == '\n' || c == '\u2028' || c == '\u2029'

/-- A character that separates words within a line. -/
def isSpace (c : Char) : Bool :=
  c == ' ' || c == '\t'

def isEnd (c : Char) : Bool :=
  c == '\x00'

/-- Whether a line cannot go on at this character. -/
def endsLine (c : Char) : Bool :=
  isBreak c || isEnd c

/-- Whether a word cannot go on at this character. -/
def endsWord (c : Char) : Bool :=
  isSpace c || endsLine c

/-- Write every line break as one line feed, the Unicode separators apart. -/
def unifyBreaks : List Char → List Char → List Char
  | acc, [] => acc.reverse
  | acc, '\r' :: '\n' :: rest => unifyBreaks ('\n' :: acc) rest
  | acc, c :: rest => unifyBreaks ((if c == '\r' || c == '\u0085' then '\n' else c) :: acc) rest

/-- The position after a character. -/
def Mark.after (m : Mark) (c : Char) : Mark :=
  if isBreak c then ⟨m.line + 1, 0⟩ else ⟨m.line, m.column + 1⟩

/-- Give every character its position. -/
def placed (cs : List Char) : List Glyph :=
  let (glyphs, _) :=
    cs.foldl (fun (acc, m) c => (⟨c, m⟩ :: acc, m.after c)) (([] : List Glyph), Mark.origin)
  glyphs.reverse

def Source.ofBytes (bytes : ByteArray) : Source :=
  let (chars, cut) := decode ⟨[], 0, 0, []⟩ bytes.toList
  let ending := if cut.isNone then ['\x00'] else []
  { glyphs := placed (unifyBreaks [] chars ++ ending), cut }

end OpcodeTable.Yaml
