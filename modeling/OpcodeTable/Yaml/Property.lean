import OpcodeTable.Yaml.Scalar

/-!
# Anchors, tags and directives

The tokens that name a node, give it a type, or say something about the whole document.
-/

namespace OpcodeTable.Yaml

/-! ## Anchors and aliases -/

/-- Characters that may follow the name of an anchor directly. -/
def endsAnchor (c : Char) : Bool :=
  endsWord c || ['?', ':', ',', ']', '\x7d', '%', '@', '\x60'].contains c

/-- Read the name of an anchor or an alias behind its indicator. -/
def readAnchor (activity : Activity) (start : Mark) (gs : List Glyph) :
    Lex (String × List Glyph) := do
  let (name, rest) ← spanWhile isNameChar gs
  if name.isEmpty || !nextIs endsAnchor rest then
    failAt .noAnchorName (position rest) (some (activity, start))
  else
    return (name, rest)

theorem gives_readAnchor (activity : Activity) (start : Mark) (gs : List Glyph) :
    Gives (readAnchor activity start gs) (·.2 <:+ gs) := by
  refine (gives_spanWhile _ _).bind fun ⟨name, rest⟩ hrest => ?_
  dsimp only
  split
  · exact gives_failAt _ _ _
  · exact gives_ok hrest

/-! ## Tags -/

/-- What a handle or an address belongs to. -/
inductive TagUse where
  | tag
  | directive
  deriving DecidableEq, Repr

def TagUse.uriActivity : TagUse → Activity
  | tag => .tagUri
  | directive => .tagDirectiveUri

def TagUse.handleActivity : TagUse → Activity
  | tag => .tag
  | directive => .tagDirectiveHandle

/-- The characters of an address; a verbatim one can hold flow indicators too. -/
def isUriChar (verbatim : Bool) (c : Char) : Bool :=
  isNameChar c ||
    [';', '/', '?', ':', '@', '&', '=', '+', '$'].contains c ||
    ['.', '%', '!', '~', '*', '\x27', '(', ')'].contains c ||
    (verbatim && [',', '[', ']'].contains c)

/-- Read one escaped octet: a percent sign and two hexadecimal digits. -/
def readOctet (use : TagUse) (start : Mark) (gs : List Glyph) : Lex (UInt8 × List Glyph) := do
  need 3 gs
  match (gs.take 3).map (·.char) with
  | ['%', a, b] =>
    match hexValue? [a, b] with
    | some n => return (n.toUInt8, gs.drop 3)
    | none => failAt .noEscapedOctet (position gs) (some (use.uriActivity, start))
  | _ => failAt .noEscapedOctet (position gs) (some (use.uriActivity, start))

theorem gives_readOctet (use : TagUse) (start : Mark) (gs : List Glyph) :
    Gives (readOctet use start gs) (·.2 <:+ gs.drop 1) := by
  refine (gives_true _).bind fun _ _ => ?_
  split
  · split
    · exact gives_ok (List.drop_suffix_drop_left gs (by decide))
    · exact gives_failAt _ _ _
  · exact gives_failAt _ _ _

/-- Read the further octets of an escaped character. -/
def readTrailing (use : TagUse) (start : Mark) (octets : List UInt8) :
    Nat → List Glyph → Lex (List UInt8 × List Glyph)
  | 0, gs => .ok (octets, gs)
  | n + 1, gs => do
    let (octet, rest) ← readOctet use start gs
    if isTrailing octet then
      readTrailing use start (octets ++ [octet]) n rest
    else
      failAt .trailingEscapedOctet (position gs) (some (use.uriActivity, start))

theorem gives_readTrailing (use : TagUse) (start : Mark) (octets : List UInt8) (n : Nat)
    (gs : List Glyph) : Gives (readTrailing use start octets n gs) (·.2 <:+ gs) := by
  induction n generalizing octets gs with
  | zero => exact gives_ok List.suffix_rfl
  | succ n ih =>
    refine (gives_readOctet _ _ _).bind fun ⟨octet, rest⟩ hrest => ?_
    dsimp only
    split
    · exact (ih _ _).of_suffix (hrest.trans (List.drop_suffix 1 gs))
    · exact gives_failAt _ _ _

/-- Read a character whose octets are escaped. -/
def readEscapedChar (use : TagUse) (start : Mark) (gs : List Glyph) : Lex (Char × List Glyph) := do
  let (octet, rest) ← readOctet use start gs
  let width := sequenceWidth octet
  if width = 0 then
    failAt .leadingEscapedOctet (position gs) (some (use.uriActivity, start))
  else
    let (octets, rest) ← readTrailing use start [octet] (width - 1) rest
    return (Char.ofNat (codePoint octets), rest)

theorem gives_readEscapedChar (use : TagUse) (start : Mark) (gs : List Glyph) :
    Gives (readEscapedChar use start gs) (·.2 <:+ gs.drop 1) := by
  refine (gives_readOctet _ _ _).bind fun ⟨octet, rest⟩ hrest => ?_
  dsimp only
  split
  · exact gives_failAt _ _ _
  · exact (gives_readTrailing _ _ _ _ _).bind fun _ htrailing => gives_ok (htrailing.trans hrest)

/-- Read the characters of an address. -/
def readUriChars (use : TagUse) (verbatim : Bool) (start : Mark) (acc : List Char) :
    List Glyph → Lex (List Char × List Glyph)
  | [] => .error none
  | g :: rest =>
    if !isUriChar verbatim g.char then
      .ok (acc.reverse, g :: rest)
    else if g.char == '%' then
      match _h : readEscapedChar use start (g :: rest) with
      | .error fault => .error fault
      | .ok (c, rest) => readUriChars use verbatim start (c :: acc) rest
    else
      readUriChars use verbatim start (g.char :: acc) rest
termination_by gs => gs.length
decreasing_by
  · exact Nat.lt_succ_of_le (gives_readEscapedChar use start _ _ _h).length_le
  · exact Nat.lt_succ_self _

theorem gives_readUriChars (use : TagUse) (verbatim : Bool) (start : Mark) (acc : List Char)
    (gs : List Glyph) : Gives (readUriChars use verbatim start acc gs) (·.2 <:+ gs) := by
  fun_induction readUriChars use verbatim start acc gs with
  | case1 => exact gives_error none
  | case2 => exact gives_ok List.suffix_rfl
  | case3 => exact gives_error _
  | case4 acc g rest _ _ c rest' h ih =>
    have hrest' := gives_readEscapedChar use start (g :: rest) _ h
    exact ih.of_suffix (hrest'.trans (List.suffix_cons g rest))
  | case5 acc g rest _ _ ih => exact ih.of_suffix (List.suffix_cons g rest)

/-- Read an address that goes on from the given characters. Without any, it cannot be empty. -/
def readUri (use : TagUse) (verbatim : Bool) (start : Mark) (head : Option String)
    (gs : List Glyph) : Lex (String × List Glyph) := do
  let (cs, rest) ← readUriChars use verbatim start [] gs
  if head.isNone && cs.isEmpty then
    failAt .noTagUri (position rest) (some (use.uriActivity, start))
  else
    return (head.getD "" ++ String.ofList cs, rest)

theorem gives_readUri (use : TagUse) (verbatim : Bool) (start : Mark) (head : Option String)
    (gs : List Glyph) : Gives (readUri use verbatim start head gs) (·.2 <:+ gs) := by
  refine (gives_readUriChars _ _ _ _ _).bind fun ⟨cs, rest⟩ hrest => ?_
  dsimp only
  split
  · exact gives_failAt _ _ _
  · exact gives_ok hrest

/-- Read a handle: an exclamation mark, and perhaps a name and another exclamation mark. -/
def readHandle (use : TagUse) (start : Mark) (gs : List Glyph) : Lex (String × List Glyph) := do
  need 1 gs
  if !nextIs (· == '!') gs then
    failAt .noTagMark (position gs) (some (use.handleActivity, start))
  else
    let (name, rest) ← spanWhile isNameChar (gs.drop 1)
    if nextIs (· == '!') rest then
      need 2 rest
      return ("!" ++ name ++ "!", rest.drop 1)
    else if use = .directive && !name.isEmpty then
      failAt .noTagMark (position rest) (some (.tagDirectiveHandleEnd, start))
    else
      return ("!" ++ name, rest)

theorem gives_readHandle (use : TagUse) (start : Mark) (gs : List Glyph) :
    Gives (readHandle use start gs) (·.2 <:+ gs.drop 1) := by
  refine (gives_true _).bind fun _ _ => ?_
  split
  · exact gives_failAt _ _ _
  · refine (gives_spanWhile _ _).bind fun ⟨name, rest⟩ hrest => ?_
    dsimp only
    split
    · exact (gives_true _).bind fun _ _ => gives_ok ((List.drop_suffix 1 rest).trans hrest)
    · split
      · exact gives_failAt _ _ _
      · exact gives_ok hrest

/-- Read the handle and the suffix of a tag. A verbatim tag and the lone exclamation mark have an
empty handle. -/
def readTagParts (start : Mark) (gs : List Glyph) : Lex ((String × String) × List Glyph) := do
  need 2 gs
  if nextIs (· == '<') (gs.drop 1) then
    let (suffix, rest) ← readUri .tag true start none (gs.drop 2)
    if nextIs (· == '>') rest then
      return (("", suffix), rest.drop 1)
    else
      failAt .noTagEnd (position rest) (some (.tag, start))
  else
    let (handle, rest) ← readHandle .tag start gs
    if handle.length > 1 && handle.endsWith "!" then
      let (suffix, rest) ← readUri .tag false start none rest
      return ((handle, suffix), rest)
    else
      let (suffix, rest) ← readUri .tag false start (some (handle.drop 1).toString) rest
      return (if suffix.isEmpty then ("", "!") else ("!", suffix), rest)

theorem gives_readTagParts (start : Mark) (gs : List Glyph) :
    Gives (readTagParts start gs) (·.2 <:+ gs.drop 1) := by
  refine (gives_true _).bind fun _ _ => ?_
  split
  · refine (gives_readUri _ _ _ _ _).bind fun ⟨suffix, rest⟩ hrest => ?_
    have hrest' : rest <:+ gs.drop 1 := hrest.trans (List.drop_suffix_drop_left gs (by decide))
    dsimp only
    split
    · exact gives_ok ((List.drop_suffix 1 rest).trans hrest')
    · exact gives_failAt _ _ _
  · refine (gives_readHandle _ _ _).bind fun ⟨handle, rest⟩ hrest => ?_
    dsimp only
    split
    · exact (gives_readUri _ _ _ _ _).bind fun _ huri => gives_ok (huri.trans hrest)
    · refine (gives_readUri _ _ _ _ _).bind fun ⟨suffix, rest'⟩ huri => ?_
      exact gives_ok (huri.trans hrest)

/-- Read a tag, up to the white space or, in a flow collection, the comma that follows it. -/
def readTag (inFlow : Bool) (start : Mark) (gs : List Glyph) :
    Lex ((String × String) × List Glyph) := do
  let (parts, rest) ← readTagParts start gs
  need 1 rest
  if nextIs endsWord rest || (inFlow && nextIs (· == ',') rest) then
    return (parts, rest)
  else
    failAt .noSpaceOrBreak (position rest) (some (.tag, start))

theorem gives_readTag (inFlow : Bool) (start : Mark) (gs : List Glyph) :
    Gives (readTag inFlow start gs) (·.2 <:+ gs.drop 1) := by
  refine (gives_readTagParts _ _).bind fun ⟨parts, rest⟩ hrest => ?_
  refine (gives_true _).bind fun _ _ => ?_
  split
  · exact gives_ok hrest
  · exact gives_failAt _ _ _

/-! ## Directives -/

/-- Read a part of a version number. -/
def readVersionPart (start : Mark) (gs : List Glyph) : Lex (Nat × List Glyph) := do
  let digits := gs.takeWhile (·.char.isDigit)
  if 9 < digits.length then
    failAt .longVersionNumber (position (gs.drop 9)) (some (.versionDirective, start))
  else
    let (text, rest) ← spanWhile Char.isDigit gs
    match text.toNat? with
    | some n => return (n, rest)
    | none => failAt .noVersionNumber (position rest) (some (.versionDirective, start))

theorem gives_readVersionPart (start : Mark) (gs : List Glyph) :
    Gives (readVersionPart start gs) (·.2 <:+ gs) := by
  unfold readVersionPart
  dsimp only
  split
  · exact gives_failAt _ _ _
  · refine (gives_spanWhile _ _).bind fun ⟨text, rest⟩ hrest => ?_
    dsimp only
    split
    · exact gives_ok hrest
    · exact gives_failAt _ _ _

def readVersion (start : Mark) (gs : List Glyph) : Lex (TokenKind × List Glyph) := do
  let (_, rest) ← spanWhile isSpace gs
  let (major, rest) ← readVersionPart start rest
  if nextIs (· == '.') rest then
    let (minor, rest) ← readVersionPart start (rest.drop 1)
    return (.versionDirective major minor, rest)
  else
    failAt .noDigitOrDot (position rest) (some (.versionDirective, start))

theorem gives_readVersion (start : Mark) (gs : List Glyph) :
    Gives (readVersion start gs) (·.2 <:+ gs) := by
  refine (gives_spanWhile _ _).bind fun ⟨_, rest⟩ hspaces => ?_
  refine (gives_readVersionPart _ _).bind fun ⟨major, rest'⟩ hmajor => ?_
  have hrest : rest' <:+ gs := hmajor.trans hspaces
  dsimp only
  split
  · refine (gives_readVersionPart _ _).bind fun _ hminor => gives_ok ?_
    exact hminor.trans ((List.drop_suffix 1 rest').trans hrest)
  · exact gives_failAt _ _ _

def readTagDirective (start : Mark) (gs : List Glyph) : Lex (TokenKind × List Glyph) := do
  let (_, rest) ← spanWhile isSpace gs
  let (handle, rest) ← readHandle .directive start rest
  need 1 rest
  if !nextIs isSpace rest then
    failAt .noSpace (position rest) (some (.tagDirective, start))
  else
    let (_, rest) ← spanWhile isSpace rest
    let (uri, rest) ← readUri .directive true start none rest
    need 1 rest
    if nextIs endsWord rest then
      return (.tagDirective handle uri, rest)
    else
      failAt .noSpaceOrBreak (position rest) (some (.tagDirective, start))

theorem gives_readTagDirective (start : Mark) (gs : List Glyph) :
    Gives (readTagDirective start gs) (·.2 <:+ gs) := by
  refine (gives_spanWhile _ _).bind fun ⟨_, rest⟩ hspaces => ?_
  refine (gives_readHandle _ _ _).bind fun ⟨handle, rest'⟩ hhandle => ?_
  have hrest : rest' <:+ gs := hhandle.trans ((List.drop_suffix 1 rest).trans hspaces)
  refine (gives_true _).bind fun _ _ => ?_
  dsimp only
  split
  · exact gives_failAt _ _ _
  · refine (gives_spanWhile _ _).bind fun ⟨_, rest''⟩ hspaces' => ?_
    refine (gives_readUri _ _ _ _ _).bind fun ⟨uri, rest''⟩ huri => ?_
    refine (gives_true _).bind fun _ _ => ?_
    dsimp only
    split
    · exact gives_ok (huri.trans (hspaces'.trans hrest))
    · exact gives_failAt _ _ _

/-- Read a directive behind its percent sign, and the rest of its line. -/
def readDirective (start : Mark) (gs : List Glyph) : Lex (Token × List Glyph) := do
  let (name, rest) ← spanWhile isNameChar gs
  if name.isEmpty then
    failAt .noDirectiveName (position rest) (some (.directive, start))
  else if !nextIs endsWord rest then
    failAt .nonAlphabetic (position rest) (some (.directive, start))
  else
    let (kind, rest) ←
      if name = "YAML" then readVersion start rest
      else if name = "TAG" then readTagDirective start rest
      else failAt .unknownDirective (position rest) (some (.directive, start))
    let stop := position rest
    let rest ← skipLineEnd (.directive, start) rest
    return (⟨kind, start, stop⟩, rest)

theorem gives_readDirective (start : Mark) (gs : List Glyph) :
    Gives (readDirective start gs) (·.2 <:+ gs) := by
  refine (gives_spanWhile _ _).bind fun ⟨name, rest⟩ hname => ?_
  -- after the directive itself, the rest of the line
  have hline {x : Lex (TokenKind × List Glyph)} (hx : Gives x (·.2 <:+ rest)) :
      Gives (do
        let (kind, rest) ← x
        let rest' ← skipLineEnd (.directive, start) rest
        return (⟨kind, start, position rest⟩, rest') : Lex (Token × List Glyph)) (·.2 <:+ gs) := by
    refine hx.bind fun ⟨kind, rest'⟩ hkind => ?_
    refine (gives_skipLineEnd _ _).bind fun _ hline => gives_ok ?_
    exact hline.trans (hkind.trans hname)
  dsimp only
  split
  · exact gives_failAt _ _ _
  · split
    · exact gives_failAt _ _ _
    · split
      · exact hline (gives_readVersion _ _)
      · split
        · exact hline (gives_readTagDirective _ _)
        · exact hline (gives_failAt _ _ _)

end OpcodeTable.Yaml
