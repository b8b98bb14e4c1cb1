import OpcodeTable.Yaml.Token

/-!
# The text of a scalar

Plain and quoted scalars fold the white space around line breaks: one line feed becomes a space,
and more of them lose the first. Block scalars keep their lines, or fold those that are not
indented further.
-/

namespace OpcodeTable.Yaml

/-! ## Folding -/

/-- The white space since the last character of a scalar, with the last character first. -/
structure Gap where
  spaces : List Char := []
  /-- The first line break, if one was passed; an escaped one counts but leaves no character. -/
  firstBreak : Option (List Char) := none
  moreBreaks : List Char := []

namespace Gap

def isEmpty (g : Gap) : Bool :=
  g.spaces.isEmpty && g.firstBreak.isNone

/-- Whether a line break has been passed. -/
def crossed (g : Gap) : Bool :=
  g.firstBreak.isSome

/-- Pass one more space or line break. Spaces next to a line break do not count. -/
def pass (g : Gap) (c : Char) : Gap :=
  if isBreak c then
    match g.firstBreak with
    | none => { g with spaces := [], firstBreak := some [c] }
    | some _ => { g with moreBreaks := c :: g.moreBreaks }
  else if g.crossed then
    g
  else
    { g with spaces := c :: g.spaces }

/-- What is left of the gap in the text, with the last character first. -/
def folded (g : Gap) : List Char :=
  match g.firstBreak with
  | none => g.spaces
  | some ['\n'] => if g.moreBreaks.isEmpty then [' '] else g.moreBreaks
  | some first => g.moreBreaks ++ first

end Gap

/-! ## Plain scalars -/

/-- The surroundings of a plain scalar. -/
structure PlainFrame where
  inFlow : Bool
  /-- The first column that belongs to the enclosing block. -/
  limit : Int
  start : Mark

/-- A plain scalar, and whether white space with a line break follows it. -/
structure PlainScalar where
  text : String
  crossed : Bool
  rest : List Glyph

/-- Characters that separate the items of a flow collection. -/
def isFlowIndicator (c : Char) : Bool :=
  c == ',' || c == '[' || c == ']' || c == '\x7b' || c == '\x7d'

/-- Whether a plain scalar ends inside a word at this character. -/
def PlainFrame.endsAt (f : PlainFrame) (g : Glyph) (rest : List Glyph) : Bool :=
  isEnd g.char || (g.char == ':' && nextIs endsWord rest) || (f.inFlow && isFlowIndicator g.char)

/-- Read on in a plain scalar. -/
def readPlain (f : PlainFrame) (gap : Gap) (acc : List Char) : List Glyph → Lex PlainScalar
  | [] => .error none
  | g :: rest =>
    let finished : PlainScalar := ⟨String.ofList acc.reverse, gap.crossed, g :: rest⟩
    if isSpace g.char || isBreak g.char then
      if gap.crossed && g.char == '\t' && g.mark.column < f.limit then
        failAt .tabInIndentation g.mark (some (.plainScalar, f.start))
      else
        readPlain f (gap.pass g.char) acc rest
    else if !gap.isEmpty && !f.inFlow && g.mark.column < f.limit then
      .ok finished
    else do
      if !gap.isEmpty then
        need 4 (g :: rest)
      need 2 (g :: rest)
      if !gap.isEmpty && (atDocumentIndicator (g :: rest) || g.char == '#') then
        return finished
      else if f.inFlow && g.char == ':' && nextIs (fun c => isFlowIndicator c || c == '?') rest then
        failAt .unexpectedColon g.mark (some (.plainScalar, f.start))
      else if f.endsAt g rest then
        return finished
      else
        readPlain f {} (g.char :: (gap.folded ++ acc)) rest

theorem gives_readPlain (f : PlainFrame) (gap : Gap) (acc : List Char) (gs : List Glyph) :
    Gives (readPlain f gap acc gs) (·.rest <:+ gs) := by
  induction gs generalizing gap acc with
  | nil => exact gives_error none
  | cons g rest ih =>
    have hon (gap : Gap) (acc : List Char) :
        Gives (readPlain f gap acc rest) (·.rest <:+ g :: rest) :=
      (ih gap acc).of_suffix (List.suffix_cons g rest)
    rw [readPlain]
    split
    · split
      · exact gives_failAt _ _ _
      · exact hon _ _
    · split
      · exact gives_ok List.suffix_rfl
      · refine gives_when _ ((gives_true _).bind fun _ _ => ?_)
        split
        · exact gives_ok List.suffix_rfl
        · split
          · exact gives_failAt _ _ _
          · split
            · exact gives_ok List.suffix_rfl
            · exact hon _ _

/-! ## Quoted scalars -/

/-- What a character after a backslash stands for. -/
inductive Escape where
  | char (c : Char)
  /-- The number of hexadecimal digits that give the code point. -/
  | digits (n : Nat)

def Escape.ofChar? : Char → Option Escape
  | '0' => some (.char '\x00')
  | 'a' => some (.char '\x07')
  | 'b' => some (.char '\x08')
  | 't' => some (.char '\t')
  | '\t' => some (.char '\t')
  | 'n' => some (.char '\n')
  | 'v' => some (.char '\x0b')
  | 'f' => some (.char '\x0c')
  | 'r' => some (.char '\r')
  | 'e' => some (.char '\x1b')
  | ' ' => some (.char ' ')
  | '"' => some (.char '"')
  | '/' => some (.char '/')
  | '\\' => some (.char '\\')
  | 'N' => some (.char '\u0085')
  | '_' => some (.char '\u00a0')
  | 'L' => some (.char '\u2028')
  | 'P' => some (.char '\u2029')
  | 'x' => some (.digits 2)
  | 'u' => some (.digits 4)
  | 'U' => some (.digits 8)
  | _ => none

/-- The character that the next hexadecimal digits denote. -/
def readCode (start : Mark) (n : Nat) (gs : List Glyph) : Lex Char := do
  need n gs
  match hexValue? ((gs.take n).map (·.char)) with
  | none => failAt .noHexDigit (position gs) (some (.quotedEscape, start))
  | some code =>
    if code.isValidChar then
      return Char.ofNat code
    else
      failAt .invalidEscapeCode (position gs) (some (.quotedEscape, start))

/-- Read on in a quoted scalar, up to the closing quote and over it. -/
def readQuoted (quote : Char) (start : Mark) (gap : Gap) (acc : List Char) :
    List Glyph → Lex (String × List Glyph)
  | [] => .error none
  | g :: rest =>
    if isSpace g.char || isBreak g.char then
      readQuoted quote start (gap.pass g.char) acc rest
    else do
      if !gap.isEmpty then
        need 4 (g :: rest)
      if !gap.isEmpty && atDocumentIndicator (g :: rest) then
        failAt .documentIndicator g.mark (some (.quotedScalar, start))
      else if isEnd g.char then
        failAt .unexpectedEnd g.mark (some (.quotedScalar, start))
      else do
        need 2 (g :: rest)
        let acc := gap.folded ++ acc
        if g.char == quote then
          if quote == '\x27' && nextIs (· == quote) rest then
            readQuoted quote start {} (quote :: acc) (rest.drop 1)
          else
            return (String.ofList acc.reverse, rest)
        else if quote == '"' && g.char == '\\' then
          if nextIs isBreak rest then
            readQuoted quote start { firstBreak := some [] } acc (rest.drop 1)
          else
            match rest.head?.bind (Escape.ofChar? ·.char) with
            | none => failAt .unknownEscape g.mark (some (.quotedEscape, start))
            | some (.char c) => readQuoted quote start {} (c :: acc) (rest.drop 1)
            | some (.digits n) => do
              let c ← readCode start n (rest.drop 1)
              readQuoted quote start {} (c :: acc) (rest.drop (n + 1))
        else
          readQuoted quote start {} (g.char :: acc) rest
termination_by gs => gs.length
decreasing_by
  all_goals simp only [List.length_cons, List.length_drop]
  all_goals omega

theorem gives_readQuoted (quote : Char) (start : Mark) (gap : Gap) (acc : List Char) :
    (gs : List Glyph) → Gives (readQuoted quote start gap acc gs) (·.2 <:+ gs)
  | [] => by
    rw [readQuoted]
    exact gives_error none
  | g :: rest => by
    have hon (gap : Gap) (acc : List Char) (k : Nat) :
        Gives (readQuoted quote start gap acc (rest.drop k)) (·.2 <:+ g :: rest) :=
      (gives_readQuoted quote start gap acc (rest.drop k)).of_suffix
        ((List.drop_suffix k rest).trans (List.suffix_cons g rest))
    rw [readQuoted]
    split
    · exact hon _ _ 0
    · refine gives_when _ ?_
      split
      · exact gives_failAt _ _ _
      · split
        · exact gives_failAt _ _ _
        · refine (gives_true _).bind fun _ _ => ?_
          split
          · split
            · exact hon _ _ 1
            · exact gives_ok (List.suffix_cons g rest)
          · split
            · split
              · exact hon _ _ 1
              · split
                · exact gives_failAt _ _ _
                · exact hon _ _ 1
                · exact (gives_true _).bind fun _ _ => hon _ _ _
            · exact hon _ _ 0
termination_by gs => gs.length
decreasing_by
  simp only [List.length_cons, List.length_drop]
  omega

/-! ## Block scalars -/

/-- What becomes of the line breaks at the end of a block scalar. -/
inductive Chomping where
  | strip
  | clip
  | keep
  deriving DecidableEq, Repr

def Chomping.ofChar? : Char → Option Chomping
  | '-' => some strip
  | '+' => some keep
  | _ => none

/-- The line after a block scalar's indicator. -/
structure BlockHeader where
  chomping : Chomping := .clip
  /-- The given indentation, relative to the enclosing block. -/
  increment : Option Nat := none

/-- Read a chomping indicator if there is one. -/
def BlockHeader.readChomping (h : BlockHeader) : List Glyph → BlockHeader × List Glyph
  | [] => (h, [])
  | g :: rest =>
    match Chomping.ofChar? g.char with
    | some chomping => ({ h with chomping }, rest)
    | none => (h, g :: rest)

theorem suffix_readChomping (h : BlockHeader) (gs : List Glyph) :
    (h.readChomping gs).2 <:+ gs := by
  cases gs with
  | nil => exact List.suffix_rfl
  | cons g rest =>
    rw [BlockHeader.readChomping]
    split
    · exact List.suffix_cons g rest
    · exact List.suffix_rfl

/-- Read an indentation indicator if there is one. -/
def BlockHeader.readIncrement (h : BlockHeader) (start : Mark) :
    List Glyph → Lex (BlockHeader × List Glyph)
  | [] => .error none
  | g :: rest =>
    if g.char == '0' then
      failAt .zeroIndentation g.mark (some (.blockScalar, start))
    else if g.char.isDigit then
      .ok ({ h with increment := some (g.char.toNat - '0'.toNat) }, rest)
    else
      .ok (h, g :: rest)

theorem gives_readIncrement (h : BlockHeader) (start : Mark) (gs : List Glyph) :
    Gives (h.readIncrement start gs) (·.2 <:+ gs) := by
  cases gs with
  | nil => exact gives_error none
  | cons g rest =>
    rw [BlockHeader.readIncrement]
    split
    · exact gives_failAt _ _ _
    · split
      · exact gives_ok (List.suffix_cons g rest)
      · exact gives_ok List.suffix_rfl

/-- Read over spaces and a comment up to the end of the line, and over the line break. -/
def skipLineEnd (context : Activity × Mark) (gs : List Glyph) : Lex (List Glyph) := do
  let (_, rest) ← spanWhile isSpace gs
  let (_, rest) ← spanWhile (fun c => nextIs (· == '#') rest && !endsLine c) rest
  if nextIs isBreak rest then
    return rest.drop 1
  else if nextIs isEnd rest then
    return rest
  else
    failAt .noCommentOrBreak (position rest) (some context)

theorem gives_skipLineEnd (context : Activity × Mark) (gs : List Glyph) :
    Gives (skipLineEnd context gs) (· <:+ gs) := by
  refine (gives_spanWhile _ _).bind fun ⟨_, rest⟩ hspaces => ?_
  refine (gives_spanWhile _ _).bind fun ⟨_, rest'⟩ hcomment => ?_
  have hrest : rest' <:+ gs := hcomment.trans hspaces
  dsimp only
  split
  · exact gives_ok ((List.drop_suffix 1 rest').trans hrest)
  · split
    · exact gives_ok hrest
    · exact gives_failAt _ _ _

/-- Read the indicators of a block scalar in either order, and the rest of the line. -/
def readHeader (start : Mark) (gs : List Glyph) : Lex (BlockHeader × List Glyph) := do
  need 1 gs
  let (header, rest) := ({} : BlockHeader).readChomping gs
  let (header, rest) ← header.readIncrement start rest
  need 1 rest
  let (header, rest) :=
    if header.chomping = .clip && header.increment.isSome then header.readChomping rest
    else (header, rest)
  need 1 rest
  let rest ← skipLineEnd (.blockScalar, start) rest
  return (header, rest)

theorem gives_readHeader (start : Mark) (gs : List Glyph) :
    Gives (readHeader start gs) (·.2 <:+ gs) := by
  have hline (header : BlockHeader) {rest : List Glyph} (hrest : rest <:+ gs) :
      Gives (do
        need 1 rest
        let rest ← skipLineEnd (.blockScalar, start) rest
        return (header, rest)) (·.2 <:+ gs) := by
    refine (gives_true _).bind fun _ _ => ?_
    exact (gives_skipLineEnd _ _).bind fun _ hline => gives_ok (hline.trans hrest)
  refine (gives_true _).bind fun _ _ => ?_
  have hchomping := suffix_readChomping {} gs
  refine (gives_readIncrement _ _ _).bind fun ⟨header, rest⟩ hincrement => ?_
  have hrest : rest <:+ gs := hincrement.trans hchomping
  refine (gives_true _).bind fun _ _ => ?_
  dsimp only
  split
  · exact hline _ ((suffix_readChomping header rest).trans hrest)
  · exact hline header hrest

/-- The line breaks before the next line of a block scalar, and the deepest column among them. -/
structure Blanks where
  breaks : List Char
  deepest : Nat
  rest : List Glyph

/-- Read empty lines and the indentation of the next line. An indentation of zero means that it
is not known yet, and then all spaces belong to it. -/
def readBlanks (start : Mark) (indentation : Nat) (breaks : List Char) (deepest : Nat) :
    List Glyph → Lex Blanks
  | [] => .error none
  | g :: rest =>
    let free := indentation == 0 || decide (g.mark.column < indentation)
    if free && g.char == ' ' then
      readBlanks start indentation breaks deepest rest
    else if free && g.char == '\t' then
      failAt .tabForIndentation g.mark (some (.blockScalar, start))
    else if isBreak g.char then
      readBlanks start indentation (g.char :: breaks) (max deepest g.mark.column) rest
    else
      .ok ⟨breaks, max deepest g.mark.column, g :: rest⟩

theorem gives_readBlanks (start : Mark) (indentation : Nat) (breaks : List Char) (deepest : Nat)
    (gs : List Glyph) :
    Gives (readBlanks start indentation breaks deepest gs) (·.rest <:+ gs) := by
  induction gs generalizing breaks deepest with
  | nil => exact gives_error none
  | cons g rest ih =>
    have hon (breaks : List Char) (deepest : Nat) :
        Gives (readBlanks start indentation breaks deepest rest) (·.rest <:+ g :: rest) :=
      (ih breaks deepest).of_suffix (List.suffix_cons g rest)
    rw [readBlanks]
    split
    · exact hon _ _
    · split
      · exact gives_failAt _ _ _
      · split
        · exact hon _ _
        · exact gives_ok List.suffix_rfl

/-- The surroundings of the lines of a block scalar. -/
structure BlockFrame where
  isLiteral : Bool
  chomping : Chomping
  indentation : Nat
  start : Mark

/-- How far a block scalar has been read. Texts have their last character first. -/
structure BlockState where
  text : List Char := []
  /-- The line break that ended the last line. -/
  lineBreak : List Char := []
  /-- The further line breaks after it. -/
  breaks : List Char
  /-- Whether the last line starts with white space, which keeps its breaks from being folded. -/
  isIndented : Bool := false

/-- The text with all pending line breaks, before a line that starts with the given character. -/
def BlockState.joined (s : BlockState) (isLiteral : Bool) (c : Char) : List Char :=
  if !isLiteral && s.lineBreak == ['\n'] && !s.isIndented && !isSpace c then
    s.breaks ++ (if s.breaks.isEmpty then [' '] else []) ++ s.text
  else
    s.breaks ++ s.lineBreak ++ s.text

/-- The text with the line breaks at its end that are kept. -/
def BlockState.chomped (s : BlockState) : Chomping → List Char
  | .strip => s.text
  | .clip => s.lineBreak ++ s.text
  | .keep => s.breaks ++ s.lineBreak ++ s.text

/-- Read on in a block scalar, inside a line or before one. -/
def readBlock (f : BlockFrame) (inLine : Bool) (s : BlockState) :
    List Glyph → Lex (String × List Glyph)
  | [] => .error none
  | g :: rest =>
    let finished := (String.ofList (s.chomped f.chomping).reverse, g :: rest)
    if inLine then
      if isEnd g.char then
        .ok finished
      else if isBreak g.char then
        readBlock f false { s with lineBreak := [g.char] } rest
      else
        readBlock f true { s with text := g.char :: s.text } rest
    else if decide (g.mark.column < f.indentation) && g.char == ' ' then
      readBlock f false s rest
    else if decide (g.mark.column < f.indentation) && g.char == '\t' then
      failAt .tabForIndentation g.mark (some (.blockScalar, f.start))
    else if isBreak g.char then
      readBlock f false { s with breaks := g.char :: s.breaks } rest
    else if g.mark.column == f.indentation && !isEnd g.char then
      readBlock f true
        { text := g.char :: s.joined f.isLiteral g.char
          breaks := []
          isIndented := isSpace g.char } rest
    else
      .ok finished

theorem gives_readBlock (f : BlockFrame) (inLine : Bool) (s : BlockState) (gs : List Glyph) :
    Gives (readBlock f inLine s gs) (·.2 <:+ gs) := by
  induction gs generalizing inLine s with
  | nil => exact gives_error none
  | cons g rest ih =>
    have hon (inLine : Bool) (s : BlockState) :
        Gives (readBlock f inLine s rest) (·.2 <:+ g :: rest) :=
      (ih inLine s).of_suffix (List.suffix_cons g rest)
    rw [readBlock]
    split
    · split
      · exact gives_ok List.suffix_rfl
      · split <;> exact hon _ _
    · split
      · exact hon _ _
      · split
        · exact gives_failAt _ _ _
        · split
          · exact hon _ _
          · split
            · exact hon _ _
            · exact gives_ok List.suffix_rfl

/-- Read a block scalar behind its indicator, inside a block with the given column. -/
def readBlockScalar (isLiteral : Bool) (column : Int) (start : Mark) (gs : List Glyph) :
    Lex (String × List Glyph) := do
  let (header, rest) ← readHeader start gs
  let given := header.increment.map fun n => (max column 0).toNat + n
  let blanks ← readBlanks start (given.getD 0) [] 0 rest
  let indentation := given.getD (max (max blanks.deepest (column + 1).toNat) 1)
  readBlock ⟨isLiteral, header.chomping, indentation, start⟩ false { breaks := blanks.breaks }
    blanks.rest

theorem gives_readBlockScalar (isLiteral : Bool) (column : Int) (start : Mark) (gs : List Glyph) :
    Gives (readBlockScalar isLiteral column start gs) (·.2 <:+ gs) := by
  refine (gives_readHeader _ _).bind fun header hheader => ?_
  refine (gives_readBlanks _ _ _ _ _).bind fun blanks hblanks => ?_
  exact (gives_readBlock _ _ _ _).of_suffix (hblanks.trans hheader)

end OpcodeTable.Yaml
