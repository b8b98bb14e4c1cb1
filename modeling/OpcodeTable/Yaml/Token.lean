import OpcodeTable.Yaml.Source

/-!
# Tokens

The indicators, scalars and properties that a document is made of. Block collections have tokens
for their start and end although only indentation shows them in the document.
-/

namespace OpcodeTable.Yaml

inductive TokenKind where
  | streamEnd
  | versionDirective (major minor : Nat)
  | tagDirective (handle uri : String)
  | documentStart
  | documentEnd
  | blockSequenceStart
  | blockMappingStart
  | blockEnd
  | flowSequenceStart
  | flowSequenceEnd
  | flowMappingStart
  | flowMappingEnd
  | blockEntry
  | flowEntry
  | key
  | value
  | aliasTo (name : String)
  | anchor (name : String)
  | tag (handle suffix : String)
  /-- A scalar, and whether it is written without quotes or a block indicator. -/
  | scalar (text : String) (isPlain : Bool)
  deriving DecidableEq, Repr

structure Token where
  kind : TokenKind
  start : Mark
  /-- Where reading goes on after the token. -/
  stop : Mark
  deriving DecidableEq, Repr

/-- A result of reading characters. A failure without a fault means that the readable characters
end here although the document does not. -/
abbrev Lex := Except (Option Fault)

/-- Fail with a problem at a position. -/
def failAt {α : Type} (problem : Problem) (mark : Mark) (context : Option (Activity × Mark)) :
    Lex α :=
  .error (some { problem, mark, context })

/-- Every result of a reading satisfies a condition. -/
def Gives {α : Type} (x : Lex α) (p : α → Prop) : Prop :=
  ∀ a, x = .ok a → p a

section Gives

variable {α β : Type} {x : Lex α} {f : α → Lex β} {p p' : α → Prop} {q : β → Prop} {a : α}

theorem gives_ok (h : p a) : Gives (.ok a) p := by
  intro b hb
  rwa [← Except.ok.inj hb]

theorem gives_error (fault : Option Fault) : Gives (.error fault) p := by
  intro b hb
  cases hb

theorem gives_failAt (problem : Problem) (mark : Mark) (context : Option (Activity × Mark)) :
    Gives (failAt problem mark context) p :=
  gives_error _

theorem gives_true (x : Lex α) : Gives x fun _ => True :=
  fun _ _ => trivial

theorem Gives.mono (hx : Gives x p) (h : ∀ a, p a → p' a) : Gives x p' :=
  fun a ha => h a (hx a ha)

theorem Gives.bind (hx : Gives x p) (hf : ∀ a, p a → Gives (f a) q) : Gives (x >>= f) q := by
  intro b hb
  cases h : x with
  | error fault =>
    rw [h] at hb
    cases hb
  | ok a =>
    rw [h] at hb
    exact hf a (hx a h) b hb

theorem gives_ite {c : Prop} [Decidable c] {y : Lex α} (hx : c → Gives x p)
    (hy : ¬c → Gives y p) : Gives (if c then x else y) p := by
  split
  · next h => exact hx h
  · next h => exact hy h

/-- A check in front of a reading has no say in what the reading gives. -/
theorem gives_when {c : Prop} [Decidable c] (x : Lex Unit) {f : Unit → Lex β}
    (h : Gives (f ()) q) : Gives (if c then x >>= f else f ()) q := by
  split
  · exact (gives_true x).bind fun _ _ => h
  · exact h

/-- What is left of a part is left of the whole. -/
theorem Gives.of_suffix {left : α → List Glyph} {gs gs' : List Glyph}
    (hx : Gives x (left · <:+ gs)) (h : gs <:+ gs') : Gives x (left · <:+ gs') :=
  hx.mono fun _ hleft => hleft.trans h

end Gives

/-- The position of the next character. -/
def position : List Glyph → Mark
  | [] => .origin
  | g :: _ => g.mark

/-- Whether the next character satisfies a condition. -/
def nextIs (p : Char → Bool) : List Glyph → Bool
  | [] => false
  | g :: _ => p g.char

/-- Make sure that a number of characters, or all up to the end, can be read. -/
def need (n : Nat) (gs : List Glyph) : Lex Unit :=
  let window := gs.take n
  if window.length = n || window.any (isEnd ·.char) then .ok () else .error none

/-- Read the longest run of characters that satisfy a condition, up to a character that does
not. -/
def spanWhile (p : Char → Bool) (gs : List Glyph) : Lex (String × List Glyph) :=
  match gs.dropWhile (p ·.char) with
  | [] => .error none
  | rest => .ok (String.ofList ((gs.takeWhile (p ·.char)).map (·.char)), rest)

theorem gives_spanWhile (p : Char → Bool) (gs : List Glyph) :
    Gives (spanWhile p gs) (·.2 <:+ gs) := by
  unfold spanWhile
  split
  · exact gives_error none
  · exact gives_ok (List.dropWhile_suffix _)

/-- Three hyphens or three dots at the start of a line, with nothing joined to them. -/
def startsDocument (c : Char) (gs : List Glyph) : Bool :=
  match gs with
  | a :: b :: d :: e :: _ =>
    a.mark.column == 0 && a.char == c && b.char == c && d.char == c && endsWord e.char
  | _ => false

/-- Whether a line starts here that begins or ends a document. -/
def atDocumentIndicator (gs : List Glyph) : Bool :=
  startsDocument '-' gs || startsDocument '.' gs

/-- The characters of names. -/
def isNameChar (c : Char) : Bool :=
  c.isAlphanum || c == '-' || c == '_'

/-- The value of a hexadecimal digit. -/
def hexDigit? (c : Char) : Option Nat :=
  if '0' ≤ c && c ≤ '9' then some (c.toNat - '0'.toNat)
  else if 'a' ≤ c && c ≤ 'f' then some (c.toNat - 'a'.toNat + 10)
  else if 'A' ≤ c && c ≤ 'F' then some (c.toNat - 'A'.toNat + 10)
  else none

/-- The number that hexadecimal digits denote. -/
def hexValue? (cs : List Char) : Option Nat :=
  cs.foldlM (fun n c => (hexDigit? c).map (n * 16 + ·)) 0

end OpcodeTable.Yaml
