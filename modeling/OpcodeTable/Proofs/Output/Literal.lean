import OpcodeTable.Proofs.Text.Split
import OpcodeTable.Output.Fragment

/-!
# String literals

`Literal.scan?` reads a string literal by the rules of the generated language. What `escape` writes
between quotes is read back as the text that was escaped, whatever follows the closing quote.
-/

namespace OpcodeTable.Literal

/-- The value of a hexadecimal digit. -/
def hexDigit? (c : Char) : Option Nat :=
  if '0' ≤ c ∧ c ≤ '9' then some (c.toNat - '0'.toNat)
  else if 'a' ≤ c ∧ c ≤ 'f' then some (c.toNat - 'a'.toNat + 10)
  else if 'A' ≤ c ∧ c ≤ 'F' then some (c.toNat - 'A'.toNat + 10)
  else none

/-- The character with the code point that hexadecimal digits spell, up to a largest one. -/
def codePoint? (largest : Nat) (digits : List Char) : Option Char := do
  let n := (← digits.mapM hexDigit?).foldl (fun n d => 16 * n + d) 0
  if n ≤ largest ∧ n.isValidChar then some (Char.ofNat n) else none

/-- Digits in braces: from one to six, with underscores between and behind them. -/
def braced? (cs : List Char) : Option (List Char × List Char) := do
  let inside := cs.takeWhile (· ≠ '\x7d')
  let digits := inside.filter (· ≠ '_')
  let _ :: rest := cs.dropWhile (· ≠ '\x7d') | none
  if inside.head? = some '_' ∨ digits = [] ∨ 6 < digits.length then none
  else return ([← codePoint? 0x10ffff digits], rest)

/-- The blanks that a line feed behind a backslash takes with it. -/
def isContinuation (c : Char) : Bool :=
  c = ' ' || c = '\n' || c = '\r' || c = '\t'

/-- The escapes of one character. -/
def shortEscapes : List (Char × Char) :=
  [('n', '\n'), ('r', '\r'), ('t', '\t'), ('0', '\x00'), ('\\', '\\'), ('"', '"'),
   ('\x27', '\x27')]

/-- What stands behind a backslash: the characters that the escape denotes, and the rest. -/
def escape? : List Char → Option (List Char × List Char)
  | 'x' :: a :: b :: rest => do return ([← codePoint? 0x7f [a, b]], rest)
  | 'u' :: '\x7b' :: rest => braced? rest
  | '\n' :: rest => some ([], rest.dropWhile isContinuation)
  | c :: rest => (shortEscapes.lookup c).map fun d => ([d], rest)
  | [] => none

theorem length_braced? {cs value rest : List Char} (h : braced? cs = some (value, rest)) :
    rest.length ≤ cs.length := by
  unfold braced? at h
  split at h
  · next c tail hdrop =>
    have hlength := (List.dropWhile_suffix (l := cs) (· ≠ '\x7d')).length_le
    rw [hdrop] at hlength
    dsimp only at h
    split at h
    · simp at h
    · simp only [Option.pure_def, Option.bind_eq_bind, Option.bind_eq_some_iff, Option.some.injEq,
        Prod.mk.injEq] at h
      obtain ⟨c, -, -, rfl⟩ := h
      simp at hlength
      omega
  · simp at h

theorem length_escape? {cs value rest : List Char} (h : escape? cs = some (value, rest)) :
    rest.length ≤ cs.length := by
  unfold escape? at h
  split at h
  · simp only [Option.pure_def, Option.bind_eq_bind, Option.bind_eq_some_iff, Option.some.injEq,
      Prod.mk.injEq] at h
    obtain ⟨c, -, -, rfl⟩ := h
    simp
    omega
  · have := length_braced? h
    simp
    omega
  · next tail =>
    have := (List.dropWhile_suffix (l := tail) isContinuation).length_le
    obtain ⟨-, rfl⟩ : [] = value ∧ tail.dropWhile isContinuation = rest := by simpa using h
    simp
    omega
  · obtain ⟨d, -, h⟩ := Option.map_eq_some_iff.mp h
    obtain ⟨-, rfl⟩ := Prod.mk.inj h
    simp
  · simp at h

/-- Read the inside of a string literal up to its closing quote: its value, and what follows the
quote. A carriage return must be escaped. -/
def inside? : List Char → Option (List Char × List Char)
  | [] => none
  | c :: cs =>
    if c = '"' then some ([], cs)
    else if c = '\r' then none
    else if c = '\\' then
      match h : escape? cs with
      | some (value, rest) =>
        have := length_escape? h
        (inside? rest).map fun r => (value ++ r.1, r.2)
      | none => none
    else (inside? cs).map fun r => (c :: r.1, r.2)
termination_by cs => cs.length

theorem inside?_backslash (cs : List Char) :
    inside? ('\\' :: cs) =
      (escape? cs).bind fun e => (inside? e.2).map fun r => (e.1 ++ r.1, r.2) := by
  rw [inside?]
  simp only [Char.reduceEq, if_false, if_true]
  split <;> simp [*]

/-- Read a string literal: its value, and what follows it. -/
def scan? : List Char → Option (List Char × List Char)
  | '"' :: cs => inside? cs
  | _ => none

/-- The escape of one character. -/
def escapeChar (c : Char) : List Char :=
  if c = '\\' then ['\\', '\\'] else if c = '"' then ['\\', '"']
  else if c = '\r' then ['\\', 'r'] else [c]

/-- The three substitutions in turn escape each character once. -/
theorem toList_escape (s : String) : (Fragment.escape s).toList = s.toList.flatMap escapeChar := by
  simp only [Fragment.escape, Fragment.substitute, String.toList_ofList, List.flatMap_assoc]
  refine List.flatMap_congr fun c _ => ?_
  by_cases hb : c = '\\'
  · simp [hb, escapeChar]
  · by_cases hq : c = '"' <;> simp [hb, hq, escapeChar]

theorem inside?_escapeChar (c : Char) (rest : List Char) :
    inside? (escapeChar c ++ rest) = (inside? rest).map fun r => (c :: r.1, r.2) := by
  by_cases hb : c = '\\'
  · subst hb
    simp [escapeChar, inside?_backslash, escape?, shortEscapes, List.lookup]
  · by_cases hq : c = '"'
    · subst hq
      simp [escapeChar, inside?_backslash, escape?, shortEscapes, List.lookup]
    · by_cases hr : c = '\r'
      · subst hr
        simp [escapeChar, inside?_backslash, escape?, shortEscapes, List.lookup]
      · simp [escapeChar, inside?, hb, hq, hr]

theorem inside?_flatMap_escapeChar (cs rest : List Char) :
    inside? (cs.flatMap escapeChar ++ '"' :: rest) = some (cs, rest) := by
  induction cs with
  | nil => simp [inside?]
  | cons c cs ih => rw [List.flatMap_cons, List.append_assoc, inside?_escapeChar, ih]; rfl

/-- An escaped text between quotes is a literal that ends at the closing quote and denotes the
text. -/
theorem scan?_escape (s : String) (rest : List Char) :
    scan? ('"' :: ((Fragment.escape s).toList ++ '"' :: rest)) = some (s.toList, rest) := by
  rw [scan?, toList_escape, inside?_flatMap_escapeChar]

end OpcodeTable.Literal
