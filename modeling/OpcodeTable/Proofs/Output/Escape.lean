import OpcodeTable.Proofs.Output.Literal

/-!
# Escaping

Escaping a text escapes each of its characters once, so it takes texts apart and together as they
are, and different texts stay different. The reader of a string literal goes through an escaped text
character by character, meets nothing that it cannot read, and stops at the quote behind it.
-/

namespace OpcodeTable

open Fragment

namespace Literal

/-- `Reads cs value rest` says that the reader of a literal, inside of it at `cs`, has gone on to
`rest` and has read `value` in between. It never goes over a closing quote. -/
inductive Reads : List Char → List Char → List Char → Prop where
  | refl (cs : List Char) : Reads cs [] cs
  | char {c : Char} {cs value rest : List Char} (hquote : c ≠ '"') (hreturn : c ≠ '\r')
      (hbackslash : c ≠ '\\') (h : Reads cs value rest) : Reads (c :: cs) (c :: value) rest
  | escape {cs denoted next value rest : List Char} (hescape : escape? cs = some (denoted, next))
      (h : Reads next value rest) : Reads ('\\' :: cs) (denoted ++ value) rest

/-- Where the reader of a literal cannot go on: at a carriage return, at a backslash that starts no
known escape, and at the end of the text. -/
inductive Faulty : List Char → Prop where
  | rawReturn (cs : List Char) : Faulty ('\r' :: cs)
  | unknownEscape {cs : List Char} (h : escape? cs = none) : Faulty ('\\' :: cs)
  | unfinished : Faulty []

variable {cs value rest : List Char}

theorem inside?_char {c : Char} (hquote : c ≠ '"') (hreturn : c ≠ '\r') (hbackslash : c ≠ '\\') :
    inside? (c :: cs) = (inside? cs).map fun r => (c :: r.1, r.2) := by
  rw [inside?, if_neg hquote, if_neg hreturn, if_neg hbackslash]

/-- What the reader has read is in front of the value of the rest. -/
theorem Reads.inside?_eq (h : Reads cs value rest) :
    inside? cs = (inside? rest).map fun r => (value ++ r.1, r.2) := by
  induction h with
  | refl cs => simp
  | char hquote hreturn hbackslash _ ih =>
    rw [inside?_char hquote hreturn hbackslash, ih, Option.map_map]
    rfl
  | escape hescape _ ih =>
    rw [inside?_backslash, hescape, Option.bind_some, ih, Option.map_map]
    simp [Function.comp_def]

theorem Faulty.inside?_eq_none (h : Faulty cs) : inside? cs = none := by
  cases h with
  | rawReturn cs => simp [inside?]
  | unknownEscape h => rw [inside?_backslash, h, Option.bind_none]
  | unfinished => rw [inside?]

/-- A literal that is read to its end has no fault on the way. -/
theorem Reads.not_faulty (h : Reads cs value rest) (hread : inside? cs ≠ none) :
    ¬Faulty rest := by
  intro hfaulty
  rw [h.inside?_eq, hfaulty.inside?_eq_none] at hread
  exact hread rfl

/-! ## Escaped texts -/

/-- The reader reads an escaped character in one step. -/
theorem reads_escapeChar (c : Char) (h : Reads cs value rest) :
    Reads (escapeChar c ++ cs) (c :: value) rest := by
  unfold escapeChar
  split_ifs with hbackslash hquote hreturn
  · subst hbackslash
    have hescape : escape? ('\\' :: cs) = some (['\\'], cs) := rfl
    exact .escape hescape h
  · subst hquote
    have hescape : escape? ('"' :: cs) = some (['"'], cs) := rfl
    exact .escape hescape h
  · subst hreturn
    have hescape : escape? ('r' :: cs) = some (['\r'], cs) := rfl
    exact .escape hescape h
  · exact .char hquote hreturn hbackslash h

theorem reads_flatMap_escapeChar (cs rest : List Char) :
    Reads (cs.flatMap escapeChar ++ rest) cs rest := by
  induction cs with
  | nil => exact .refl rest
  | cons c cs ih =>
    rw [List.flatMap_cons, List.append_assoc]
    exact reads_escapeChar c ih

theorem escape_eq (s : String) : escape s = String.ofList (s.toList.flatMap escapeChar) := by
  rw [← toList_escape, String.ofList_toList]

theorem escape_append (s t : String) : escape (s ++ t) = escape s ++ escape t := by
  simp [escape_eq]

theorem escape_injective : Function.Injective escape := by
  intro s t h
  have hs := scan?_escape s []
  rw [h, scan?_escape] at hs
  simpa [String.toList_inj, eq_comm] using hs

/-- `Encodes s` says that the escaped text is the inside of a string literal that denotes `s`. -/
structure Encodes (s : String) : Prop where
  /-- Three characters have an escape of their own, and all others stand for themselves. -/
  once : escape s = String.ofList (s.toList.flatMap fun
    | '\\' => ['\\', '\\']
    | '"' => ['\\', '"']
    | '\r' => ['\\', 'r']
    | c => [c])
  append : ∀ t, escape (s ++ t) = escape s ++ escape t
  /-- The literal ends at the quote behind the escaped text, whatever follows. -/
  scanned : ∀ rest, scan? ('"' :: ((escape s).toList ++ '"' :: rest)) = some (s.toList, rest)
  reads : ∀ rest, Reads ((escape s).toList ++ '"' :: rest) s.toList ('"' :: rest)
  not_faulty : ∀ rest value next, Reads ((escape s).toList ++ '"' :: rest) value next → ¬Faulty next
  injective : ∀ t, escape t = escape s → t = s

/-- Escaping encodes every text. -/
theorem escape_encodes (s : String) : Encodes s := by
  refine ⟨?_, escape_append s, scan?_escape s, fun rest => ?_, ?_, fun t => @escape_injective t s⟩
  · rw [escape_eq]
    congr 2
    funext c
    split
    · rfl
    · rfl
    · rfl
    · next hbackslash hquote hreturn =>
      rw [escapeChar, if_neg hbackslash, if_neg hquote, if_neg hreturn]
  · rw [toList_escape]
    exact reads_flatMap_escapeChar s.toList _
  · intro rest value next hreads
    refine hreads.not_faulty ?_
    simp [toList_escape, inside?_flatMap_escapeChar]

end Literal

end OpcodeTable
