import OpcodeTable.Proofs.Text.Lines

/-!
# Line terminators

A text is written by putting a terminator behind the contents of each line: a line feed, or a
carriage return and a line feed. What follows the last terminator is one more line, unless it is
empty. Reading takes one carriage return in front of a line feed for a part of the terminator, so
it gives back all contents that do not end in one, and all that have one put behind them.
-/

namespace OpcodeTable.Text

inductive Terminator where
  | lf
  | crlf
  deriving DecidableEq, Repr

def Terminator.text : Terminator → String
  | lf => "\n"
  | crlf => "\r\n"

/-- A way to write a text: its lines with their terminators, and what follows the last of them. -/
structure Spelling where
  ended : List (String × Terminator)
  rest : String

namespace Spelling

variable {s : Spelling} {line : String × Terminator} {raw : String}

/-- The text that is written. -/
def text (s : Spelling) : String :=
  String.join (s.ended.map fun line => line.1 ++ line.2.text) ++ s.rest

/-- The last line, if it has no terminator. -/
def unended (s : Spelling) : List String :=
  [s.rest].filter (· ≠ "")

/-- The contents of the lines. -/
def contents (s : Spelling) : List String :=
  s.ended.map (·.1) ++ s.unended

/-- `ReadAs line raw` says that a line with its terminator is read as `raw`: exactly one carriage
return is taken away with the line feed. -/
inductive ReadAs : String × Terminator → String → Prop where
  | crlf (raw : String) : ReadAs (raw, .crlf) raw
  | lf {raw : String} (h : ¬['\r'] <:+ raw.toList) : ReadAs (raw, .lf) raw
  | lfReturn (raw : String) : ReadAs (raw ++ "\r", .lf) raw

/-- Only a carriage return at the end, in front of a bare line feed, is lost. -/
theorem ReadAs.eq_contents (h : ReadAs line raw)
    (hline : line.2 = .crlf ∨ ¬['\r'] <:+ line.1.toList) : raw = line.1 := by
  cases h with
  | crlf => rfl
  | lf => rfl
  | lfReturn => simp at hline

/-- A line in front of other text. -/
theorem exists_readAs (hlf : '\n' ∉ line.1.toList) (rest : List Char) :
    ∃ raw, ReadAs line raw ∧
      linesOf (line.1.toList ++ line.2.text.toList ++ rest) = raw.toList :: linesOf rest := by
  obtain ⟨l, t⟩ := line
  cases t with
  | crlf =>
    have hreturn : '\n' ∉ l.toList ++ ['\r'] := by simpa using hlf
    have hlines := linesOf_append_lf hreturn rest
    rw [dropFinalReturn_append] at hlines
    exact ⟨l, .crlf l, by simpa [Terminator.text] using hlines⟩
  | lf =>
    have hlines := linesOf_append_lf hlf rest
    by_cases hreturn : ['\r'] <:+ l.toList
    · obtain ⟨m, hm⟩ := hreturn
      have hl : l = String.ofList m ++ "\r" := by
        rw [← String.toList_inj, String.toList_append, String.toList_ofList, ← hm]
        rfl
      subst hl
      refine ⟨String.ofList m, .lfReturn _, ?_⟩
      simpa [Terminator.text] using hlines
    · have hlast : l.toList.getLast? ≠ some '\r' := by
        intro hlast
        obtain ⟨m, hm⟩ := List.getLast?_eq_some_iff.mp hlast
        exact hreturn ⟨m, hm.symm⟩
      rw [dropFinalReturn_of_ne hlast] at hlines
      exact ⟨l, .lf hreturn, by simpa [Terminator.text] using hlines⟩

theorem lines_rest (hlf : ∀ l ∈ s.unended, '\n' ∉ l.toList) : lines s.rest = s.unended := by
  unfold unended at hlf ⊢
  by_cases hne : s.rest = ""
  · simp [hne, lines]
  · have hrest : '\n' ∉ s.rest.toList := hlf _ (by simp [hne])
    have hlines : linesOf s.rest.toList = [s.rest.toList] :=
      linesOf_of_notMem (by simpa using hne) hrest
    simp [lines, hlines, hne]

/-- The lines of a written text, each read as its terminator lets it. -/
theorem lines_text (s : Spelling) (hlf : ∀ l ∈ s.contents, '\n' ∉ l.toList) :
    ∃ ls, List.Forall₂ ReadAs s.ended ls ∧ lines s.text = ls ++ s.unended := by
  obtain ⟨ended, rest⟩ := s
  induction ended with
  | nil =>
    refine ⟨[], .nil, ?_⟩
    have hlines := lines_rest (s := ⟨[], rest⟩) fun l hl => hlf l (by simpa [contents] using hl)
    simpa [text, unended] using hlines
  | cons line ended ih =>
    obtain ⟨ls, hls, hlines⟩ := ih fun l hl => hlf l (List.mem_cons_of_mem _ hl)
    have hline : '\n' ∉ line.1.toList := hlf _ List.mem_cons_self
    obtain ⟨raw, hraw, hfirst⟩ := exists_readAs hline (text ⟨ended, rest⟩).toList
    refine ⟨raw :: ls, .cons hraw hls, ?_⟩
    have htext : (text ⟨line :: ended, rest⟩).toList =
        line.1.toList ++ line.2.text.toList ++ (text ⟨ended, rest⟩).toList := by
      simp [text]
    rw [lines, htext, hfirst, List.map_cons, String.ofList_toList, ← lines, hlines]
    rfl

theorem eq_map_of_readAs {ended : List (String × Terminator)} {ls : List String}
    (h : List.Forall₂ ReadAs ended ls)
    (hended : ∀ line ∈ ended, line.2 = .crlf ∨ ¬['\r'] <:+ line.1.toList) :
    ls = ended.map (·.1) := by
  induction h with
  | nil => rfl
  | cons hraw _ ih =>
    obtain ⟨hline, hended⟩ := List.forall_mem_cons.mp hended
    rw [hraw.eq_contents hline, ih hended, List.map_cons]

/-- The contents are given back unless some of them end in a carriage return in front of a bare line
feed. -/
theorem lines_text_eq_contents (hlf : ∀ l ∈ s.contents, '\n' ∉ l.toList)
    (hended : ∀ line ∈ s.ended, line.2 = .crlf ∨ ¬['\r'] <:+ line.1.toList) :
    lines s.text = s.contents := by
  obtain ⟨ls, hls, hlines⟩ := s.lines_text hlf
  rw [hlines, eq_map_of_readAs hls hended, contents]

end Spelling

end OpcodeTable.Text
