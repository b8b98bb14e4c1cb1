import OpcodeTable.Output.Listing
import OpcodeTable.Output.Render
import OpcodeTable.Proofs.Definition.Parse
import OpcodeTable.Proofs.Text.Terminators

/-!
# Definitions and line terminators

Reading depends on a text only through the contents of its lines. So it does not matter which
terminators a file has, nor whether they are mixed, nor whether the last one is missing.
-/

namespace OpcodeTable.Definition

open Text

variable {mode : Mode} {text text' : String}

theorem parse_eq_of_lines (h : lines text = lines text') : parse mode text = parse mode text' := by
  rw [parse_eq, parse_eq, h]

/-- The texts are the same definition, with the same module and the same listing, or they have the
same report. -/
structure SameReading (mode : Mode) (text text' : String) : Prop where
  parse : parse mode text = Definition.parse mode text'
  outputs : ∀ d d', Definition.parse mode text = .ok d → Definition.parse mode text' = .ok d' →
    (∀ s, d.render s = d'.render s) ∧ ∀ path, d.listing? path = d'.listing? path

theorem sameReading_of_lines (h : lines text = lines text') : SameReading mode text text' := by
  have hparse : parse mode text = parse mode text' := parse_eq_of_lines h
  refine ⟨hparse, fun d d' hd hd' => ?_⟩
  obtain rfl : d = d' := Except.ok.inj (hd.symm.trans (hparse.trans hd'))
  exact ⟨fun _ => rfl, fun _ => rfl⟩

/-- What reading a written text makes of its terminators. -/
structure ReadsContents (mode : Mode) (s : Spelling) : Prop where
  /-- Contents that do not end in a carriage return can be written with any terminators. -/
  same : (∀ l ∈ s.contents, ¬['\r'] <:+ l.toList) → ∀ t : Spelling, t.contents = s.contents →
    SameReading mode s.text t.text
  /-- One carriage return is taken away with each line feed, and no more. -/
  oneReturn : ∃ ls, List.Forall₂ Spelling.ReadAs s.ended ls ∧ lines s.text = ls ++ s.unended
  /-- Any contents are given back when a carriage return stands in front of each line feed. -/
  crlf : (∀ line ∈ s.ended, line.2 = .crlf) → lines s.text = s.contents

/-- Terminators do not matter: a text is read through the contents of its lines. -/
theorem parse_readsContents (mode : Mode) (s : Spelling)
    (hlf : ∀ l ∈ s.contents, '\n' ∉ l.toList) : ReadsContents mode s := by
  refine ⟨fun hreturn t ht => ?_, s.lines_text hlf, fun hcrlf => ?_⟩
  · have given {u : Spelling} (hu : u.contents = s.contents) : lines u.text = s.contents := by
      rw [← hu] at hlf hreturn ⊢
      refine Spelling.lines_text_eq_contents hlf fun line hline => .inr (hreturn _ ?_)
      exact List.mem_append_left _ (List.mem_map_of_mem hline)
    exact sameReading_of_lines ((given rfl).trans (given ht).symm)
  · exact Spelling.lines_text_eq_contents hlf fun line hline => .inl (hcrlf line hline)

/-- A carriage return inside a line, an empty line, and a last line with and without terminator. -/
theorem parse_readsContents_mixed :
    ReadsContents .strict ⟨[("A a", .crlf), ("", .lf)], "B\rb"⟩ ∧
      parse .strict "A a\r\n\nB\rb" = parse .strict "A a\n\r\nB\rb\r\n" ∧
      lines "A a\r\r\nB b\r\r\r\n" = ["A a\r", "B b\r\r"] := by
  have h : ReadsContents .strict ⟨[("A a", .crlf), ("", .lf)], "B\rb"⟩ :=
    parse_readsContents _ _ (by decide)
  have hcrlf : ReadsContents .strict ⟨[("A a\r", .crlf), ("B b\r\r", .crlf)], ""⟩ :=
    parse_readsContents _ _ (by decide)
  refine ⟨h, ?_, ?_⟩
  · exact (h.same (by decide) ⟨[("A a", .lf), ("", .crlf), ("B\rb", .crlf)], ""⟩ (by decide)).parse
  · exact hcrlf.crlf (by decide)

end OpcodeTable.Definition
