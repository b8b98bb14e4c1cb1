import OpcodeTable.Proofs.Definition.Parse
import OpcodeTable.Proofs.Source.Removal

/-!
# Removing reported lines

The report of a failed parse names exactly the lines that are in the way. Whichever of them are
removed from the text, the others are reported as before, and when all are gone the text is a
definition of the lines that were never reported.
-/

namespace OpcodeTable.Definition

open Source

variable {mode : Mode} {text : String} {d : Definition} {rs : List Rejection} {S : Finset Nat}

/-- `Independent mode text rs S` says that removing the lines `S` from the text, whose report is
`rs`, takes them out of the report and changes nothing else in it. -/
structure Independent (mode : Mode) (text : String) (rs : List Rejection) (S : Finset Nat) :
    Prop where
  /-- A text is its lines with their terminators, and those that are not removed stay. -/
  pieces : (Text.endedLines text.toList).flatten = text.toList
  lines : Text.lines (Text.removeLines S text) = Text.keep (· ∉ S) (Text.lines text)
  parses_iff : (∃ d, parse mode (Text.removeLines S text) = .ok d) ↔ S = reported rs
  /-- What is left of the report, with indices counted in the lines that are left. -/
  report : S ≠ reported rs → parse mode (Text.removeLines S text) =
    .error ((rs.filter (·.index ∉ S)).map (Rejection.renumber (· ∉ S)))
  /-- Without all reported lines the text is the definition of the other lines in their order, with
  consecutive opcodes. -/
  definition : S = reported rs → ∀ d, parse mode (Text.removeLines S text) = .ok d →
    d.records.toList.map (fun r => (r.index, Except.ok r.line)) =
        classified mode (Text.keep (· ∉ reported rs) (Text.lines text)) ∧
      d.instructions.map (·.opcode) = List.range d.count

/-- No reported line is the first one with an identifier. -/
theorem keepsDefinitions_of_subset (h : parse mode text = .error rs) (hS : S ⊆ reported rs) :
    KeepsDefinitions mode (Text.lines text) (· ∉ S) := by
  obtain ⟨-, rfl⟩ := parse_eq_error_iff.mp h
  exact fun ident i hi hmem => hi.notMem_rejected (List.mem_toFinset.mp (hS hmem))

theorem rejected_removeLines (h : parse mode text = .error rs) (hS : S ⊆ reported rs) :
    rejected mode (Text.lines (Text.removeLines S text)) =
      (rs.filter (·.index ∉ S)).map (Rejection.renumber (· ∉ S)) := by
  rw [Text.lines_removeLines, rejected_keep (keepsDefinitions_of_subset h hS),
    ← (parse_eq_error_iff.mp h).2]

/-- Nothing is left of a report exactly when all its lines are removed. -/
theorem filter_notMem_eq_nil_iff (hS : S ⊆ reported rs) :
    rs.filter (·.index ∉ S) = [] ↔ S = reported rs := by
  rw [List.filter_eq_nil_iff, Finset.Subset.antisymm_iff, and_iff_right hS, Finset.subset_iff]
  simp [reported]

/-- Of the lines that a failed parse reports, any number can be removed without changing what is
reported about the others. -/
theorem parse_removeLines (mode : Mode) (text : String) (rs : List Rejection) (S : Finset Nat)
    (h : parse mode text = .error rs) (hS : S ⊆ reported rs) : Independent mode text rs S := by
  have hrejected := rejected_removeLines h hS
  have hnil := filter_notMem_eq_nil_iff hS
  refine ⟨Text.flatten_endedLines _, Text.lines_removeLines S text, ?_, fun hne => ?_, ?_⟩
  · rw [exists_parse_iff, hrejected, List.map_eq_nil_iff, hnil]
  · refine parse_eq_error_iff.mpr ⟨?_, hrejected.symm⟩
    rwa [Ne, List.map_eq_nil_iff, hnil]
  · rintro rfl d hd
    refine ⟨?_, (wellFormed_of_parse hd).opcodes⟩
    rw [records_of_parse hd, Text.lines_removeLines]

/-- A line without a name is removed, and two repetitions behind it stay reported. -/
theorem parse_removeLines_missingName :
    parse .strict "A a\nB\nA b\n\nA c" =
        .error [⟨1, .missingName "B"⟩, ⟨2, .redefined "A" 0⟩, ⟨4, .redefined "A" 0⟩] ∧
      Text.removeLines {1} "A a\nB\nA b\n\nA c" = "A a\nA b\n\nA c" ∧
      parse .strict "A a\nA b\n\nA c" =
        .error [⟨1, .redefined "A" 0⟩, ⟨3, .redefined "A" 0⟩] := by
  have h : parse .strict "A a\nB\nA b\n\nA c" =
      .error [⟨1, .missingName "B"⟩, ⟨2, .redefined "A" 0⟩, ⟨4, .redefined "A" 0⟩] :=
    parse_eq_error_iff.mpr ⟨by simp, by decide⟩
  have hremove : Text.removeLines {1} "A a\nB\nA b\n\nA c" = "A a\nA b\n\nA c" := by decide
  have hreport := (parse_removeLines _ _ _ {1} h (by decide)).report (by decide)
  rw [hremove] at hreport
  exact ⟨h, hremove, hreport⟩

end OpcodeTable.Definition
