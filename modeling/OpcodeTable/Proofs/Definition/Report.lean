import OpcodeTable.Proofs.Definition.Parse

/-!
# The report of a failed parse

The report names every line that has to be changed and no other, once each and in order. A repeated
identifier is blamed on every line behind the first one that has it, always with that first line,
whatever is wrong with the lines in between.
-/

namespace OpcodeTable.Definition

open Source

/-- `ExactReport mode text rs` says that `rs` is what is wrong with the text. -/
structure ExactReport (mode : Mode) (text : String) (rs : List Rejection) : Prop where
  ne_nil : rs ≠ []
  /-- At most one rejection for each line, in the order of the lines. -/
  increasing : (rs.map (·.index)).Pairwise (· < ·)
  /-- A line is rejected with the fault that the classifier finds, or because an earlier
  instruction line has its identifier; the first such line is then named. -/
  mem_iff : ∀ i fault, ⟨i, fault⟩ ∈ rs ↔
    (i, .error fault) ∈ classified mode (Text.lines text) ∨
      ∃ ident first, fault = .redefined ident first ∧
        identAt? mode (Text.lines text) i = some ident ∧
        Defines mode (Text.lines text) ident first ∧ first < i
  /-- The line that a repetition points to comes before it and is not rejected itself. -/
  first_accepted : ∀ i ident first, ⟨i, .redefined ident first⟩ ∈ rs →
    first < i ∧ first ∉ rs.map (·.index)
  /-- Wherever reading has come to, the line of an identifier that is taken is found. -/
  first_found : ∀ before, before <+: Text.lines text → ∀ inst : Instruction,
    inst.opcode = (Progress.after mode before).definition.count →
    ¬(Progress.after mode before).definition.map.Fresh inst.ident inst.opcode →
    ∃ first < before.length,
      ((Progress.after mode before).definition.opcode? inst.ident).bind
        (Progress.after mode before).definition.lineOf? = some first
  /-- Other lines that define nothing, rejected or not, do not matter. -/
  unaffected : ∀ other,
    (∀ j, (Text.lines text)[j]? = (Text.lines other)[j]? ∨ ∀ ident,
      ¬Defines mode (Text.lines text) ident j ∧ ¬Defines mode (Text.lines other) ident j) →
    ∀ i, (Text.lines text)[i]? = (Text.lines other)[i]? →
      ∀ fault, ⟨i, fault⟩ ∈ rs ↔ ⟨i, fault⟩ ∈ reports mode other

/-- An identifier that is taken is found on an earlier line, in every state of reading. -/
theorem Progress.exists_lineOf? (mode : Mode) (ls : List String) {inst : Instruction}
    (hk : inst.opcode = (after mode ls).definition.count)
    (htaken : ¬(after mode ls).definition.map.Fresh inst.ident inst.opcode) :
    ∃ first < ls.length, ((after mode ls).definition.opcode? inst.ident).bind
      (after mode ls).definition.lineOf? = some first := by
  have h := describes_after mode ls
  rw [hk, h.count, h.fresh_iff, not_not] at htaken
  obtain ⟨first, hd⟩ := exists_defines htaken
  exact ⟨first, hd.lt_length, by rw [h.bind_lineOf?, first?_eq_some_iff.mpr hd]⟩

/-- The report of a failed parse is exact. -/
theorem parse_error_report (mode : Mode) (text : String) (rs : List Rejection)
    (h : parse mode text = .error rs) : ExactReport mode text rs := by
  obtain ⟨hne, rfl⟩ := parse_eq_error_iff.mp h
  refine ⟨hne, pairwise_rejected mode _, fun i fault => mem_rejected_iff, ?_, ?_, ?_⟩
  · intro i ident first hr
    rcases mem_rejected_iff.mp hr with hc | ⟨ident', first', heq, -, hd, hlt⟩
    · obtain ⟨raw, -, hc⟩ := mem_classified_error_iff.mp hc
      exact absurd hc Line.classify_ne_redefined
    · obtain ⟨rfl, rfl⟩ : ident = ident' ∧ first = first' := by simpa using heq
      exact ⟨hlt, hd.notMem_rejected⟩
  · intro before _ inst hk htaken
    exact Progress.exists_lineOf? mode before hk htaken
  · intro other hagree i hi fault
    rw [reports_eq]
    exact mem_rejected_congr hagree hi

/-- A line without a name and two repetitions: both point to the first line. -/
theorem parse_error_report_repeated :
    parse .strict "A a\nB\nA b\n\nA c" =
        .error [⟨1, .missingName "B"⟩, ⟨2, .redefined "A" 0⟩, ⟨4, .redefined "A" 0⟩] ∧
      ExactReport .strict "A a\nB\nA b\n\nA c"
        [⟨1, .missingName "B"⟩, ⟨2, .redefined "A" 0⟩, ⟨4, .redefined "A" 0⟩] := by
  have h : parse .strict "A a\nB\nA b\n\nA c" =
      .error [⟨1, .missingName "B"⟩, ⟨2, .redefined "A" 0⟩, ⟨4, .redefined "A" 0⟩] :=
    parse_eq_error_iff.mpr ⟨by simp, by decide⟩
  exact ⟨h, parse_error_report _ _ _ h⟩

end OpcodeTable.Definition
