import OpcodeTable.Proofs.Definition.Parse
import OpcodeTable.Proofs.Line.Grammar
import OpcodeTable.Proofs.Text.Terminators

/-!
# How many instructions a text defines

Every statement of a text that can be read is one instruction, and nothing else counts. There are
texts with any number of them.
-/

namespace OpcodeTable.Definition

open Text

variable {mode : Mode} {text : String} {d : Definition}

/-- Comments and empty lines do not count. -/
theorem length_instructions_of_parse (h : parse mode text = .ok d) :
    d.instructions.length = (lines text).countP Line.isStatement := by
  have hidents := congrArg List.length (map_ident_of_parse h)
  rw [List.length_map, Source.idents, List.length_filterMap_eq_countP] at hidents
  rw [hidents]
  refine List.countP_congr fun raw hraw => ?_
  obtain ⟨k, hk⟩ := List.getElem?_of_mem hraw
  obtain ⟨line, hline, -⟩ := record_of_parse h hk
  constructor
  · intro hident
    obtain ⟨ident, hident⟩ := Option.isSome_iff_exists.mp hident
    exact Line.isStatement_of_ident? hident
  · intro hstatement
    obtain ⟨inst, rfl⟩ := Line.exists_instruction_of_classify hstatement hline
    simp [Line.ident?_of_ok hline]

/-! ## Texts of any size -/

/-- A line that is an instruction in both modes. -/
def sampleLine (k : Nat) : String :=
  String.ofList (List.replicate (k + 1) 'A' ++ [' ', 'x'])

theorem hasFields_sampleLine (mode : Mode) (k : Nat) :
    mode.HasFields (sampleLine k).toList (List.replicate (k + 1) 'A') ['x'] := by
  have hident : mode.IsToken (List.replicate (k + 1) 'A') := by
    refine ⟨by simp, fun c hc => ?_⟩
    obtain rfl := List.eq_of_mem_replicate hc
    cases mode <;> rfl
  have hname : mode.IsToken ['x'] := by
    refine ⟨by simp, fun c hc => ?_⟩
    obtain rfl := List.mem_singleton.mp hc
    cases mode <;> rfl
  rw [sampleLine, String.toList_ofList]
  exact Mode.hasFields_append_space hident hname

theorem isStatement_sampleLine (k : Nat) : Line.isStatement (sampleLine k) = true := by
  simp [Line.isStatement_iff, sampleLine, List.replicate_succ, Line.commentMarker]

theorem classify_sampleLine (mode : Mode) (k opcode : Nat) :
    Line.classify mode opcode (sampleLine k) =
      .ok (.instruction ⟨String.ofList (List.replicate (k + 1) 'A'), "x", opcode⟩) := by
  rw [Line.classify_eq_instruction_iff (isStatement_sampleLine k)]
  exact ⟨rfl, by simpa using hasFields_sampleLine mode k⟩

/-- A text of some such lines, with different identifiers. -/
def sample (n : Nat) : Spelling :=
  ⟨(List.range n).map fun k => (sampleLine k, .lf), ""⟩

theorem lines_sample (n : Nat) : lines (sample n).text = (List.range n).map sampleLine := by
  have hcontents : (sample n).contents = (List.range n).map sampleLine := by
    simp [sample, Spelling.contents, Spelling.unended]
  rw [← hcontents]
  refine Spelling.lines_text_eq_contents ?_ ?_
  · rw [hcontents]
    simp [sampleLine]
  · intro line hline
    obtain ⟨k, -, rfl⟩ := List.mem_map.mp hline
    refine .inr fun hreturn => ?_
    have hmem := hreturn.subset (List.mem_singleton_self '\r')
    simp [sampleLine] at hmem

theorem idents_sampleLines (mode : Mode) (n : Nat) :
    Source.idents mode ((List.range n).map sampleLine) =
      (List.range n).map fun k => String.ofList (List.replicate (k + 1) 'A') := by
  rw [Source.idents, List.filterMap_map, ← List.filterMap_eq_map]
  exact List.filterMap_congr fun k _ => Line.ident?_of_ok (classify_sampleLine mode k 0)

theorem rejected_sampleLines (mode : Mode) (n : Nat) :
    Source.rejected mode ((List.range n).map sampleLine) = [] := by
  refine Source.rejected_eq_nil_iff.mpr ⟨fun c hc => ?_, ?_⟩
  · obtain ⟨i, hi, rfl⟩ := List.mem_mapIdx.mp hc
    rw [List.getElem_map]
    exact ⟨_, classify_sampleLine mode _ _⟩
  · rw [idents_sampleLines]
    -- the identifiers differ in their lengths
    refine List.nodup_range.map fun k l hkl => ?_
    have hlength := congrArg String.length hkl
    simpa using hlength

/-- Every number of instructions occurs. -/
theorem exists_length_instructions_eq (mode : Mode) (n : Nat) :
    ∃ text d, parse mode text = .ok d ∧ d.instructions.length = n := by
  obtain ⟨d, hd⟩ := exists_parse_iff.mpr (lines_sample n ▸ rejected_sampleLines mode n)
  refine ⟨_, d, hd, ?_⟩
  have hall : ∀ raw ∈ (List.range n).map sampleLine, Line.isStatement raw = true := by
    simp [isStatement_sampleLine]
  rw [length_instructions_of_parse hd, lines_sample, List.countP_eq_length.mpr hall,
    List.length_map, List.length_range]

end OpcodeTable.Definition
