import OpcodeTable.Proofs.Output.Readback
import OpcodeTable.Proofs.Source.Statements

/-!
# Texts with the same statements

Comments and empty lines have no influence on the instruction set. Two texts that differ only in
them are both definitions or both not, give the same opcodes to the same instructions, and generate
modules with the same constants and the same text from the count on.
-/

namespace OpcodeTable

open Text

namespace Definition

variable {mode : Mode} {text text' : String} {d d' : Definition} {s : Settings} {out : String}

/-! ## The instruction set -/

/-- The definitions cannot be told apart by their instructions. -/
structure SameInstructions (d d' : Definition) : Prop where
  instructions : d.instructions = d'.instructions
  count : d.count = d'.count
  maxlen : d.maxlen = d'.maxlen
  opcode? : ∀ ident, d.opcode? ident = d'.opcode? ident
  ident? : ∀ opcode, d.ident? opcode = d'.ident? opcode

theorem sameInstructions_of_parse
    (h : (lines text).filter Line.isStatement = (lines text').filter Line.isStatement)
    (hd : parse mode text = .ok d) (hd' : parse mode text' = .ok d') : SameInstructions d d' := by
  have hinstructions : d.instructions = d'.instructions := by
    rw [instructions_of_parse hd, instructions_of_parse hd', ← Source.instructions_statements, h,
      Source.instructions_statements]
  have hidents : Source.idents mode (lines text) = Source.idents mode (lines text') := by
    rw [← Source.idents_statements, h, Source.idents_statements]
  have hopcode (ident : String) : d.opcode? ident = d'.opcode? ident := by
    ext k
    rw [opcode?_of_parse hd, opcode?_of_parse hd', hinstructions]
  refine ⟨hinstructions, ?_, ?_, hopcode, fun opcode => ?_⟩
  · rw [count_of_parse hd, count_of_parse hd', hidents]
  · rw [maxlen_of_parse hd, maxlen_of_parse hd', hidents]
  · ext ident
    rw [Definition.ident?, ← OpcodeMap.opcode?_eq_some_iff, Definition.ident?,
      ← OpcodeMap.opcode?_eq_some_iff]
    exact iff_of_eq (congrArg (· = some opcode) (hopcode ident))

/-! ## The generated module -/

/-- Whether a row declares an opcode. -/
def isConstant (row : String) : Bool :=
  "    pub const ".toList.isPrefixOf row.toList

/-- The rows of the declarations. -/
def declarations (d : Definition) (s : Settings) : List String :=
  d.records.toList.map fun r => declaration s d.maxlen r.line

/-- The fragments behind the count. -/
def tableFragments (d : Definition) (s : Settings) : List String :=
  let assignments := d.instructions.map (assignment d.maxlen)
  ["", Fragment.tableOpen s assignments.isEmpty] ++ assignments ++
    [Fragment.tableClose, "", Fragment.accessor s, Fragment.moduleClose]

/-- Comments and empty lines are not taken for constants. -/
theorem isConstant_declaration (s : Settings) (maxlen : Nat) {line : Line} (h : line.WellFormed) :
    isConstant (declaration s maxlen line) = line.instruction?.isSome := by
  cases line with
  | comment text =>
    obtain ⟨rest, hrest⟩ := Reader.commentMarker_prefix_comment h.1
    simp [isConstant, declaration, ← hrest, Line.commentMarker, List.isPrefixOf]
  | blank => simp [isConstant, declaration]
  | instruction inst =>
    rw [isConstant, Reader.toList_opcodeConst,
      List.isPrefixOf_iff_prefix.mpr (List.prefix_append _ _)]
    rfl

/-- The constants of the module are those of the instructions. -/
theorem filter_declarations (hw : d.WellFormed) (s : Settings) :
    (d.declarations s).filter isConstant =
      d.instructions.map fun inst => declaration s d.maxlen (.instruction inst) := by
  have hfilter : (d.declarations s).filter isConstant =
      (d.records.toList.filter (·.line.instruction?.isSome)).map
        fun r => declaration s d.maxlen r.line := by
    rw [declarations, List.filter_map]
    congr 1
    exact List.filter_congr fun r hr => isConstant_declaration s d.maxlen (hw.line r hr)
  rw [hfilter, instructions, List.map_filterMap, ← List.filterMap_eq_map, List.filterMap_filter]
  refine List.filterMap_congr fun r _ => ?_
  obtain ⟨i, line⟩ := r
  cases line <;> rfl

/-- `Parts d s out rows rest` says that the module `out` consists of its opening, a row for each
source line, the count, and the rest. -/
structure Parts (d : Definition) (s : Settings) (out : String) (rows : List String)
    (rest : String) : Prop where
  text : out = s.header ++ Fragment.moduleOpen s ++ "\n" ++ String.join (rows.map (· ++ "\n")) ++
    "\n" ++ Fragment.countConst s d.count ++ "\n" ++ rest
  length : rows.length = d.records.size
  lf_notMem : ∀ row ∈ rows, '\n' ∉ row.toList
  constants : (rows.filter isConstant).length = d.count

theorem parts_of_render (hw : d.WellFormed) (h : d.render s = .ok out) :
    Parts d s out (d.declarations s) (String.join ((d.tableFragments s).map (· ++ "\n"))) := by
  refine ⟨?_, by simp [declarations], ?_, ?_⟩
  · rw [← String.toList_inj, Reader.toList_render_eq_joinRows h]
    simp [joinRows, fragments, declarations, tableFragments, Function.comp_def, List.flatMap_map]
  · intro row hrow
    obtain ⟨r, hr, rfl⟩ := List.mem_map.mp hrow
    exact Reader.lf_notMem_declaration s d.maxlen (hw.line r hr)
  · rw [filter_declarations hw, List.length_map, hw.length_instructions]

/-- `SameTable d d' s out out'` says that the modules of two definitions have the same constants in
the same order, and the same text from the count on. -/
def SameTable (d d' : Definition) (s : Settings) (out out' : String) : Prop :=
  ∃ rows rows' rest, Parts d s out rows rest ∧ Parts d' s out' rows' rest ∧ d.count = d'.count ∧
    rows.filter isConstant = rows'.filter isConstant

theorem SameInstructions.sameTable (h : SameInstructions d d') (hw : d.WellFormed)
    (hw' : d'.WellFormed) (hout : d.render s = .ok out) {out' : String}
    (hout' : d'.render s = .ok out') : SameTable d d' s out out' := by
  have htable : d.tableFragments s = d'.tableFragments s := by
    rw [tableFragments, tableFragments, h.instructions, h.maxlen]
  refine ⟨_, _, _, parts_of_render hw hout, htable ▸ parts_of_render hw' hout', h.count, ?_⟩
  rw [filter_declarations hw, filter_declarations hw', h.instructions, h.maxlen]

/-- With the same instructions both definitions have a module, or neither for the same reason. -/
theorem SameInstructions.render (h : SameInstructions d d') (hw : d.WellFormed)
    (hw' : d'.WellFormed) (s : Settings) :
    (∃ fault, d.render s = .error fault ∧ d'.render s = .error fault) ∨
      ∃ out out', d.render s = .ok out ∧ d'.render s = .ok out' ∧ SameTable d d' s out out' := by
  by_cases hcapacity : d.count ≤ s.opcodeType.capacity
  · obtain ⟨out, hout⟩ := exists_render_iff.mpr hcapacity
    obtain ⟨out', hout'⟩ := exists_render_iff.mpr (h.count ▸ hcapacity)
    exact .inr ⟨out, out', hout, hout', h.sameTable hw hw' hout hout'⟩
  · refine .inl ⟨.tooManyInstructions d.count s.opcodeType, ?_, ?_⟩
    · rw [Definition.render, if_pos (not_le.mp hcapacity)]
    · rw [Definition.render, ← h.count, if_pos (not_le.mp hcapacity)]

/-! ## Both together -/

/-- `SameMeaning mode text text'` says that the texts state the same instruction set, or have the
same faults in the same statements. -/
structure SameMeaning (mode : Mode) (text text' : String) : Prop where
  parses_iff : (∃ d, parse mode text = .ok d) ↔ ∃ d', parse mode text' = .ok d'
  instructions : ∀ d d', parse mode text = .ok d → parse mode text' = .ok d' →
    SameInstructions d d'
  module : ∀ d d', parse mode text = .ok d → parse mode text' = .ok d' → ∀ s,
    (∃ fault, d.render s = .error fault ∧ d'.render s = .error fault) ∨
      ∃ out out', d.render s = .ok out ∧ d'.render s = .ok out' ∧ SameTable d d' s out out'
  report : ∀ rs rs', parse mode text = .error rs → parse mode text' = .error rs' →
    List.Forall₂ (Source.SameRejection (lines text) (lines text')) rs rs'

/-- Texts that differ only in comments and empty lines have the same meaning. -/
theorem parse_sameMeaning (mode : Mode) (text text' : String)
    (h : (lines text).filter Line.isStatement = (lines text').filter Line.isStatement) :
    SameMeaning mode text text' := by
  have hreport := Source.forall₂_rejected mode h
  refine ⟨?_, fun d d' => sameInstructions_of_parse h, fun d d' hd hd' s => ?_, ?_⟩
  · rw [exists_parse_iff, exists_parse_iff, ← List.length_eq_zero_iff, hreport.length_eq,
      List.length_eq_zero_iff]
  · exact (sameInstructions_of_parse h hd hd').render (wellFormed_of_parse hd)
      (wellFormed_of_parse hd') s
  · intro rs rs' hrs hrs'
    obtain ⟨-, rfl⟩ := parse_eq_error_iff.mp hrs
    obtain ⟨-, rfl⟩ := parse_eq_error_iff.mp hrs'
    exact hreport

/-- A repeated identifier with and without comments around it. -/
theorem parse_sameMeaning_repeated :
    (lines "A a\nB b\nA c").filter Line.isStatement =
        (lines "// x\nA a\n\nB b\n//! y\nA c\n").filter Line.isStatement ∧
      SameMeaning .strict "A a\nB b\nA c" "// x\nA a\n\nB b\n//! y\nA c\n" := by
  have h : (lines "A a\nB b\nA c").filter Line.isStatement =
      (lines "// x\nA a\n\nB b\n//! y\nA c\n").filter Line.isStatement := by decide
  exact ⟨h, parse_sameMeaning _ _ _ h⟩

end Definition

end OpcodeTable
