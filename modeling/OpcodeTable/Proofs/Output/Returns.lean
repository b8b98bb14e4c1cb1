import OpcodeTable.Proofs.Definition.Modes
import OpcodeTable.Proofs.Output.Readback

/-!
# Carriage returns

A carriage return comes into a generated module only with a comment, which is kept as it is, or with
an identifier, which stands in its constant and in its assignment. Names are escaped, and a carriage
return in front of a line feed belongs to the terminator of its line.
-/

namespace OpcodeTable

namespace Text

theorem count_joinRows {c : Char} (h : c ≠ '\n') (rows : List (List Char)) :
    (joinRows rows).count c = (rows.map (List.count c)).sum := by
  rw [joinRows, List.count_flatMap]
  congr 1
  refine List.map_congr_left fun row _ => ?_
  simp [List.count_append, h.symm]

/-- The number of carriage returns in a text. -/
def returns (s : String) : Nat :=
  s.toList.count '\r'

theorem returns_eq_zero_iff {s : String} : returns s = 0 ↔ '\r' ∉ s.toList :=
  List.count_eq_zero

end Text

open Text

namespace Line

/-- The number of carriage returns that a line brings into a module. -/
def returns : Line → Nat
  | comment text => Text.returns text
  | blank => 0
  | instruction inst => 2 * Text.returns inst.ident

@[simp] theorem returns_comment (text : String) : (comment text).returns = Text.returns text := rfl

@[simp] theorem returns_blank : blank.returns = 0 := rfl

@[simp] theorem returns_instruction (inst : Instruction) :
    (instruction inst).returns = 2 * Text.returns inst.ident := rfl

end Line

/-- No setting holds a carriage return. -/
structure Settings.NoReturn (s : Settings) : Prop where
  header : '\r' ∉ s.header.toList
  moduleName : '\r' ∉ s.moduleName.toList
  countName : '\r' ∉ s.countName.toList
  tableName : '\r' ∉ s.tableName.toList
  accessorName : '\r' ∉ s.accessorName.toList

theorem OpcodeType.return_notMem_name (t : OpcodeType) : '\r' ∉ t.name.toList := by
  cases t <;> decide

namespace Fragment

/-- Leaving out an exclamation mark leaves out no carriage return. -/
theorem returns_comment (text : String) : returns (comment text) = returns text := by
  unfold comment returns
  split
  · next rest hchars => simp [hchars]
  · rfl

theorem returns_escape (s : String) : returns (escape s) = 0 := by
  rw [returns_eq_zero_iff, Literal.toList_escape, List.mem_flatMap]
  rintro ⟨c, -, hmem⟩
  grind [Literal.escapeChar]

end Fragment

namespace Definition

variable {mode : Mode} {text : String} {d : Definition} {s : Settings} {out : String}

theorem returns_assignment (maxlen : Nat) (inst : Instruction) :
    returns (assignment maxlen inst) = returns inst.ident := by
  have hescape := Fragment.returns_escape inst.name
  rw [returns] at hescape
  rw [returns, Reader.toList_assignment, returns]
  simp [List.count_replicate, hescape]

theorem returns_constant (s : Settings) (maxlen : Nat) (inst : Instruction) :
    returns (declaration s maxlen (.instruction inst)) = returns inst.ident := by
  have htype : s.opcodeType.name.toList.count '\r' = 0 :=
    List.count_eq_zero.mpr s.opcodeType.return_notMem_name
  have hopcode : (Nat.toDigits 10 inst.opcode).count '\r' = 0 :=
    List.count_eq_zero.mpr (notMem_toDigits (by decide) inst.opcode)
  rw [returns, Reader.toList_opcodeConst, returns]
  simp [List.count_replicate, htype, hopcode]

/-- The carriage returns of the rows and the assignments are those of the lines. -/
theorem returns_rows (s : Settings) (maxlen : Nat) (rs : List Record) :
    (rs.map fun r => returns (declaration s maxlen r.line)).sum +
      ((rs.filterMap (·.line.instruction?)).map fun inst => returns (assignment maxlen inst)).sum =
        (rs.map (·.line.returns)).sum := by
  induction rs with
  | nil => rfl
  | cons r rs ih =>
    obtain ⟨index, line⟩ := r
    simp only [List.map_cons, List.sum_cons, List.filterMap_cons]
    cases line with
    | comment text =>
      have hrow : returns (declaration s maxlen (.comment text)) = returns text :=
        Fragment.returns_comment text
      simp only [hrow, Line.instruction?_comment, Line.returns_comment]
      omega
    | blank =>
      have hrow : returns (declaration s maxlen .blank) = 0 := rfl
      simp only [hrow, Line.instruction?_blank, Line.returns_blank]
      omega
    | instruction inst =>
      have hrow := returns_constant s maxlen inst
      have hassignment := returns_assignment maxlen inst
      simp only [Line.instruction?_instruction, List.map_cons, List.sum_cons, hrow, hassignment,
        Line.returns_instruction]
      omega

/-- The fixed parts of a module hold no carriage return, as long as the settings hold none. -/
theorem return_notMem_frame (hs : s.NoReturn) :
    ∀ part ∈ [Reader.opening s, Reader.countHead s, Reader.tableHead s, Reader.tableInit s,
      Reader.closing s], '\r' ∉ part.toList := by
  have htype := s.opcodeType.return_notMem_name
  obtain ⟨hheader, hmodule, hcount, htable, haccessor⟩ := hs
  unfold Reader.opening Reader.countHead Reader.tableHead Reader.tableInit Reader.closing
  simp only [List.forall_mem_cons]
  refine ⟨?_, ?_, ?_, ?_, ?_, by simp⟩
  · simp [hheader, hmodule]
  · simp [hcount]
  · simp [htable, hcount]
  · simp [hcount]
  · simp [haccessor, htable, htype]

theorem returns_of_render (hs : s.NoReturn) (h : d.render s = .ok out) :
    returns out = (d.records.toList.map (·.line.returns)).sum := by
  have hframe := return_notMem_frame hs
  simp only [List.forall_mem_cons, ← List.count_eq_zero] at hframe
  obtain ⟨hopening, hcountHead, htableHead, htableInit, hclosing, -⟩ := hframe
  have hcount : (Nat.toDigits 10 d.count).count '\r' = 0 :=
    List.count_eq_zero.mpr (notMem_toDigits (by decide) d.count)
  have hmut : (if d.instructions.isEmpty then [] else [' ', 'm', 'u', 't']).count '\r' = 0 := by
    split <;> decide
  have hrows : (joinRows (Reader.declarationRows s d)).count '\r' =
      (d.records.toList.map fun r => returns (declaration s d.maxlen r.line)).sum := by
    rw [count_joinRows (by decide), Reader.declarationRows, List.map_map]
    rfl
  have hassignments : (joinRows (Reader.assignmentRows d)).count '\r' =
      (d.instructions.map fun inst => returns (assignment d.maxlen inst)).sum := by
    rw [count_joinRows (by decide), Reader.assignmentRows, List.map_map]
    rfl
  rw [← returns_rows s d.maxlen, returns, Reader.toList_render h, Reader.front]
  simp only [List.count_append, hopening, hcountHead, htableHead, htableInit, hclosing, hmut, hrows]
  simp [hcount, hassignments, instructions]

/-- A line that brings carriage returns has them in the source. -/
theorem return_mem_of_classify {opcode : Nat} {raw : String} {line : Line}
    (h : Line.classify mode opcode raw = .ok line) (hne : line.returns ≠ 0) :
    '\r' ∈ raw.toList := by
  rcases Line.classify_eq_ok h with ⟨rfl, -⟩ | rfl | ⟨ident, name, hfields, -, -, rfl⟩
  · by_contra hnot
    exact hne (returns_eq_zero_iff.mpr hnot)
  · exact absurd rfl hne
  · by_contra hnot
    have hident : '\r' ∉ (String.ofList ident).toList := by
      rw [String.toList_ofList]
      intro hmem
      exact hnot (Mode.mem_of_mem_fields (by rw [hfields]; simp) hmem).1
    rw [Line.returns_instruction, returns_eq_zero_iff.mpr hident] at hne
    exact hne rfl

theorem return_mem_iff (hs : s.NoReturn) (h : d.render s = .ok out) :
    '\r' ∈ out.toList ↔ ∃ r ∈ d.records.toList, r.line.returns ≠ 0 := by
  rw [← not_iff_not, ← returns_eq_zero_iff, returns_of_render hs h, List.sum_eq_zero_iff]
  simp

/-- `KeepsReturns mode text d out` says where the carriage returns of the module `out` come from. -/
structure KeepsReturns (mode : Mode) (text : String) (d : Definition) (out : String) : Prop where
  /-- Those of a comment stand in the module once, and those of an identifier twice. -/
  count : returns out = (d.records.toList.map (·.line.returns)).sum
  mem_iff : '\r' ∈ out.toList ↔
    (∃ i c, ⟨i, .comment c⟩ ∈ d.records.toList ∧ '\r' ∈ c.toList) ∨
      ∃ inst ∈ d.instructions, '\r' ∈ inst.ident.toList
  /-- In an assignment there are none but those of the identifier. -/
  name : ∀ inst ∈ d.instructions, returns (assignment d.maxlen inst) = returns inst.ident
  lenient : mode = .lenient → ∀ inst ∈ d.instructions, '\r' ∉ inst.ident.toList
  /-- Those of the terminators do not count. -/
  terminator : (∀ raw ∈ lines text, '\r' ∉ raw.toList) → '\r' ∉ out.toList

/-- The carriage returns of a generated module are those of comments and of identifiers. -/
theorem render_keepsReturns (mode : Mode) (text : String) (d : Definition) (s : Settings)
    (out : String) (hd : parse mode text = .ok d) (hs : s.NoReturn) (hout : d.render s = .ok out) :
    KeepsReturns mode text d out := by
  refine ⟨returns_of_render hs hout, ?_, fun inst _ => returns_assignment d.maxlen inst, ?_, ?_⟩
  · rw [return_mem_iff hs hout]
    constructor
    · rintro ⟨⟨i, line⟩, hr, hne⟩
      cases line with
      | comment c => exact .inl ⟨i, c, hr, not_not.mp (mt returns_eq_zero_iff.mpr hne)⟩
      | blank => exact absurd rfl hne
      | instruction inst =>
        refine .inr ⟨inst, mem_instructions hr rfl, not_not.mp fun hnot => hne ?_⟩
        rw [Line.returns_instruction, returns_eq_zero_iff.mpr hnot]
    · rintro (⟨i, c, hr, hmem⟩ | ⟨inst, hinst, hmem⟩)
      · exact ⟨_, hr, mt returns_eq_zero_iff.mp (not_not.mpr hmem)⟩
      · obtain ⟨r, hr, hl⟩ := List.mem_filterMap.mp hinst
        refine ⟨r, hr, ?_⟩
        have hne := mt returns_eq_zero_iff.mp (not_not.mpr hmem)
        rw [Line.instruction?_eq_some_iff.mp hl, Line.returns_instruction]
        omega
  · rintro rfl inst hinst hmem
    exact absurd ((noBlank_of_parse_lenient hd inst hinst).ident _ hmem) (by decide)
  · intro hlines hmem
    obtain ⟨r, hr, hne⟩ := (return_mem_iff hs hout).mp hmem
    obtain ⟨raw, hraw, opcode, hc⟩ := exists_classify_of_parse hd hr
    exact hlines raw hraw (return_mem_of_classify hc hne)

theorem noReturn_default : ({} : Settings).NoReturn :=
  ⟨by decide, by decide, by decide, by decide, by decide⟩

/-- A comment, an identifier and a name that hold one, and terminators with one more. -/
theorem render_keepsReturns_mixed : ∃ d out, parse .strict "// x\r\r\nA\rB a\r\r\n" = .ok d ∧
    ({} : Settings).NoReturn ∧ d.render {} = .ok out ∧
      KeepsReturns .strict "// x\r\r\nA\rB a\r\r\n" d out := by
  obtain ⟨d, out, hd, hout⟩ : ∃ d out, parse .strict "// x\r\r\nA\rB a\r\r\n" = .ok d ∧
      d.render {} = .ok out := exists_parse_render (by decide) (by decide)
  exact ⟨d, out, hd, noReturn_default, hout,
    render_keepsReturns _ _ _ _ _ hd noReturn_default hout⟩

/-- A carriage return at the end of a comment stands in the module in both modes, and one inside an
identifier does in strict mode. -/
theorem exists_return_in_module :
    (∀ mode, ∃ d out, parse mode "// x\r\r\nA a" = .ok d ∧ d.render {} = .ok out ∧
      '\r' ∈ out.toList) ∧
    (∃ d out, parse .strict "A\rB a" = .ok d ∧ d.render {} = .ok out ∧ '\r' ∈ out.toList) ∧
    ({} : Settings).NoReturn := by
  refine ⟨fun mode => ?_, ?_, noReturn_default⟩
  · obtain ⟨d, out, hd, hout⟩ : ∃ d out, parse mode "// x\r\r\nA a" = .ok d ∧
        d.render {} = .ok out :=
      exists_parse_render (by cases mode <;> decide) (by cases mode <;> decide)
    have hfirst : (lines "// x\r\r\nA a")[0]? = some "// x\r" := by decide
    obtain ⟨line, hline, hr⟩ := record_of_parse hd hfirst
    obtain rfl := Line.eq_comment_of_classify (by decide) hline
    have hmem := Array.mem_toList_iff.mpr (Array.mem_of_getElem? hr)
    exact ⟨d, out, hd, hout,
      (return_mem_iff noReturn_default hout).mpr ⟨⟨0, .comment "// x\r"⟩, hmem, by decide⟩⟩
  · obtain ⟨d, out, hd, hout⟩ : ∃ d out, parse .strict "A\rB a" = .ok d ∧
        d.render {} = .ok out := exists_parse_render (by decide) (by decide)
    have hinst : ⟨"A\rB", "a", 0⟩ ∈ d.instructions := by
      rw [instructions_of_parse hd]
      decide
    obtain ⟨r, hr, hl⟩ := List.mem_filterMap.mp hinst
    refine ⟨d, out, hd, hout, (return_mem_iff noReturn_default hout).mpr ⟨r, hr, ?_⟩⟩
    rw [Line.instruction?_eq_some_iff.mp hl]
    decide

end Definition

end OpcodeTable
