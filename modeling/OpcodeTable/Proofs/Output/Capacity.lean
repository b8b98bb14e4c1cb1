import OpcodeTable.Proofs.Definition.Size
import OpcodeTable.Proofs.Output.Columns
import OpcodeTable.Proofs.Output.Table

/-!
# The opcode type

The opcode type decides how many instructions a definition may have, and nothing else of the module
depends on it but its own name. The name stands in every constant and in the parameter of the
accessor, so the modules for the two types are the same pieces with another name filled in.
-/

namespace OpcodeTable

open Text

/-- A piece of a generated module: a fixed text, or the name of the opcode type. -/
inductive Piece where
  | text (s : String)
  | typeName
  deriving DecidableEq, Repr

namespace Piece

/-- The text of a piece for an opcode type. -/
def fill (t : OpcodeType) : Piece → String
  | text s => s
  | typeName => t.name

/-- The text of some pieces for an opcode type. -/
def join (t : OpcodeType) (ps : List Piece) : String :=
  String.join (ps.map (fill t))

theorem join_append (t : OpcodeType) (ps qs : List Piece) :
    join t (ps ++ qs) = join t ps ++ join t qs := by
  simp [join]

theorem join_flatMap {α : Type} (t : OpcodeType) (l : List α) (f : α → List Piece) :
    join t (l.flatMap f) = String.join (l.map fun a => join t (f a)) := by
  induction l with
  | nil => rfl
  | cons a l ih => rw [List.flatMap_cons, join_append, ih, List.map_cons, String.join_cons]

end Piece

/-- The opcodes that the constants of a module have. -/
def Generated.opcodes (m : Generated) : List Nat :=
  m.declarations.filterMap fun
    | .constant _ opcode => some opcode
    | _ => none

theorem OpcodeType.capacity_eq (t : OpcodeType) : t.capacity = 2 ^ t.bits := rfl

namespace Definition

open Piece

variable {mode : Mode} {text : String} {d : Definition} {s : Settings} {out : String}
  {t t' : OpcodeType}

/-! ## The module without its opcode type -/

/-- The row of a source line. Only that of an instruction names the opcode type. -/
def rowPieces (maxlen : Nat) : Line → List Piece
  | .comment text => [.text (Fragment.comment text ++ "\n")]
  | .blank => [.text "\n"]
  | .instruction inst =>
    [.text ("    pub const " ++ inst.ident ++ Fragment.spaces inst.ident maxlen ++ ": "), .typeName,
      .text (" = " ++ toString inst.opcode ++ ";\n")]

/-- Everything behind the declarations. Only the accessor names the opcode type. -/
def tablePieces (d : Definition) (s : Settings) : List Piece :=
  [.text ("\n" ++ Fragment.countConst s d.count ++ "\n\n" ++
      Fragment.tableOpen s d.instructions.isEmpty ++ "\n" ++
      String.join ((d.instructions.map (assignment d.maxlen)).map (· ++ "\n")) ++
      Fragment.tableClose ++ "\n\n    pub fn " ++ s.accessorName ++ "(opcode: "), .typeName,
    .text (") -> &'static str \x7b\n        " ++ s.tableName ++
      "[opcode as usize]\n    \x7d\n\x7d\n")]

/-- The pieces of the generated module. -/
def pieces (d : Definition) (s : Settings) : List Piece :=
  .text (s.header ++ Fragment.moduleOpen s ++ "\n") ::
    (d.records.toList.flatMap (fun r => rowPieces d.maxlen r.line) ++ d.tablePieces s)

theorem join_rowPieces (s : Settings) (maxlen : Nat) (line : Line) :
    join s.opcodeType (rowPieces maxlen line) = declaration s maxlen line ++ "\n" := by
  cases line <;>
    simp [rowPieces, join, fill, declaration, Fragment.opcodeConst, Fragment.indent,
      String.append_assoc]

theorem join_tablePieces (d : Definition) (s : Settings) :
    join s.opcodeType (d.tablePieces s) = "\n" ++ Fragment.countConst s d.count ++ "\n" ++
      String.join ((d.tableFragments s).map (· ++ "\n")) := by
  rw [join_tableFragments]
  apply String.toList_inj.mp
  unfold Reader.closing
  simp [tablePieces, join, fill, Fragment.tableClose, Fragment.indent, Fragment.localTable]

/-- A module is its pieces with the name of the opcode type filled in. -/
theorem eq_join_pieces (hw : d.WellFormed) (h : d.render s = .ok out) :
    out = join s.opcodeType (d.pieces s) := by
  have hrows : join s.opcodeType (d.records.toList.flatMap fun r => rowPieces d.maxlen r.line) =
      String.join ((d.declarations s).map (· ++ "\n")) := by
    rw [join_flatMap, declarations, List.map_map]
    congr 1
    exact List.map_congr_left fun r _ => join_rowPieces s d.maxlen r.line
  have hopen : join s.opcodeType [.text (s.header ++ Fragment.moduleOpen s ++ "\n")] =
      s.header ++ Fragment.moduleOpen s ++ "\n" := by
    simp [join, fill]
  rw [(parts_of_render hw h).text, pieces, ← List.singleton_append, join_append, join_append,
    hopen, hrows, join_tablePieces]
  simp only [String.append_assoc]

theorem count_typeName_rowPieces (maxlen : Nat) (line : Line) :
    (rowPieces maxlen line).count .typeName = line.instruction?.toList.length := by
  cases line <;> rfl

theorem count_typeName_pieces (d : Definition) (s : Settings) :
    (d.pieces s).count .typeName = d.instructions.length + 1 := by
  have hrows : (d.records.toList.flatMap fun r => rowPieces d.maxlen r.line).count .typeName =
      d.instructions.length := by
    rw [instructions, List.filterMap_eq_flatMap_toList, List.count_flatMap, List.length_flatMap]
    congr 1
    exact List.map_congr_left fun r _ => count_typeName_rowPieces d.maxlen r.line
  have htable : (d.tablePieces s).count .typeName = 1 := rfl
  rw [pieces, List.count_cons_of_ne (by simp), List.count_append, hrows, htable]

/-! ## The bound -/

theorem render_eq_error_iff {fault : Fault} :
    d.render s = .error fault ↔
      s.opcodeType.capacity < d.count ∧ fault = .tooManyInstructions d.count s.opcodeType := by
  rw [render]
  split <;> simp_all [eq_comm]

/-- The bound is sharp: the whole range of the opcode type can be used, and one instruction more is
too many. -/
theorem exists_render_sharp (mode : Mode) (s : Settings) :
    ∃ text d text' d', parse mode text = .ok d ∧ parse mode text' = .ok d' ∧
      d.instructions.length = 2 ^ s.opcodeType.bits ∧
      d'.instructions.length = 2 ^ s.opcodeType.bits + 1 ∧
      (∃ out, d.render s = .ok out) ∧ ∃ fault, d'.render s = .error fault := by
  obtain ⟨text, d, hd, hlength⟩ := exists_length_instructions_eq mode (2 ^ s.opcodeType.bits)
  obtain ⟨text', d', hd', hlength'⟩ :=
    exists_length_instructions_eq mode (2 ^ s.opcodeType.bits + 1)
  refine ⟨text, d, text', d', hd, hd', hlength, hlength', exists_render_iff.mpr ?_, _,
    render_eq_error_iff.mpr ⟨?_, rfl⟩⟩
  · rw [← (wellFormed_of_parse hd).length_instructions, hlength, OpcodeType.capacity_eq]
  · rw [← (wellFormed_of_parse hd').length_instructions, hlength', OpcodeType.capacity_eq]
    omega

/-- The module for a narrow type becomes that for a wider one by another name in the same pieces. -/
theorem render_of_bits_le (hw : d.WellFormed) (hbits : t.bits ≤ t'.bits)
    (h : d.render { s with opcodeType := t } = .ok out) :
    out = join t (d.pieces s) ∧
      d.render { s with opcodeType := t' } = .ok (join t' (d.pieces s)) := by
  have hcount : d.count ≤ 2 ^ t.bits := exists_render_iff.mp ⟨out, h⟩
  have hwide : d.count ≤ 2 ^ t'.bits :=
    hcount.trans (Nat.pow_le_pow_right (by decide) hbits)
  obtain ⟨wide, hwide⟩ := exists_render_iff (s := { s with opcodeType := t' }).mpr hwide
  refine ⟨eq_join_pieces hw h, ?_⟩
  rw [hwide, eq_join_pieces hw hwide]
  rfl

/-! ## The range of the opcodes -/

theorem opcodes_generated (d : Definition) :
    d.generated.opcodes = d.instructions.map (·.opcode) := by
  rw [Generated.opcodes, generated, List.filterMap_map, instructions, List.map_filterMap]
  refine List.filterMap_congr fun r _ => ?_
  obtain ⟨i, line⟩ := r
  cases line <;> rfl

/-- `InRange d t m` says that the numbers in the module `m` are in range: the opcodes of its
constants in that of the opcode type, and the indices of its assignments in that of the table. -/
structure InRange (d : Definition) (t : OpcodeType) (m : Generated) : Prop where
  opcodes : m.opcodes = List.range d.instructions.length
  opcode_lt : ∀ k ∈ m.opcodes, k < 2 ^ t.bits
  /-- The length of the table. -/
  count : m.count = d.instructions.length
  index_lt : ∀ a ∈ m.assignments, ∃ k, m.opcodesOf a.index = [k] ∧ k < m.count

theorem WellFormed.inRange (hw : d.WellFormed) (hcount : d.count ≤ 2 ^ t.bits) :
    InRange d t d.generated := by
  have hopcodes : d.generated.opcodes = List.range d.count :=
    (opcodes_generated d).trans hw.opcodes
  refine ⟨by rw [hopcodes, hw.length_instructions], fun k hk => ?_, hw.length_instructions.symm,
    fun a ha => ?_⟩
  · rw [hopcodes, List.mem_range] at hk
    exact hk.trans_le hcount
  · obtain ⟨inst, hinst, rfl⟩ := List.mem_map.mp ha
    exact ⟨inst.opcode, by simp [opcodesOf_generated, hw.filter_ident hinst], hw.opcode_lt hinst⟩

/-- `GovernedByType text d s` says what the opcode type means for the definition of a text. -/
structure GovernedByType (text : String) (d : Definition) (s : Settings) : Prop where
  /-- Comments and empty lines do not count. -/
  count : d.instructions.length = (lines text).countP Line.isStatement
  fails_iff : ∀ fault, d.render s = .error fault ↔
    2 ^ s.opcodeType.bits < d.instructions.length ∧
      fault = .tooManyInstructions d.instructions.length s.opcodeType
  inRange : ∀ out, d.render s = .ok out →
    ∃ m, Reader.read? s out = some m ∧ InRange d s.opcodeType m
  widens : ∀ narrow, d.render { s with opcodeType := .u8 } = .ok narrow →
    narrow = join .u8 (d.pieces s) ∧
      d.render { s with opcodeType := .u16 } = .ok (join .u16 (d.pieces s))
  /-- The pieces name the type once for each instruction and once for the accessor. -/
  names : (d.pieces s).count .typeName = d.instructions.length + 1

/-- The opcode type governs the capacity of a definition and its own name in the module. -/
theorem render_governedByType (mode : Mode) (text : String) (d : Definition) (s : Settings)
    (hd : parse mode text = .ok d) : GovernedByType text d s := by
  have hw := wellFormed_of_parse hd
  refine ⟨length_instructions_of_parse hd, fun fault => ?_, fun out hout => ?_, fun narrow => ?_,
    count_typeName_pieces d s⟩
  · rw [render_eq_error_iff, OpcodeType.capacity_eq, hw.length_instructions]
  · exact ⟨d.generated, Reader.read?_render hw hout, hw.inRange (exists_render_iff.mp ⟨out, hout⟩)⟩
  · exact render_of_bits_le hw (by decide)

/-- Two instructions with a comment and an empty line in between. -/
theorem render_governedByType_two : ∃ d, parse .strict "A a\n// x\n\nB b" = .ok d ∧
    d.instructions.length = 2 ∧ GovernedByType "A a\n// x\n\nB b" d {} := by
  obtain ⟨d, hd⟩ : ∃ d, parse .strict "A a\n// x\n\nB b" = .ok d :=
    exists_parse_iff.mpr (by decide)
  refine ⟨d, hd, ?_, render_governedByType _ _ _ _ hd⟩
  rw [length_instructions_of_parse hd]
  decide

end Definition

end OpcodeTable
