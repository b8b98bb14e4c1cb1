import OpcodeTable.Proofs.Output.Statements
import OpcodeTable.Proofs.Text.Columns

/-!
# Columns of the generated module

All identifiers are filled up to the length of the longest one, so the types of the constants stand
in one column, and the names in the assignments in another. Nothing is cut off, and the longest
identifier is not filled up at all.
-/

namespace OpcodeTable

open Text

namespace Definition

variable {mode : Mode} {text : String} {d : Definition} {s : Settings} {out : String}
  {inst : Instruction}

/-! ## The longest identifier -/

theorem length_ident_le (h : parse mode text = .ok d) (hinst : inst ∈ d.instructions) :
    inst.ident.length ≤ d.maxlen := by
  have hmem : inst.ident ∈ (Source.idents mode (lines text)).toFinset := by
    rw [← map_ident_of_parse h, List.mem_toFinset]
    exact List.mem_map_of_mem hinst
  rw [maxlen_of_parse h]
  exact Finset.le_sup hmem

theorem exists_length_ident_eq (h : parse mode text = .ok d) (hne : d.instructions ≠ []) :
    ∃ inst ∈ d.instructions, inst.ident.length = d.maxlen := by
  have hnonempty : (Source.idents mode (lines text)).toFinset.Nonempty := by
    rw [← map_ident_of_parse h]
    simpa using hne
  obtain ⟨ident, hident, hsup⟩ := Finset.exists_mem_eq_sup _ hnonempty String.length
  rw [← map_ident_of_parse h, List.mem_toFinset, List.mem_map] at hident
  obtain ⟨inst, hinst, rfl⟩ := hident
  exact ⟨inst, hinst, (maxlen_of_parse h).trans hsup |>.symm⟩

/-! ## Rows -/

/-- What stands between the identifier of a constant with its padding, and its opcode. -/
def typeMark (s : Settings) : String :=
  ": " ++ s.opcodeType.name ++ " = "

/-- `ConstantRow s m inst row` says that a row declares the opcode of an instruction. Its identifier
is filled up to `m` characters, and its type stands behind them. -/
structure ConstantRow (s : Settings) (m : Nat) (inst : Instruction) (row : String) : Prop where
  text : ∃ pad, inst.ident.length + pad = m ∧ row = "    pub const " ++ inst.ident ++
    repeated pad ' ' ++ typeMark s ++ toString inst.opcode ++ ";"
  column : StandsAt (typeMark s).toList (14 + m) row.toList

/-- `AssignmentRow m inst row` says that a row puts the name of an instruction into the table. The
identifier in its index is filled up to `m` characters, and the name stands behind them. -/
structure AssignmentRow (m : Nat) (inst : Instruction) (row : String) : Prop where
  text : ∃ pad, inst.ident.length + pad = m ∧ row = "        table[" ++ inst.ident ++
    " as usize]" ++ repeated pad ' ' ++ " = \"" ++ Fragment.escape inst.name ++ "\";"
  column : StandsAt " = ".toList (24 + m) row.toList

theorem exists_toList_typeMark (s : Settings) :
    ∃ tail, (typeMark s).toList = ':' :: ' ' :: 'u' :: tail := by
  rw [typeMark]
  cases s.opcodeType <;> exact ⟨_, rfl⟩

/-- Behind a colon and a space there is no second space or colon. -/
theorem not_prefix_padding (pad : Nat) {tail rest : List Char} :
    ¬(' ' :: 'u' :: tail <+: List.replicate pad ' ' ++ ':' :: rest) := by
  match pad with
  | 0 => simp
  | 1 => simp
  | pad + 2 => simp [List.replicate_succ]

theorem standsAt_typeMark (s : Settings) {ident : String} (hident : IsField ident) (pad : Nat)
    (rest : List Char) :
    StandsAt (typeMark s).toList (14 + (ident.length + pad))
      ("    pub const ".toList ++ (ident.toList ++ List.replicate pad ' ') ++
        ((typeMark s).toList ++ rest)) := by
  obtain ⟨tail, hmark⟩ := exists_toList_typeMark s
  refine standsAt_append ?_ (by simp [String.length_toList]; omega)
  rw [hmark]
  -- the identifier may hold colons but no space, and the text around it holds no colon
  have hfront : ':' ∉ "    pub const ".toList := by decide
  have hpadding : ':' ∉ List.replicate pad ' ' := by simp
  refine (skips_of_head_notMem hfront).append (.append ?_ (skips_of_head_notMem hpadding))
  exact skips_of_tail hident.space_notMem (not_prefix_padding pad)

theorem standsAt_equals {ident : String} (hident : IsField ident) (pad : Nat) (rest : List Char) :
    StandsAt " = ".toList (24 + (ident.length + pad))
      ("        table".toList ++ ('[' :: ident.toList ++
        (" as usize]".toList ++ List.replicate pad ' ')) ++ (" = ".toList ++ rest)) := by
  refine standsAt_append ?_ (by simp [String.length_toList]; omega)
  rw [show " = ".toList = [' ', '=', ' '] from rfl]
  -- the identifier may hold equals signs but no space, and the text around it holds no equals sign
  have hindex : ' ' ∉ '[' :: ident.toList := by simp [hident.space_notMem]
  have hpadding : '=' ∉ " as usize]".toList ++ List.replicate pad ' ' := by simp
  refine (skips_of_tail (by decide) (by simp)).append (.append (skips_of_head_notMem hindex) ?_)
  exact skips_of_tail hpadding (by simp)

theorem constantRow_declaration (s : Settings) (hident : IsField inst.ident)
    (hle : inst.ident.length ≤ d.maxlen) :
    ConstantRow s d.maxlen inst (declaration s d.maxlen (.instruction inst)) := by
  obtain ⟨pad, hpad⟩ := Nat.exists_eq_add_of_le hle
  refine ⟨⟨pad, hpad.symm, ?_⟩, ?_⟩
  · simp [declaration, Fragment.opcodeConst, Fragment.indent, Fragment.spaces, typeMark, hpad,
      String.append_assoc]
  · have hcolumn := standsAt_typeMark s hident pad ((toString inst.opcode).toList ++ [';'])
    rw [← hpad] at hcolumn
    have hrow : (declaration s d.maxlen (.instruction inst)).toList =
        "    pub const ".toList ++ (inst.ident.toList ++ List.replicate pad ' ') ++
          ((typeMark s).toList ++ ((toString inst.opcode).toList ++ [';'])) := by
      rw [Reader.toList_opcodeConst, hpad, Nat.add_sub_cancel_left, typeMark]
      simp only [List.append_assoc]
    rw [hrow]
    exact hcolumn

theorem assignmentRow_assignment (hident : IsField inst.ident)
    (hle : inst.ident.length ≤ d.maxlen) :
    AssignmentRow d.maxlen inst (assignment d.maxlen inst) := by
  obtain ⟨pad, hpad⟩ := Nat.exists_eq_add_of_le hle
  refine ⟨⟨pad, hpad.symm, ?_⟩, ?_⟩
  · simp [assignment, Fragment.nameAssign, Fragment.indent, Fragment.localTable, Fragment.spaces,
      hpad, String.append_assoc]
  · have hcolumn := standsAt_equals hident pad
      ('"' :: ((Fragment.escape inst.name).toList ++ ['"', ';']))
    rw [← hpad] at hcolumn
    have hrow : (assignment d.maxlen inst).toList =
        "        table".toList ++ ('[' :: inst.ident.toList ++
          (" as usize]".toList ++ List.replicate pad ' ')) ++ (" = ".toList ++
            '"' :: ((Fragment.escape inst.name).toList ++ ['"', ';'])) := by
      simp [assignment, Fragment.nameAssign, Fragment.indent, Fragment.localTable,
        Fragment.spaces, Text.repeated, hpad]
    rw [hrow]
    exact hcolumn

/-! ## The whole module -/

/-- The text of the module behind the count. -/
theorem join_tableFragments (d : Definition) (s : Settings) :
    String.join ((d.tableFragments s).map (· ++ "\n")) =
      "\n" ++ Fragment.tableOpen s d.instructions.isEmpty ++ "\n" ++
        String.join ((d.instructions.map (assignment d.maxlen)).map (· ++ "\n")) ++
        Reader.closing s := by
  apply String.toList_inj.mp
  unfold tableFragments Reader.closing
  simp [Fragment.tableClose, Fragment.accessor, Fragment.moduleClose, Fragment.indent,
    Fragment.localTable]

/-- `Aligned d s out` says that the columns of the module `out` line up, and that they stand as far
to the left as the longest identifier lets them. -/
structure Aligned (d : Definition) (s : Settings) (out : String) : Prop where
  rows : ∃ rows assignments : List String,
    Parts d s out rows ("\n" ++ Fragment.tableOpen s d.instructions.isEmpty ++ "\n" ++
      String.join (assignments.map (· ++ "\n")) ++ Reader.closing s) ∧
    (∀ row ∈ assignments, '\n' ∉ row.toList) ∧
    List.Forall₂ (ConstantRow s d.maxlen) d.instructions (rows.filter isConstant) ∧
    List.Forall₂ (AssignmentRow d.maxlen) d.instructions assignments ∧
    (d.instructions ≠ [] → ∃ inst ∈ d.instructions,
      "    pub const " ++ inst.ident ++ typeMark s ++ toString inst.opcode ++ ";" ∈ rows)
  fits : ∀ inst ∈ d.instructions, inst.ident.length ≤ d.maxlen

/-- All columns of the module of a parsed definition line up. -/
theorem render_aligned (mode : Mode) (text : String) (d : Definition) (s : Settings) (out : String)
    (hd : parse mode text = .ok d) (hout : d.render s = .ok out) : Aligned d s out := by
  have hw := wellFormed_of_parse hd
  have hle : ∀ inst ∈ d.instructions, inst.ident.length ≤ d.maxlen :=
    fun inst => length_ident_le hd
  have hparts := parts_of_render hw hout
  rw [join_tableFragments] at hparts
  refine ⟨⟨_, _, hparts, ?_, ?_, ?_, ?_⟩, hle⟩
  · intro row hrow
    obtain ⟨inst, hinst, rfl⟩ := List.mem_map.mp hrow
    exact Reader.lf_notMem_assignment d.maxlen (hw.isField hinst).1 (hw.isField hinst).2
  · rw [filter_declarations hw, List.forall₂_map_right_iff, List.forall₂_same]
    intro inst hinst
    exact constantRow_declaration s (hw.isField hinst).1 (hle inst hinst)
  · rw [List.forall₂_map_right_iff, List.forall₂_same]
    intro inst hinst
    exact assignmentRow_assignment (hw.isField hinst).1 (hle inst hinst)
  · intro hne
    obtain ⟨inst, hinst, hlength⟩ := exists_length_ident_eq hd hne
    refine ⟨inst, hinst, ?_⟩
    -- the padding of the longest identifier is empty
    obtain ⟨⟨pad, hpad, hrow⟩, -⟩ :=
      constantRow_declaration s (hw.isField hinst).1 (hle inst hinst)
    obtain rfl : pad = 0 := by omega
    have hmem : declaration s d.maxlen (.instruction inst) ∈
        (d.declarations s).filter isConstant := by
      rw [filter_declarations hw]
      exact List.mem_map_of_mem hinst
    have hempty : repeated 0 ' ' = "" := rfl
    rw [hrow, hempty, String.append_empty] at hmem
    exact List.mem_of_mem_filter hmem

/-- Identifiers of two lengths, the shorter one with a character outside of ASCII and the longer one
with a colon and an equals sign. -/
theorem render_aligned_nonAscii : ∃ d out, parse .strict "Ä a\n//! x\n:= b" = .ok d ∧
    d.render {} = .ok out ∧ Aligned d {} out := by
  obtain ⟨d, hd⟩ : ∃ d, parse .strict "Ä a\n//! x\n:= b" = .ok d :=
    exists_parse_iff.mpr (by decide)
  have hcount := count_of_parse hd
  obtain ⟨out, hout⟩ := exists_render_iff (s := {}).mpr (by rw [hcount]; decide)
  exact ⟨d, out, hd, hout, render_aligned _ _ _ _ _ hd hout⟩

end Definition

end OpcodeTable
