import OpcodeTable.Proofs.Output.Readback

/-!
# The table of a generated module

Running the assignments of a generated module fills the table from the front: after some of them
the table holds the names of as many instructions, and the empty text behind them. At the end every
slot holds the name of the instruction whose opcode it has.
-/

namespace OpcodeTable

namespace Generated

/-- The opcodes of the constants that have a name. -/
def opcodesOf (m : Generated) (ident : String) : List Nat :=
  m.declarations.filterMap fun
    | .constant other opcode => if other = ident then some opcode else none
    | _ => none

/-- The slot that an assignment writes. Its index must name one constant only, and the opcode of
that constant must be within the table. -/
def slot? (m : Generated) (a : Assignment) : Option Nat :=
  match m.opcodesOf a.index with
  | [k] => if k < m.count then some k else none
  | _ => none

/-- Run an assignment. -/
def assign? (m : Generated) (table : List String) (a : Assignment) : Option (List String) :=
  (m.slot? a).map fun k => table.set k a.value

/-- The table after all assignments in turn. At first every slot holds the empty text. -/
def table? (m : Generated) : Option (List String) :=
  m.assignments.foldlM m.assign? (List.replicate m.count "")

variable {m : Generated}

theorem assign?_append {a : Assignment} {filled : List String} (h : m.slot? a = some filled.length)
    (n : Nat) :
    m.assign? (filled ++ List.replicate (n + 1) "") a =
      some (filled ++ [a.value] ++ List.replicate n "") := by
  rw [assign?, h, Option.map_some, List.set_append_right _ _ (le_refl _)]
  simp [List.replicate_succ]

/-- Assignments to consecutive slots put their values behind those that are there. -/
theorem foldlM_assign? (filled : List String) (todo : List Assignment)
    (h : todo.map m.slot? = (List.range' filled.length todo.length).map some) :
    todo.foldlM m.assign? (filled ++ List.replicate todo.length "") =
      some (filled ++ todo.map (·.value)) := by
  induction todo generalizing filled with
  | nil => simp
  | cons a todo ih =>
    obtain ⟨ha, htodo⟩ : m.slot? a = some filled.length ∧
        todo.map m.slot? = (List.range' (filled.length + 1) todo.length).map some := by
      simpa [List.range'_succ] using h
    have hrest := ih (filled ++ [a.value]) (by simpa using htodo)
    rw [List.foldlM_cons, List.length_cons, assign?_append ha, Option.bind_eq_bind,
      Option.bind_some, hrest]
    simp

/-- Assignments to all slots in order fill the table with their values. -/
theorem table?_eq (hcount : m.count = m.assignments.length)
    (h : m.assignments.map m.slot? = (List.range m.count).map some) :
    m.table? = some (m.assignments.map (·.value)) := by
  have hfilled := foldlM_assign? (m := m) [] m.assignments
  rw [List.length_nil, ← List.range_eq_range', ← hcount] at hfilled
  exact hfilled h

end Generated

namespace Definition

open Generated

variable {d : Definition}

/-- The constants of a module are the instructions of its definition. -/
theorem opcodesOf_generated (d : Definition) (ident : String) :
    d.generated.opcodesOf ident =
      (d.instructions.filter (·.ident = ident)).map (·.opcode) := by
  rw [opcodesOf, generated, instructions]
  induction d.records.toList with
  | nil => rfl
  | cons r rs ih =>
    obtain ⟨i, line⟩ := r
    cases line with
    | comment text => simpa [Reader.ofLine, List.filterMap_cons] using ih
    | blank => simpa [Reader.ofLine, List.filterMap_cons] using ih
    | instruction inst =>
      by_cases hident : inst.ident = ident <;>
        simpa [Reader.ofLine, List.filterMap_cons, hident] using ih

/-- An identifier that a definition has belongs to one instruction only. -/
theorem WellFormed.filter_ident (hw : d.WellFormed) {inst : Instruction}
    (hi : inst ∈ d.instructions) : d.instructions.filter (·.ident = inst.ident) = [inst] := by
  have hcongr : d.instructions.filter (·.ident = inst.ident) =
      d.instructions.filter (· = inst) := by
    refine List.filter_congr fun other hother => ?_
    have hinj := List.inj_on_of_nodup_map hw.nodup hother hi
    grind
  rw [hcongr, List.filter_eq, List.count_eq_one_of_mem hw.nodup.of_map hi, List.replicate_one]

theorem WellFormed.opcode_lt (hw : d.WellFormed) {inst : Instruction}
    (hi : inst ∈ d.instructions) : inst.opcode < d.count := by
  have hmem : inst.opcode ∈ d.instructions.map (·.opcode) := List.mem_map_of_mem hi
  rw [hw.opcodes] at hmem
  exact List.mem_range.mp hmem

theorem slot?_generated (hw : d.WellFormed) {inst : Instruction} (hi : inst ∈ d.instructions) :
    d.generated.slot? ⟨inst.ident, inst.name⟩ = some inst.opcode := by
  have hlt : inst.opcode < d.generated.count := hw.opcode_lt hi
  simp [slot?, opcodesOf_generated, hw.filter_ident hi, hlt]

theorem map_slot?_generated (hw : d.WellFormed) :
    d.generated.assignments.map d.generated.slot? = (List.range d.generated.count).map some := by
  have hslots : d.generated.assignments.map d.generated.slot? =
      d.instructions.map fun inst => some inst.opcode := by
    rw [generated, List.map_map]
    exact List.map_congr_left fun inst hi => slot?_generated hw hi
  have hopcodes := congrArg (List.map some) hw.opcodes
  rw [hslots, generated, ← hopcodes, List.map_map]
  rfl

/-- `CompleteTable d s m` says that the table of the module `m` maps every opcode of the definition
to the display name of its instruction. -/
structure CompleteTable (d : Definition) (s : Settings) (m : Generated) : Prop where
  count : m.count = d.instructions.length
  opcodes : d.instructions.map (·.opcode) = List.range m.count
  isMutable : m.isMutable = true ↔ m.assignments ≠ []
  /-- The index of an assignment is one constant, within the table and the opcode type. -/
  resolves : ∀ a ∈ m.assignments, ∃ k, m.opcodesOf a.index = [k] ∧ k < m.count ∧
    k < s.opcodeType.capacity
  once : ∀ k < m.count, m.assignments.countP (fun a => m.slot? a = some k) = 1
  table : ∃ table, m.table? = some table ∧ table.length = m.count ∧ "" ∉ table ∧
    ∀ inst ∈ d.instructions, table[inst.opcode]? = some inst.name

theorem WellFormed.getElem?_opcode (hw : d.WellFormed) {inst : Instruction}
    (hi : inst ∈ d.instructions) : d.instructions[inst.opcode]? = some inst := by
  obtain ⟨k, hk⟩ := List.getElem?_of_mem hi
  rw [hw.opcode_of_getElem? hk, hk]

theorem countP_slot?_generated (hw : d.WellFormed) {k : Nat} (hk : k < d.generated.count) :
    d.generated.assignments.countP (fun a => d.generated.slot? a = some k) = 1 := by
  have hcount : (d.generated.assignments.map d.generated.slot?).count (some k) = 1 := by
    rw [map_slot?_generated hw, List.count_map_of_injective _ _ (Option.some_injective _)]
    exact List.count_eq_one_of_mem List.nodup_range (List.mem_range.mpr hk)
  rw [List.count, List.countP_map] at hcount
  rw [← hcount]
  congr 1
  grind

/-- The module of a definition that was read from a text has a complete table. -/
theorem render_completeTable (mode : Mode) (text : String) (d : Definition) (s : Settings)
    (out : String) (hd : parse mode text = .ok d) (hout : d.render s = .ok out) :
    ∃ m, Reader.read? s out = some m ∧ CompleteTable d s m := by
  have hw := wellFormed_of_parse hd
  have hlength : d.count = d.instructions.length := hw.length_instructions.symm
  have hcapacity := exists_render_iff.mp ⟨out, hout⟩
  refine ⟨d.generated, Reader.read?_render hw hout, hlength, hw.opcodes, ?_, ?_, ?_, ?_⟩
  · simp [generated]
  · intro a ha
    obtain ⟨inst, hi, rfl⟩ := List.mem_map.mp ha
    have hlt := hw.opcode_lt hi
    refine ⟨inst.opcode, ?_, hlt, by omega⟩
    simp [opcodesOf_generated, hw.filter_ident hi]
  · exact fun k hk => countP_slot?_generated hw hk
  · have hnames : d.generated.assignments.map (·.value) = d.instructions.map (·.name) := by
      simp [generated, Function.comp_def]
    have htable := table?_eq (by simp [generated, hlength]) (map_slot?_generated hw)
    refine ⟨d.instructions.map (·.name), hnames ▸ htable, by simp [generated, hlength], ?_, ?_⟩
    · intro hmem
      obtain ⟨inst, hi, hname⟩ := List.mem_map.mp hmem
      exact (hw.isField hi).2.ne_nil (by simp [hname])
    · intro inst hi
      simp [hw.getElem?_opcode hi]

/-- Two instructions with a comment between them, and names that have to be escaped. -/
theorem render_completeTable_escaped : ∃ d out m,
    parse .strict "A \"\n//! x\nB \\" = .ok d ∧ d.render {} = .ok out ∧
      Reader.read? {} out = some m ∧ CompleteTable d {} m := by
  have hd := parse_eq_ok_iff.mpr ⟨show Source.rejected .strict
    (Text.lines "A \"\n//! x\nB \\") = [] by decide, rfl⟩
  have hcount := count_of_parse hd
  obtain ⟨out, hout⟩ := exists_render_iff (s := {}).mpr (by rw [hcount]; decide)
  obtain ⟨m, hm, htable⟩ := render_completeTable _ _ _ _ _ hd hout
  exact ⟨_, out, m, hd, hout, hm, htable⟩

end Definition

end OpcodeTable
