import OpcodeTable.Proofs.Output.Readback

/-!
# Nothing is lost in the generated module

The rows behind the header are the source lines in their order, framed by thirteen rows and as many
assignments as there are instructions. A definition can be told from its module, up to the comment
marks that the module does not keep.
-/

namespace OpcodeTable

open Text

/-- No name in the settings is spread over several rows. The header may be. -/
structure Settings.Unbroken (s : Settings) : Prop where
  moduleName : '\n' ∉ s.moduleName.toList
  countName : '\n' ∉ s.countName.toList
  tableName : '\n' ∉ s.tableName.toList
  accessorName : '\n' ∉ s.accessorName.toList

/-- A line with its comment as the generated module writes it. -/
def Line.plain : Line → Line
  | comment text => comment (Fragment.comment text)
  | blank => blank
  | instruction inst => instruction inst

def Record.plain (r : Record) : Record :=
  { r with line := r.line.plain }

namespace Definition

variable {d d' : Definition} {s : Settings} {out : String}

/-! ## The rows -/

/-- The rows of the generated module behind the header. -/
def moduleRows (d : Definition) (s : Settings) : List String :=
  [Fragment.moduleOpen s] ++
    d.records.toList.map (fun r => declaration s d.maxlen r.line) ++
    ["", Fragment.countConst s d.count, "",
      "    pub static " ++ s.tableName ++ ": [&str; " ++ s.countName ++ "] = \x7b",
      "        " ++ (if d.instructions.isEmpty then "let" else "let mut") ++ " table = [\"\"; " ++
        s.countName ++ "];"] ++
    d.instructions.map (assignment d.maxlen) ++
    ["        table", "    \x7d;", "",
      "    pub fn " ++ s.accessorName ++ "(opcode: " ++ s.opcodeType.name ++
        ") -> &'static str \x7b",
      "        " ++ s.tableName ++ "[opcode as usize]", "    \x7d", "\x7d"]

theorem length_moduleRows (d : Definition) (s : Settings) :
    (d.moduleRows s).length = d.records.size + d.instructions.length + 13 := by
  simp [moduleRows]
  omega

theorem render_eq_moduleRows (h : d.render s = .ok out) :
    out = s.header ++ String.join ((d.moduleRows s).map (· ++ "\n")) := by
  rw [← String.toList_inj, Reader.toList_render_eq_joinRows h]
  by_cases hempty : d.instructions = [] <;>
    simp [hempty, joinRows, moduleRows, fragments, Function.comp_def, List.flatMap_map,
      Fragment.tableOpen, Fragment.tableClose, Fragment.moduleClose, Fragment.accessor,
      Fragment.indent, Fragment.localTable]

theorem lf_notMem_moduleRows (hw : d.WellFormed) (hs : s.Unbroken) :
    ∀ row ∈ d.moduleRows s, '\n' ∉ row.toList := by
  have htype := Reader.lf_notMem_name s.opcodeType
  have hnumber := lf_notMem_toDigits d.count
  have hdeclaration : ∀ r ∈ d.records.toList, '\n' ∉ (declaration s d.maxlen r.line).toList :=
    fun r hr => Reader.lf_notMem_declaration s d.maxlen (hw.line r hr)
  have hassignment : ∀ inst ∈ d.instructions, '\n' ∉ (assignment d.maxlen inst).toList :=
    fun inst hi => Reader.lf_notMem_assignment d.maxlen (hw.isField hi).1 (hw.isField hi).2
  obtain ⟨hmodule, hcount, htable, haccessor⟩ := hs
  have hlet : '\n' ∉ (if d.instructions.isEmpty then "let" else "let mut").toList := by
    split <;> decide
  intro row hrow
  simp only [moduleRows, List.mem_append, List.mem_cons, List.mem_map, List.not_mem_nil, or_false]
    at hrow
  rcases hrow with (((rfl | ⟨r, hr, rfl⟩) | rfl | rfl | rfl | rfl | rfl) | ⟨inst, hi, rfl⟩) |
    rfl | rfl | rfl | rfl | rfl | rfl | rfl
  all_goals
    simp_all [Fragment.moduleOpen, Fragment.countConst, Fragment.indent]

/-- The row of the source line with a given index. -/
theorem moduleRows_getElem? (d : Definition) (s : Settings) {k : Nat} {r : Record}
    (h : d.records[k]? = some r) :
    (d.moduleRows s)[k + 1]? = some (declaration s d.maxlen r.line) := by
  obtain ⟨hk, rfl⟩ := Array.getElem?_eq_some_iff.mp h
  simp [moduleRows, List.getElem?_append, hk]

/-! ## The definition of a module -/

/-- Records are known from their indices, their declarations and the names of their
instructions. -/
theorem map_plain_eq {rs rs' : List Record} (hindex : rs.map (·.index) = rs'.map (·.index))
    (hline : rs.map (Reader.ofLine ·.line) = rs'.map (Reader.ofLine ·.line))
    (hname : (rs.filterMap (·.line.instruction?)).map (·.name) =
      (rs'.filterMap (·.line.instruction?)).map (·.name)) :
    rs.map Record.plain = rs'.map Record.plain := by
  induction rs generalizing rs' with
  | nil => simp_all
  | cons r rs ih =>
    obtain _ | ⟨r', rs'⟩ := rs'
    · simp at hline
    obtain ⟨i, line⟩ := r
    obtain ⟨i', line'⟩ := r'
    obtain ⟨rfl, hindices⟩ : i = i' ∧ rs.map (·.index) = rs'.map (·.index) := by
      simpa using hindex
    obtain ⟨hof, hlines⟩ : Reader.ofLine line = Reader.ofLine line' ∧
        rs.map (Reader.ofLine ·.line) = rs'.map (Reader.ofLine ·.line) := by
      simpa using hline
    cases line <;> cases line' <;> simp [Reader.ofLine] at hof
    case comment.comment text text' =>
      have htail := ih hindices hlines (by simpa [List.filterMap_cons] using hname)
      simp [Record.plain, Line.plain, hof, htail]
    case blank.blank =>
      have htail := ih hindices hlines (by simpa [List.filterMap_cons] using hname)
      simp [htail]
    case instruction.instruction inst inst' =>
      obtain ⟨hinst, hnames⟩ : inst.name = inst'.name ∧
          (rs.filterMap (·.line.instruction?)).map (·.name) =
            (rs'.filterMap (·.line.instruction?)).map (·.name) := by
        simpa [List.filterMap_cons] using hname
      obtain rfl : inst = inst' := by grind [Instruction]
      rw [List.map_cons, List.map_cons, ih hindices hlines hnames]

/-- Definitions that are read from texts and have one module agree in their records. -/
theorem plain_eq_of_render_eq (hw : d.WellFormed) (hw' : d'.WellFormed)
    (h : d.render s = .ok out) (h' : d'.render s = .ok out) :
    d.records.toList.map Record.plain = d'.records.toList.map Record.plain := by
  have hgenerated : d.generated = d'.generated :=
    Option.some.inj ((Reader.read?_render hw h).symm.trans (Reader.read?_render hw' h'))
  have hdeclarations := congrArg Generated.declarations hgenerated
  have hassignments := congrArg Generated.assignments hgenerated
  simp only [generated] at hdeclarations hassignments
  refine map_plain_eq ?_ hdeclarations ?_
  · have hsize : d.records.size = d'.records.size := by
      simpa using congrArg List.length hdeclarations
    rw [hw.index, hw'.index, hsize]
  · simpa [Function.comp_def, instructions] using
      congrArg (List.map Assignment.value) hassignments

/-- `Lossless mode text d s out` says that the module `out` keeps all that the definition `d`, which
was read from the text, says. -/
structure Lossless (mode : Mode) (text : String) (d : Definition) (s : Settings) (out : String) :
    Prop where
  /-- Reading gives the records in order, the count, and the names in the order of the opcodes. -/
  read : ∃ isMutable, Reader.read? s out = some
    { declarations := d.records.toList.map fun r => Reader.ofLine r.line
      count := d.count
      isMutable := isMutable
      assignments := d.instructions.map fun inst => ⟨inst.ident, inst.name⟩ }
  opcodes : d.instructions.map (·.opcode) = List.range d.count
  /-- Behind the header every source line has the row of its own index after the first row. -/
  rows : ∃ rows : List String, out = s.header ++ String.join (rows.map (· ++ "\n")) ∧
    (∀ row ∈ rows, '\n' ∉ row.toList) ∧
    rows.length = d.records.size + d.count + 13 ∧
    rows[0]? = some (Fragment.moduleOpen s) ∧
    ∀ k raw, (Text.lines text)[k]? = some raw → ∃ opcode line,
      Line.classify mode opcode raw = .ok line ∧ d.records[k]? = some ⟨k, line⟩ ∧
      rows[k + 1]? = some (declaration s d.maxlen line)
  /-- Only definitions that agree with this one up to comment marks have this module. -/
  injective : ∀ mode' text' d', parse mode' text' = .ok d' → d'.render s = .ok out →
    d'.records.toList.map Record.plain = d.records.toList.map Record.plain

/-- A definition that was read from a text has a module if the opcode type can number its
instructions, and the module keeps all that the definition says. -/
theorem render_lossless (mode : Mode) (text : String) (d : Definition) (s : Settings)
    (hd : parse mode text = .ok d) (hcount : d.count ≤ s.opcodeType.capacity)
    (hs : s.Unbroken) : ∃ out, d.render s = .ok out ∧ Lossless mode text d s out := by
  have hw := wellFormed_of_parse hd
  obtain ⟨out, hout⟩ := exists_render_iff.mpr hcount
  refine ⟨out, hout, ⟨⟨_, Reader.read?_render hw hout⟩, hw.opcodes, ?_, ?_⟩⟩
  · refine ⟨d.moduleRows s, render_eq_moduleRows hout, lf_notMem_moduleRows hw hs, ?_, rfl, ?_⟩
    · rw [length_moduleRows, hw.length_instructions]
    · intro k raw hk
      obtain ⟨line, hc, hr⟩ := record_of_parse hd hk
      exact ⟨_, line, hc, hr, moduleRows_getElem? d s hr⟩
  · intro mode' text' d' hd' hout'
    exact plain_eq_of_render_eq (wellFormed_of_parse hd') hw hout' hout

/-- A comment with a mark, a blank line, and a name that has to be escaped. -/
theorem render_lossless_escaped : ∃ d out, parse .strict "//! x\n\nA \"\\\r" = .ok d ∧
    d.render {} = .ok out ∧ Lossless .strict "//! x\n\nA \"\\\r" d {} out := by
  have hd := parse_eq_ok_iff.mpr ⟨show Source.rejected .strict
    (Text.lines "//! x\n\nA \"\\\r") = [] by decide, rfl⟩
  have hcount := count_of_parse hd
  obtain ⟨out, hout, hlossless⟩ := render_lossless _ _ _ {} hd (by rw [hcount]; decide)
    ⟨by decide, by decide, by decide, by decide⟩
  exact ⟨_, out, hd, hout, hlossless⟩

end Definition

end OpcodeTable
