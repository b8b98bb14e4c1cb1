import OpcodeTable.Proofs.Output.Readback

/-!
# The names that a module declares

A module declares the identifiers of its instructions, and the three names of values that the
settings give. The identifiers differ from one another, but nothing keeps them from being a name of
the settings, or that of the local table.
-/

namespace OpcodeTable

/-- The names of the count, the table and the accessor. -/
def Settings.valueNames (s : Settings) : List String :=
  [s.countName, s.tableName, s.accessorName]

/-- The name that a row declares. -/
def Declaration.name? : Declaration → Option String
  | constant ident _ => some ident
  | comment _ => none
  | blank => none

namespace Generated

/-- The names of the opcode constants, in their order. -/
def constants (m : Generated) : List String :=
  m.declarations.filterMap Declaration.name?

/-- The names of all values that a module declares. The constants stand in front of the three
values whose names are part of the grammar that the settings give. -/
def declaredNames (m : Generated) (s : Settings) : List String :=
  m.constants ++ s.valueNames

variable {m : Generated} {s : Settings}

theorem count_declaredNames (hm : m.constants.Nodup) (hs : s.valueNames.Nodup) (name : String) :
    (m.declaredNames s).count name =
      (if name ∈ m.constants then 1 else 0) + (if name ∈ s.valueNames then 1 else 0) := by
  rw [declaredNames, List.count_append, hm.count, hs.count]

theorem nodup_declaredNames_iff (hm : m.constants.Nodup) (hs : s.valueNames.Nodup) :
    (m.declaredNames s).Nodup ↔ ∀ name ∈ m.constants, name ∉ s.valueNames := by
  constructor
  · intro hnodup name hconstant hvalue
    exact List.disjoint_of_nodup_append hnodup hconstant hvalue
  · intro h
    exact hm.append hs fun name hconstant hvalue => h name hconstant hvalue

end Generated

namespace Definition

open Generated Text

variable {mode : Mode} {text : String} {d : Definition} {s : Settings} {out : String}

/-- A row declares the identifier of its line. -/
theorem name?_ofLine (line : Line) :
    (Reader.ofLine line).name? = line.instruction?.map (·.ident) := by
  cases line <;> rfl

theorem constants_generated (d : Definition) :
    d.generated.constants = d.instructions.map (·.ident) := by
  rw [constants, generated, List.filterMap_map, instructions, List.map_filterMap]
  exact List.filterMap_congr fun r _ => name?_ofLine r.line

/-- The head of the count, the head of the table, and the end of the module declare the values that
the settings name. -/
theorem exists_eq_append_of_render (hout : d.render s = .ok out) :
    ∃ front count binding assignments : String, out = front ++ Reader.countHead s ++ count ++
      Reader.tableHead s ++ binding ++ Reader.tableInit s ++ assignments ++ Reader.closing s := by
  refine ⟨Reader.opening s ++ String.ofList (joinRows (Reader.declarationRows s d)),
    toString d.count ++ ";", if d.instructions.isEmpty then "" else " mut",
    String.ofList ('\n' :: joinRows (Reader.assignmentRows d)), ?_⟩
  rw [← String.toList_inj, Reader.toList_render hout, Reader.front]
  cases d.instructions.isEmpty <;>
    simp only [String.toList_append, String.toList_ofList, List.append_assoc] <;> rfl

/-- The constants of a module are the identifiers of the text. -/
theorem exists_read?_of_render (hd : parse mode text = .ok d) (hout : d.render s = .ok out) :
    ∃ m, Reader.read? s out = some m ∧ m.constants = Source.idents mode (lines text) := by
  refine ⟨d.generated, Reader.read?_render (wellFormed_of_parse hd) hout, ?_⟩
  rw [constants_generated, map_ident_of_parse hd]

/-- Only faults of the text and the size of the opcode type keep identifiers from a module. -/
theorem exists_constants_eq_idents (mode : Mode) (text : String) (s : Settings)
    (hr : Source.rejected mode (lines text) = [])
    (hcapacity : (Source.idents mode (lines text)).length ≤ s.opcodeType.capacity) :
    ∃ d out m, parse mode text = .ok d ∧ d.render s = .ok out ∧ Reader.read? s out = some m ∧
      m.constants = Source.idents mode (lines text) := by
  obtain ⟨d, out, hd, hout⟩ := exists_parse_render hr hcapacity
  obtain ⟨m, hm, hconstants⟩ := exists_read?_of_render hd hout
  exact ⟨d, out, m, hd, hout, hm, hconstants⟩

/-- `Declares mode text s out m` says which names the module `out` of a text, which is read as `m`,
declares more than once. -/
structure Declares (mode : Mode) (text : String) (s : Settings) (out : String) (m : Generated) :
    Prop where
  read : Reader.read? s out = some m
  /-- The values that the settings name are declared in the parts of these names. -/
  values : ∃ front count binding assignments : String, out = front ++ Reader.countHead s ++ count ++
    Reader.tableHead s ++ binding ++ Reader.tableInit s ++ assignments ++ Reader.closing s
  constants : m.constants = Source.idents mode (lines text)
  nodup_constants : m.constants.Nodup
  /-- A name is declared once as an identifier and once as a name of the settings. -/
  count : ∀ name, (m.declaredNames s).count name =
    (if name ∈ Source.idents mode (lines text) then 1 else 0) +
      (if name ∈ s.valueNames then 1 else 0)
  nodup_iff : (m.declaredNames s).Nodup ↔
    ∀ ident ∈ Source.idents mode (lines text), ident ∉ s.valueNames
  localTable : Fragment.localTable ∈ m.constants ↔
    Fragment.localTable ∈ Source.idents mode (lines text)

/-- With different names in the settings, a module declares a name twice exactly when an identifier
of the text is one of them. -/
theorem render_declares (mode : Mode) (text : String) (d : Definition) (s : Settings)
    (out : String) (hd : parse mode text = .ok d) (hs : s.valueNames.Nodup)
    (hout : d.render s = .ok out) : ∃ m, Declares mode text s out m := by
  obtain ⟨m, hm, hconstants⟩ := exists_read?_of_render hd hout
  have hnodup : m.constants.Nodup := by
    rw [hconstants, ← map_ident_of_parse hd]
    exact (wellFormed_of_parse hd).nodup
  refine ⟨m, hm, exists_eq_append_of_render hout, hconstants, hnodup, fun name => ?_, ?_,
    by rw [hconstants]⟩
  · rw [count_declaredNames hnodup hs, hconstants]
  · rw [nodup_declaredNames_iff hnodup hs, hconstants]

/-- Names that the comment and the display name of a text also hold. -/
theorem render_declares_default : ∃ d out m,
    parse .lenient "// get_name\nA get_name\nB table" = .ok d ∧ ({} : Settings).valueNames.Nodup ∧
      d.render {} = .ok out ∧ Declares .lenient "// get_name\nA get_name\nB table" {} out m := by
  obtain ⟨d, out, hd, hout⟩ : ∃ d out,
      parse .lenient "// get_name\nA get_name\nB table" = .ok d ∧ d.render {} = .ok out :=
    exists_parse_render (by decide) (by decide)
  have hs : ({} : Settings).valueNames.Nodup := by decide
  obtain ⟨m, hdeclares⟩ := render_declares _ _ _ _ _ hd hs hout
  exact ⟨d, out, m, hd, hs, hout, hdeclares⟩

/-- The identifier of an instruction may be the default name of the count, or that of the local
table. -/
theorem exists_declared_twice : ({} : Settings).valueNames.Nodup ∧
    (∀ mode, ∃ d out m, parse mode "INSTRUCTION_NUMBER x" = .ok d ∧ d.render {} = .ok out ∧
      Reader.read? {} out = some m ∧ ¬(m.declaredNames {}).Nodup) ∧
    ∀ mode, ∃ d out m, parse mode "table x" = .ok d ∧ d.render {} = .ok out ∧
      Reader.read? {} out = some m ∧ Fragment.localTable ∈ m.constants := by
  refine ⟨by decide, fun mode => ?_, fun mode => ?_⟩
  · obtain ⟨d, out, m, hd, hout, hm, hconstants⟩ :=
      exists_constants_eq_idents mode "INSTRUCTION_NUMBER x" {} (by cases mode <;> decide)
        (by cases mode <;> decide)
    refine ⟨d, out, m, hd, hout, hm, ?_⟩
    rw [declaredNames, hconstants]
    cases mode <;> decide
  · obtain ⟨d, out, m, hd, hout, hm, hconstants⟩ :=
      exists_constants_eq_idents mode "table x" {} (by cases mode <;> decide)
        (by cases mode <;> decide)
    refine ⟨d, out, m, hd, hout, hm, ?_⟩
    rw [hconstants]
    cases mode <;> decide

end Definition

end OpcodeTable
