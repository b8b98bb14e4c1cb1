import OpcodeTable.Proofs.Definition.Parse
import OpcodeTable.Proofs.Output.Reader

/-!
# Reading back what was generated

`Reader.read?` finds in a generated module exactly what the definition says, whatever the settings
are. No fragment can be taken for another one, and no text of a definition holds a line feed.
-/

namespace OpcodeTable

open Text

/-- What the module generated from a definition says. -/
def Definition.generated (d : Definition) : Generated where
  declarations := d.records.toList.map fun r => Reader.ofLine r.line
  count := d.count
  isMutable := !d.instructions.isEmpty
  assignments := d.instructions.map fun inst => ⟨inst.ident, inst.name⟩

variable {d : Definition} {s : Settings} {out : String}

/-- A definition has a module exactly when the opcode type can number its instructions. -/
theorem Definition.exists_render_iff :
    (∃ out, d.render s = .ok out) ↔ d.count ≤ s.opcodeType.capacity := by
  rw [← not_lt, Definition.render]
  split <;> simp_all

/-- A text without faults, and not too long for the opcode type, has a module. -/
theorem Definition.exists_parse_render {mode : Mode} {text : String}
    (hr : Source.rejected mode (lines text) = [])
    (hcapacity : (Source.idents mode (lines text)).length ≤ s.opcodeType.capacity) :
    ∃ d out, parse mode text = .ok d ∧ d.render s = .ok out := by
  obtain ⟨d, hd⟩ := exists_parse_iff.mpr hr
  obtain ⟨out, hout⟩ := exists_render_iff.mpr (count_of_parse hd ▸ hcapacity)
  exact ⟨d, out, hd, hout⟩

theorem Definition.WellFormed.isField (h : d.WellFormed) {inst : Instruction}
    (hi : inst ∈ d.instructions) : IsField inst.ident ∧ IsField inst.name := by
  obtain ⟨r, hr, hl⟩ := List.mem_filterMap.mp hi
  have hline := h.line r hr
  rw [Line.instruction?_eq_some_iff.mp hl] at hline
  exact hline

namespace Reader

/-! ## The parts of a generated module -/

/-- The rows of the declarations. -/
def declarationRows (s : Settings) (d : Definition) : List (List Char) :=
  d.records.toList.map fun r => (Definition.declaration s d.maxlen r.line).toList

def assignmentRows (d : Definition) : List (List Char) :=
  d.instructions.map fun inst => (Definition.assignment d.maxlen inst).toList

/-- The generated text from the first declaration to the local table. -/
def front (s : Settings) (d : Definition) : List Char :=
  joinRows (declarationRows s d) ++ (countHead s).toList ++ (toString d.count).toList ++ [';'] ++
    (tableHead s).toList ++ (if d.instructions.isEmpty then [] else [' ', 'm', 'u', 't']) ++
      (tableInit s).toList

/-- Every fragment is ended by a line feed. -/
theorem toList_render_eq_joinRows (h : d.render s = .ok out) :
    out.toList = s.header.toList ++ joinRows ((d.fragments s).map String.toList) := by
  have hout : s.header ++ "\n".intercalate (d.fragments s) ++ "\n" = out := by
    unfold Definition.render at h
    split at h
    · simp at h
    · simpa using h
  have hne : (d.fragments s).map String.toList ≠ [] := by simp [Definition.fragments]
  rw [← hout, ← intercalate_append_lf hne]
  simp

theorem toList_render (h : d.render s = .ok out) :
    out.toList = (opening s).toList ++ (front s d ++ '\n' :: joinRows (assignmentRows d) ++
      (closing s).toList) := by
  rw [toList_render_eq_joinRows h]
  unfold Definition.fragments front opening countHead tableHead tableInit closing
  by_cases hempty : d.instructions = [] <;>
    simp [hempty, declarationRows, assignmentRows, Function.comp_def, Fragment.moduleOpen,
      Fragment.countConst, Fragment.tableOpen, Fragment.tableClose, Fragment.moduleClose,
      Fragment.accessor, Fragment.indent, Fragment.localTable]

/-! ## Reading the parts -/

/-- The head of a table that is not mutable ends in another word. -/
theorem not_mut_suffix_tableHead (s : Settings) (cs : List Char) :
    ¬[' ', 'm', 'u', 't'] <:+ cs ++ (tableHead s).toList := by
  have hlet : [' ', 'l', 'e', 't'] <:+ cs ++ (tableHead s).toList := by
    unfold tableHead
    exact suffix_toList_append (by simp [List.suffix_cons_iff]) _ _
  exact not_suffix_of_suffix hlet (by simp) (by simp)

theorem binding?_append (s : Settings) (cs : List Char) (isEmpty : Bool) :
    binding? s (cs ++ (tableHead s).toList ++ (if isEmpty then [] else [' ', 'm', 'u', 't']) ++
      (tableInit s).toList) = some (cs, !isEmpty) := by
  rw [binding?, dropSuffix?_append]
  cases isEmpty with
  | false =>
    simp only [Bool.false_eq_true, if_false, dropSuffix?_append, Option.bind_eq_bind,
      Option.bind_some, Option.pure_def, Bool.not_false]
  | true =>
    simp only [if_true, List.append_nil, dropSuffix?_eq_none (not_mut_suffix_tableHead s cs),
      dropSuffix?_append, Option.bind_eq_bind, Option.bind_some, Option.pure_def,
      Bool.not_true]

theorem count?_append (s : Settings) (cs : List Char) (n : Nat) :
    count? s (cs ++ (countHead s).toList ++ (toString n).toList ++ [';']) = some (cs, n) := by
  have hspace : [' '] <:+ cs ++ (countHead s).toList := by
    unfold countHead
    exact suffix_toList_append (by simp [List.suffix_cons_iff]) _ _
  rw [count?, dropSuffix?_append]
  simp only [numberAtEnd?_append hspace, dropSuffix?_append, Option.bind_eq_bind,
    Option.bind_some, Option.pure_def]

theorem mapM_eq_some_map {α β γ : Type} {l : List α} {f : α → β} {g : β → Option γ} {k : α → γ}
    (h : ∀ a ∈ l, g (f a) = some (k a)) : (l.map f).mapM g = some (l.map k) := by
  induction l with
  | nil => rfl
  | cons a l ih =>
    obtain ⟨ha, hl⟩ := List.forall_mem_cons.mp h
    simp [ha, ih hl]

/-- The row of the local table ends in a bracket and a semicolon, not in a string literal. -/
theorem not_endsInLiteral_front (s : Settings) (d : Definition) {row : List Char}
    (h : ((front s d).splitOn '\n').getLast? = some row) : endsInLiteral row = false := by
  have hrow := suffix_of_getLast?_splitOn h
  have hfront : [']', ';'] <:+ front s d := by
    unfold front tableInit
    exact suffix_toList_append (by simp) _ _
  rw [endsInLiteral, Bool.eq_false_iff, Ne, List.isSuffixOf_iff_suffix]
  exact fun hends => not_suffix_of_suffix hfront (by simp) (by simp) (hends.trans hrow)

theorem lf_notMem_of_mem_declarationRows (hw : d.WellFormed) :
    ∀ row ∈ declarationRows s d, '\n' ∉ row := by
  intro row hrow
  obtain ⟨r, hr, rfl⟩ := List.mem_map.mp hrow
  exact lf_notMem_declaration s d.maxlen (hw.line r hr)

theorem lf_notMem_of_mem_assignmentRows (hw : d.WellFormed) :
    ∀ row ∈ assignmentRows d, '\n' ∉ row := by
  intro row hrow
  obtain ⟨inst, hi, rfl⟩ := List.mem_map.mp hrow
  exact lf_notMem_assignment d.maxlen (hw.isField hi).1 (hw.isField hi).2

/-- A module generated from a well-formed definition is read as what the definition says. -/
theorem read?_render (hw : d.WellFormed) (h : d.render s = .ok out) :
    read? s out = some d.generated := by
  have hends : ∀ row ∈ assignmentRows d, endsInLiteral row = true := by
    intro row hrow
    obtain ⟨inst, -, rfl⟩ := List.mem_map.mp hrow
    exact endsInLiteral_assignment d.maxlen inst
  have hnends : ∀ row, ((front s d).splitOn '\n').getLast? = some row →
      endsInLiteral row = false := fun row => not_endsInLiteral_front s d
  have hd : (declarationRows s d).mapM (declaration? s) = some d.generated.declarations :=
    mapM_eq_some_map fun r hr => declaration?_declaration s d.maxlen (hw.line r hr)
  have ha : (assignmentRows d).mapM assignment? = some d.generated.assignments :=
    mapM_eq_some_map fun inst hi => assignment?_assignment d.maxlen (hw.isField hi).1
  -- The assignments are the last rows that end in a literal, and the rows before them are `front`.
  rw [read?, toList_render h]
  simp only [dropPrefix?_append, dropSuffix?_append, Option.bind_eq_bind, Option.bind_some,
    rows?_append_joinRows _ (lf_notMem_of_mem_assignmentRows hw), rdropWhile_append hends hnends,
    rtakeWhile_append hends hnends, List.intercalate_splitOn]
  rw [front]
  simp only [binding?_append, count?_append, Option.bind_some,
    rows?_joinRows (lf_notMem_of_mem_declarationRows hw), hd, ha, Option.pure_def,
    Definition.generated]

end Reader

end OpcodeTable
