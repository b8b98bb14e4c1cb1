import OpcodeTable.Output.Render
import OpcodeTable.Proofs.Line
import OpcodeTable.Proofs.Output.Literal
import OpcodeTable.Proofs.Text.Rows

/-!
# Reading a generated module

`Reader.read?` takes a generated module apart by the grammar of the generated language, and needs
nothing but the settings for it. Constants and assignments are told apart from the fixed texts
around them by how their rows begin and end, whatever identifiers and names they hold.
-/

namespace OpcodeTable

/-- What one row among the constants says. -/
inductive Declaration where
  | comment (text : String)
  | blank
  | constant (ident : String) (opcode : Nat)
  deriving DecidableEq, Repr

/-- An assignment to the slot of the table that a constant numbers. -/
structure Assignment where
  index : String
  value : String
  deriving DecidableEq, Repr

/-- What a generated module says. -/
structure Generated where
  declarations : List Declaration
  /-- The literal of the count constant. -/
  count : Nat
  /-- Whether the local table is declared mutable. -/
  isMutable : Bool
  assignments : List Assignment
  deriving DecidableEq, Repr

namespace Reader

/-! ## The grammar -/

/-- Everything before the first declaration. -/
def opening (s : Settings) : String :=
  s.header ++ "pub mod " ++ s.moduleName ++ " \x7b\n"

/-- The text between the declarations and the count. -/
def countHead (s : Settings) : String :=
  "\n    pub const " ++ s.countName ++ ": usize = "

/-- The text between the count and the word that makes the local table mutable. -/
def tableHead (s : Settings) : String :=
  "\n\n    pub static " ++ s.tableName ++ ": [&str; " ++ s.countName ++ "] = \x7b\n        let"

/-- The declaration of the local table behind that word. -/
def tableInit (s : Settings) : String :=
  " table = [\"\"; " ++ s.countName ++ "];"

/-- Everything behind the last assignment. -/
def closing (s : Settings) : String :=
  "        table\n    \x7d;\n\n    pub fn " ++ s.accessorName ++ "(opcode: " ++
    s.opcodeType.name ++ ") -> &'static str \x7b\n        " ++ s.tableName ++
    "[opcode as usize]\n    \x7d\n\x7d\n"

/-- Read a row among the constants. -/
def declaration? (s : Settings) (row : List Char) : Option Declaration :=
  if row = [] then some .blank
  else if Line.commentMarker.isPrefixOf row then some (.comment (String.ofList row))
  else do
    let cs ← row.dropPrefix? "    pub const ".toList
    let cs ← cs.dropSuffix? [';']
    let (cs, opcode) ← Text.numberAtEnd? cs
    let cs ← cs.dropSuffix? (": " ++ s.opcodeType.name ++ " = ").toList
    return .constant (String.ofList (cs.rdropWhile (· = ' '))) opcode

/-- Read an assignment; its right side is a string literal. -/
def assignment? (row : List Char) : Option Assignment := do
  let cs ← row.dropPrefix? "        table[".toList
  let index := cs.takeWhile (· ≠ ' ')
  let _ :: cs := cs.dropWhile (· ≠ ' ') | none
  let cs ← cs.dropPrefix? "as usize]".toList
  let cs ← (cs.dropWhile (· = ' ')).dropPrefix? "= ".toList
  let (value, [';']) ← Literal.scan? cs | none
  return ⟨String.ofList index, String.ofList value⟩

/-- Whether a row ends in a string literal and a semicolon. -/
def endsInLiteral (row : List Char) : Bool :=
  ['"', ';'].isSuffixOf row

/-- Read the head of the table backwards: what stands before it, and whether it is mutable. -/
def binding? (s : Settings) (cs : List Char) : Option (List Char × Bool) := do
  let cs ← cs.dropSuffix? (tableInit s).toList
  match cs.dropSuffix? [' ', 'm', 'u', 't'] with
  | some cs => return (← cs.dropSuffix? (tableHead s).toList, true)
  | none => return (← cs.dropSuffix? (tableHead s).toList, false)

/-- Read the count backwards: what stands before it, and the number. -/
def count? (s : Settings) (cs : List Char) : Option (List Char × Nat) := do
  let cs ← cs.dropSuffix? [';']
  let (cs, count) ← Text.numberAtEnd? cs
  return (← cs.dropSuffix? (countHead s).toList, count)

/-- Read a generated module. -/
def read? (s : Settings) (text : String) : Option Generated := do
  let cs ← text.toList.dropPrefix? (opening s).toList
  let cs ← cs.dropSuffix? (closing s).toList
  let rows ← Text.rows? cs
  -- Names in the settings may be spread over rows, so the parts are found from the back.
  let (cs, isMutable) ← binding? s (['\n'].intercalate (rows.rdropWhile endsInLiteral))
  let (cs, count) ← count? s cs
  let declarations ← (← Text.rows? cs).mapM (declaration? s)
  let assignments ← (rows.rtakeWhile endsInLiteral).mapM assignment?
  return { declarations, count, isMutable, assignments }

/-! ## Constants -/

/-- What the generated module says for a line. -/
def ofLine : Line → Declaration
  | .comment text => .comment (Fragment.comment text)
  | .blank => .blank
  | .instruction inst => .constant inst.ident inst.opcode

theorem commentMarker_prefix_comment {text : String}
    (h : Line.commentMarker <+: text.toList) :
    Line.commentMarker <+: (Fragment.comment text).toList := by
  unfold Fragment.comment
  split
  · simp [Line.commentMarker]
  · exact h

theorem toList_opcodeConst (s : Settings) (maxlen : Nat) (inst : Instruction) :
    (Definition.declaration s maxlen (.instruction inst)).toList =
      "    pub const ".toList ++ (((inst.ident.toList ++
        List.replicate (maxlen - inst.ident.length) ' ') ++
          (": " ++ s.opcodeType.name ++ " = ").toList ++ (toString inst.opcode).toList) ++
            [';']) := by
  simp [Definition.declaration, Fragment.opcodeConst, Fragment.indent, Fragment.spaces,
    Text.repeated]

/-- The padding is told apart from an identifier, which holds no space. -/
theorem rdropWhile_padding {ident : String} (h : IsField ident) (k : Nat) :
    (ident.toList ++ List.replicate k ' ').rdropWhile (· = ' ') = ident.toList := by
  refine Text.rdropWhile_append (by simp) fun c hc => ?_
  have := List.mem_of_getLast? hc
  have := h.space_notMem
  grind

theorem declaration?_declaration (s : Settings) (maxlen : Nat) {line : Line}
    (h : line.WellFormed) :
    declaration? s (Definition.declaration s maxlen line).toList = some (ofLine line) := by
  cases line with
  | comment text =>
    obtain ⟨hmarker, -⟩ := h
    have hmarker := commentMarker_prefix_comment hmarker
    have hne : (Fragment.comment text).toList ≠ [] := by
      rintro heq
      simp [heq, Line.commentMarker] at hmarker
    rw [Definition.declaration, declaration?, if_neg hne,
      if_pos (List.isPrefixOf_iff_prefix.mpr hmarker), String.ofList_toList, ofLine]
  | blank => simp [declaration?, Definition.declaration, ofLine]
  | instruction inst =>
    obtain ⟨hident, -⟩ := h
    have hspace : [' '] <:+ inst.ident.toList ++ List.replicate (maxlen - inst.ident.length) ' ' ++
        (": " ++ s.opcodeType.name ++ " = ").toList :=
      Text.suffix_toList_append (by simp [List.suffix_cons_iff]) _ _
    rw [toList_opcodeConst, declaration?, if_neg (by simp), if_neg (by simp [Line.commentMarker])]
    simp only [Text.dropPrefix?_append, Text.dropSuffix?_append, Text.numberAtEnd?_append hspace,
      rdropWhile_padding hident, String.ofList_toList, Option.bind_eq_bind, Option.bind_some,
      Option.pure_def, ofLine]

theorem lf_notMem_name (t : OpcodeType) : '\n' ∉ t.name.toList := by
  cases t <;> decide

theorem lf_notMem_declaration (s : Settings) (maxlen : Nat) {line : Line} (h : line.WellFormed) :
    '\n' ∉ (Definition.declaration s maxlen line).toList := by
  cases line with
  | comment text =>
    obtain ⟨-, hlf⟩ := h
    simp only [Definition.declaration, Fragment.comment]
    split
    · next heq => simp_all
    · exact hlf
  | blank => simp [Definition.declaration]
  | instruction inst =>
    obtain ⟨hident, -⟩ := h
    rw [toList_opcodeConst]
    simp [lf_notMem_name, Text.lf_notMem_toDigits, hident.lf_notMem]

/-! ## Assignments -/

theorem toList_assignment (maxlen : Nat) (inst : Instruction) :
    (Definition.assignment maxlen inst).toList =
      "        table[".toList ++ (inst.ident.toList ++ ' ' :: ("as usize]".toList ++
        (List.replicate (maxlen - inst.ident.length + 1) ' ' ++ ("= ".toList ++
          '"' :: ((Fragment.escape inst.name).toList ++ '"' :: [';']))))) := by
  simp [Definition.assignment, Fragment.nameAssign, Fragment.indent, Fragment.localTable,
    Fragment.spaces, Text.repeated, List.replicate_succ']

theorem dropWhile_padding (k : Nat) (rest : List Char) :
    (List.replicate k ' ' ++ ("= ".toList ++ rest)).dropWhile (· = ' ') = "= ".toList ++ rest := by
  rw [List.dropWhile_append_of_pos (by simp)]
  simp

theorem assignment?_assignment (maxlen : Nat) {inst : Instruction} (h : IsField inst.ident) :
    assignment? (Definition.assignment maxlen inst).toList = some ⟨inst.ident, inst.name⟩ := by
  rw [toList_assignment, assignment?]
  simp only [Option.bind_eq_bind]
  -- the identifier ends at the first space behind it
  rw [Text.dropPrefix?_append, Option.bind_some, (Text.takeWhile_append_cons h.space_notMem _).1,
    (Text.takeWhile_append_cons h.space_notMem _).2]
  dsimp only
  rw [Text.dropPrefix?_append, Option.bind_some, dropWhile_padding, Text.dropPrefix?_append,
    Option.bind_some, Literal.scan?_escape]
  simp only [Option.bind_some, String.ofList_toList, Option.pure_def]

theorem endsInLiteral_assignment (maxlen : Nat) (inst : Instruction) :
    endsInLiteral (Definition.assignment maxlen inst).toList = true := by
  rw [endsInLiteral, List.isSuffixOf_iff_suffix, Definition.assignment, Fragment.nameAssign,
    String.toList_append]
  exact List.suffix_append _ "\";".toList

theorem lf_notMem_assignment (maxlen : Nat) {inst : Instruction} (hi : IsField inst.ident)
    (hn : IsField inst.name) : '\n' ∉ (Definition.assignment maxlen inst).toList := by
  have hescape : '\n' ∉ (Fragment.escape inst.name).toList := by
    rw [Literal.toList_escape, List.mem_flatMap]
    rintro ⟨c, hc, hlf⟩
    have := hn.lf_notMem
    grind [Literal.escapeChar]
  rw [toList_assignment]
  simp [hi.lf_notMem, hescape]

end Reader

end OpcodeTable
