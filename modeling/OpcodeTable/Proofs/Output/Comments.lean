import OpcodeTable.Proofs.Output.Statements
import OpcodeTable.Proofs.Source.Modes

/-!
# Comments

A source line that starts with the comment marker takes no opcode, and its row in the generated
module starts with the marker as well. One exclamation mark behind the marker is left out there, so
the row is documentation of the module exactly when the source line has two of them. Identifiers
hold no marker at their start, unless lenient reading leaves out blanks in front of it. A marker
anywhere in an identifier cuts off the rows of its instruction.
-/

namespace OpcodeTable

open Text

/-! ## Documentation of the module -/

namespace Fragment

variable {text : String}

/-- A comment that starts with these characters is documentation of the module around it. -/
def innerMarker : List Char := ['/', '/', '!']

theorem comment_of_innerMarker {rest : List Char} (h : text.toList = innerMarker ++ rest) :
    (comment text).toList = '/' :: '/' :: rest := by
  have hchars : text.toList = '/' :: '/' :: '!' :: rest := h
  simp [comment, hchars]

theorem comment_of_not_innerMarker (h : ¬innerMarker <+: text.toList) : comment text = text := by
  unfold comment
  split
  · next rest heq => exact absurd ⟨rest, heq.symm⟩ h
  · rfl

theorem comment_eq_self_iff : comment text = text ↔ ¬innerMarker <+: text.toList := by
  refine ⟨fun heq => ?_, comment_of_not_innerMarker⟩
  rintro ⟨rest, hrest⟩
  have hlength := congrArg List.length (comment_of_innerMarker hrest.symm)
  rw [heq, ← hrest] at hlength
  simp [innerMarker] at hlength

/-- Of two exclamation marks behind the marker one is left. -/
theorem innerMarker_prefix_comment_iff :
    innerMarker <+: (comment text).toList ↔ innerMarker ++ ['!'] <+: text.toList := by
  by_cases h : innerMarker <+: text.toList
  · obtain ⟨rest, hrest⟩ := h
    rw [comment_of_innerMarker hrest.symm, ← hrest]
    simp [innerMarker, List.cons_prefix_cons]
  · rw [comment_of_not_innerMarker h]
    exact iff_of_false h fun htwo => h ((List.prefix_append _ _).trans htwo)

theorem comment_comment_eq_iff :
    comment (comment text) = comment text ↔ ¬innerMarker ++ ['!'] <+: text.toList := by
  rw [comment_eq_self_iff, innerMarker_prefix_comment_iff]

end Fragment

namespace Definition

open Fragment

variable {mode : Mode} {text raw : String} {d : Definition} {s : Settings} {out : String}
  {opcode k : Nat} {line : Line}

/-- The row of a line starts with the marker exactly when the line does. -/
theorem commentMarker_prefix_declaration_iff (s : Settings) (maxlen : Nat)
    (h : Line.classify mode opcode raw = .ok line) :
    Line.commentMarker <+: (declaration s maxlen line).toList ↔
      Line.commentMarker <+: raw.toList := by
  by_cases hmarker : Line.commentMarker <+: raw.toList
  · obtain rfl := Line.eq_comment_of_classify hmarker h
    exact iff_of_true (Reader.commentMarker_prefix_comment hmarker) hmarker
  · refine iff_of_false ?_ hmarker
    rcases Line.classify_eq_ok h with ⟨-, hcomment⟩ | rfl | ⟨ident, name, -, -, -, rfl⟩
    · contradiction
    · simp [declaration, Line.commentMarker]
    · rw [Reader.toList_opcodeConst]
      simp [Line.commentMarker]

/-- The row of a line is documentation exactly when two exclamation marks follow the marker of the
line. -/
theorem innerMarker_prefix_declaration_iff (s : Settings) (maxlen : Nat)
    (h : Line.classify mode opcode raw = .ok line) :
    innerMarker <+: (declaration s maxlen line).toList ↔ innerMarker ++ ['!'] <+: raw.toList := by
  have hinner : Line.commentMarker <+: innerMarker := ⟨['!'], rfl⟩
  by_cases hmarker : Line.commentMarker <+: raw.toList
  · obtain rfl := Line.eq_comment_of_classify hmarker h
    exact innerMarker_prefix_comment_iff
  · refine iff_of_false ?_ ?_
    · intro hrow
      exact hmarker ((commentMarker_prefix_declaration_iff s maxlen h).mp (hinner.trans hrow))
    · intro hraw
      exact hmarker ((hinner.trans (List.prefix_append _ _)).trans hraw)

theorem declarations_getElem? (s : Settings) {r : Record} (h : d.records[k]? = some r) :
    (d.declarations s)[k]? = some (declaration s d.maxlen r.line) := by
  rw [declarations, List.getElem?_map, Array.getElem?_toList, h, Option.map_some]

/-- `InnerMarks text d s out` says which rows of the module `out` are documentation: those of the
source lines with two exclamation marks behind the marker, and no others. -/
structure InnerMarks (text : String) (d : Definition) (s : Settings) (out : String) : Prop where
  /-- The rows of the source lines, in front of the count. -/
  rows : ∃ rows rest, Parts d s out rows rest ∧
    ∀ (k : Nat) (raw : String), (lines text)[k]? = some raw → ∃ row : String, rows[k]? = some row ∧
      (innerMarker <+: row.toList ↔ innerMarker ++ ['!'] <+: raw.toList) ∧
      (Line.commentMarker <+: row.toList ↔ Line.commentMarker <+: raw.toList)
  /-- Leaving out the exclamation mark again changes the other comments no further. -/
  again : ∀ i c, ⟨i, .comment c⟩ ∈ d.records.toList →
    (comment (comment c) = comment c ↔ ¬innerMarker ++ ['!'] <+: c.toList)

/-- A comment becomes documentation of the generated module exactly when it starts with two
exclamation marks behind the marker. -/
theorem render_innerMarks (mode : Mode) (text : String) (d : Definition) (s : Settings)
    (out : String) (hd : parse mode text = .ok d) (hout : d.render s = .ok out) :
    InnerMarks text d s out := by
  refine ⟨⟨_, _, parts_of_render (wellFormed_of_parse hd) hout, ?_⟩, ?_⟩
  · intro k raw hraw
    obtain ⟨line, hline, hr⟩ := record_of_parse hd hraw
    exact ⟨_, declarations_getElem? s hr, innerMarker_prefix_declaration_iff s d.maxlen hline,
      commentMarker_prefix_declaration_iff s d.maxlen hline⟩
  · intro i c _
    exact comment_comment_eq_iff

/-- A comment with one exclamation mark, one with three, and an instruction. -/
theorem render_innerMarks_three : ∃ d out, parse .strict "//! x\n//!!! y\nA a" = .ok d ∧
    d.render {} = .ok out ∧ InnerMarks "//! x\n//!!! y\nA a" d {} out := by
  obtain ⟨d, hd⟩ : ∃ d, parse .strict "//! x\n//!!! y\nA a" = .ok d :=
    exists_parse_iff.mpr (by decide)
  have hcount := count_of_parse hd
  obtain ⟨out, hout⟩ := exists_render_iff (s := {}).mpr (by rw [hcount]; decide)
  exact ⟨d, out, hd, hout, render_innerMarks _ _ _ _ _ hd hout⟩

/-- Two exclamation marks: the row of the comment is documentation of the module. -/
theorem exists_innerMarker_row :
    ∃ (d : Definition) (out : String) (rows : List String) (rest row : String),
    parse .strict "//!! x\nA a" = .ok d ∧ d.render {} = .ok out ∧ Parts d {} out rows rest ∧
      row ∈ rows ∧ innerMarker <+: row.toList ∧ ⟨0, .comment "//!! x"⟩ ∈ d.records.toList ∧
      comment (comment "//!! x") ≠ comment "//!! x" := by
  obtain ⟨d, hd⟩ : ∃ d, parse .strict "//!! x\nA a" = .ok d := exists_parse_iff.mpr (by decide)
  have hcount := count_of_parse hd
  obtain ⟨out, hout⟩ := exists_render_iff (s := {}).mpr (by rw [hcount]; decide)
  have hfirst : (lines "//!! x\nA a")[0]? = some "//!! x" := by decide
  have hmarker : Line.commentMarker <+: "//!! x".toList := by decide
  obtain ⟨line, hline, hr⟩ := record_of_parse hd hfirst
  obtain rfl := Line.eq_comment_of_classify hmarker hline
  refine ⟨d, out, _, _, _, hd, hout, parts_of_render (wellFormed_of_parse hd) hout,
    List.mem_of_getElem? (declarations_getElem? {} hr), ?_, ?_, by decide⟩
  · rw [innerMarker_prefix_declaration_iff {} d.maxlen hline]
    decide
  · exact Array.mem_toList_iff.mpr (Array.mem_of_getElem? hr)

/-! ## Comments and instructions -/

/-- The column at which the identifier stands, in the row of its constant and in its assignment. -/
def identColumn : Nat := 14

theorem commentMarker_prefix_drop_iff {cs : List Char} {n : Nat} :
    Line.commentMarker <+: cs.drop n ↔ cs[n]? = some '/' ∧ cs[n + 1]? = some '/' := by
  rw [← List.isPrefixOf_iff_prefix, ← List.head?_drop, ← List.head?_drop, ← List.tail_drop]
  match cs.drop n with
  | [] => simp [Line.commentMarker]
  | [c] => simp [Line.commentMarker]
  | c :: c' :: cs => simp [Line.commentMarker, eq_comm (a := '/')]

theorem commentMarker_infix_iff {cs : List Char} :
    Line.commentMarker <:+: cs ↔ ∃ n, Line.commentMarker <+: cs.drop n := by
  constructor
  · rintro ⟨front, rest, rfl⟩
    exact ⟨front.length, rest, by simp⟩
  · rintro ⟨n, h⟩
    exact h.isInfix.trans (List.drop_suffix n cs).isInfix

/-- `MarkedAs ident row` says that the identifier stands in the row, and that a comment starts in
the row exactly where one starts in the identifier. -/
structure MarkedAs (ident row : List Char) : Prop where
  stands : ident <+: row.drop identColumn
  places : ∀ n, Line.commentMarker <+: row.drop n ↔
    identColumn ≤ n ∧ Line.commentMarker <+: ident.drop (n - identColumn)
  /-- The row is cut off exactly when the identifier holds a marker. -/
  cut_iff : Line.commentMarker <:+: row ↔ Line.commentMarker <:+: ident

theorem getElem?_append_of_notMem {cs rest : List Char} {c : Char} (h : c ∉ rest) (n : Nat) :
    (cs ++ rest)[n]? = some c ↔ cs[n]? = some c := by
  rcases lt_or_ge n cs.length with hn | hn
  · rw [List.getElem?_append_left hn]
  · rw [List.getElem?_append_right hn, List.getElem?_eq_none hn]
    exact iff_of_false (fun hrest => h (List.mem_of_getElem? hrest)) (by simp)

/-- There is no slash in front of the identifier and none behind it. -/
theorem markedAs_append {front ident rest : List Char} (hlength : front.length = identColumn)
    (hfront : '/' ∉ front) (hrest : '/' ∉ rest) : MarkedAs ident (front ++ (ident ++ rest)) := by
  have hplaces : ∀ n, Line.commentMarker <+: (front ++ (ident ++ rest)).drop n ↔
      identColumn ≤ n ∧ Line.commentMarker <+: ident.drop (n - identColumn) := by
    intro n
    rw [commentMarker_prefix_drop_iff, commentMarker_prefix_drop_iff, ← hlength]
    rcases lt_or_ge n front.length with hn | hn
    · rw [List.getElem?_append_left hn]
      exact iff_of_false (fun h => hfront (List.mem_of_getElem? h.1)) (fun h => hn.not_ge h.1)
    · rw [List.getElem?_append_right hn, List.getElem?_append_right (Nat.le_succ_of_le hn),
        getElem?_append_of_notMem hrest, getElem?_append_of_notMem hrest, Nat.succ_sub hn,
        and_iff_right hn]
  refine ⟨?_, hplaces, ?_⟩
  · rw [← hlength, List.drop_left]
    exact List.prefix_append ident rest
  · simp only [commentMarker_infix_iff, hplaces]
    constructor
    · rintro ⟨n, -, h⟩
      exact ⟨n - identColumn, h⟩
    · rintro ⟨n, h⟩
      exact ⟨identColumn + n, Nat.le_add_right _ _, by rwa [Nat.add_sub_cancel_left]⟩

theorem markedAs_declaration (s : Settings) (maxlen : Nat) (inst : Instruction) :
    MarkedAs inst.ident.toList (declaration s maxlen (.instruction inst)).toList := by
  have htype : '/' ∉ s.opcodeType.name.toList := by cases s.opcodeType <;> decide
  have hrow : (declaration s maxlen (.instruction inst)).toList =
      "    pub const ".toList ++ (inst.ident.toList ++
        (List.replicate (maxlen - inst.ident.length) ' ' ++
          ((": " ++ s.opcodeType.name ++ " = ").toList ++ (toString inst.opcode).toList ++
            [';']))) := by
    rw [Reader.toList_opcodeConst]
    simp only [List.append_assoc]
  rw [hrow]
  refine markedAs_append rfl (by decide) ?_
  simp [htype, notMem_toDigits (c := '/') (by decide)]

theorem exists_markedAs_assignment (maxlen : Nat) (inst : Instruction) :
    ∃ front, (assignment maxlen inst).toList =
        front ++ '"' :: ((escape inst.name).toList ++ ['"', ';']) ∧
      MarkedAs inst.ident.toList front := by
  refine ⟨"        table[".toList ++ (inst.ident.toList ++ ' ' :: ("as usize]".toList ++
    (List.replicate (maxlen - inst.ident.length + 1) ' ' ++ "= ".toList))), ?_, ?_⟩
  · rw [Reader.toList_assignment]
    simp only [List.append_assoc, List.cons_append]
  · exact markedAs_append rfl (by decide) (by simp)

/-- The instructions in front of a record, its own, and those behind it. -/
theorem instructions_eq_append {r : Record} {inst : Instruction} (hk : d.records[k]? = some r)
    (hl : r.line = .instruction inst) :
    d.instructions = (d.records.toList.take k).filterMap (·.line.instruction?) ++
      inst :: (d.records.toList.drop (k + 1)).filterMap (·.line.instruction?) := by
  obtain ⟨hlt, hr⟩ := List.getElem?_eq_some_iff.mp (Array.getElem?_toList ▸ hk)
  have hsplit : d.records.toList =
      d.records.toList.take k ++ r :: d.records.toList.drop (k + 1) := by
    rw [← hr, ← List.drop_eq_getElem_cons hlt, List.take_append_drop]
  rw [instructions]
  conv_lhs => rw [hsplit, List.filterMap_append, List.filterMap_cons, hl]
  rfl

/-- The opcode of an instruction is the number of instructions in front of it. -/
theorem WellFormed.opcode_eq_countP (hw : d.WellFormed) {r : Record} {inst : Instruction}
    (hk : d.records[k]? = some r) (hl : r.line = .instruction inst) :
    inst.opcode = (d.records.toList.take k).countP (·.line.instruction?.isSome) := by
  have hat : d.instructions[((d.records.toList.take k).filterMap
      (·.line.instruction?)).length]? = some inst := by
    rw [instructions_eq_append hk hl, List.getElem?_append_right le_rfl, Nat.sub_self]
    rfl
  rw [hw.opcode_of_getElem? hat, List.length_filterMap_eq_countP]

/-- `CommentsApart mode text d` says that the comments of the text take no opcode of the definition,
which identifiers start with the comment marker, and which rows they cut off. -/
structure CommentsApart (mode : Mode) (text : String) (d : Definition) : Prop where
  comment : ∀ (k : Nat) (raw : String), (lines text)[k]? = some raw →
    Line.commentMarker <+: raw.toList → d.records[k]? = some ⟨k, .comment raw⟩
  opcode : ∀ k inst, d.records[k]? = some ⟨k, .instruction inst⟩ →
    inst.opcode = (d.records.toList.take k).countP (·.line.instruction?.isSome)
  /-- Only lenient reading finds identifiers that start with the marker, at the first word. -/
  ident_iff : ∀ (k : Nat) (raw : String) (inst : Instruction), (lines text)[k]? = some raw →
    d.records[k]? = some ⟨k, .instruction inst⟩ →
      (Line.commentMarker <+: inst.ident.toList ↔
        mode = .lenient ∧ Line.commentMarker <+: firstWord raw.toList)
  constants : ∀ inst ∈ d.instructions, ∀ s : Settings,
    MarkedAs inst.ident.toList (declaration s d.maxlen (.instruction inst)).toList
  /-- In front of the literal with the name, an assignment is cut off in the same way. -/
  assignments : ∀ inst ∈ d.instructions, ∃ front, (assignment d.maxlen inst).toList =
      front ++ '"' :: ((escape inst.name).toList ++ ['"', ';']) ∧
    MarkedAs inst.ident.toList front

/-- Comments are never numbered. An identifier starts with the comment marker exactly when lenient
reading finds the marker at the first word, and its rows are cut off exactly when it holds a
marker. -/
theorem parse_commentsApart (mode : Mode) (text : String) (d : Definition)
    (hd : parse mode text = .ok d) : CommentsApart mode text d where
  comment := by
    intro k raw hraw hmarker
    obtain ⟨line, hline, hr⟩ := record_of_parse hd hraw
    obtain rfl := Line.eq_comment_of_classify hmarker hline
    exact hr
  opcode _ _ hr := (wellFormed_of_parse hd).opcode_eq_countP hr rfl
  ident_iff := by
    intro k raw inst hraw hr
    obtain ⟨line, hline, hr'⟩ := record_of_parse hd hraw
    obtain rfl : line = .instruction inst := by simpa [hr] using hr'.symm
    exact Line.commentMarker_prefix_ident_iff hline
  constants inst _ s := markedAs_declaration s d.maxlen inst
  assignments inst _ := exists_markedAs_assignment d.maxlen inst

/-- A comment between two instructions behind blanks, the second one with a marker at its start. -/
theorem parse_commentsApart_slash : ∃ d, parse .lenient "\tB/ b\n// x\n //C c" = .ok d ∧
    CommentsApart .lenient "\tB/ b\n// x\n //C c" d := by
  obtain ⟨d, hd⟩ : ∃ d, parse .lenient "\tB/ b\n// x\n //C c" = .ok d :=
    exists_parse_iff.mpr (by decide)
  exact ⟨d, hd, parse_commentsApart _ _ d hd⟩

/-- A marker behind a blank is an identifier for lenient reading, and numbered as one. A marker
inside an identifier cuts its row off in both modes. -/
theorem exists_commentMarker_in_ident :
    (∃ d, parse .lenient " // x\nA a" = .ok d ∧
      d.instructions = [⟨"//", "x", 0⟩, ⟨"A", "a", 1⟩] ∧
      declaration {} d.maxlen (.instruction ⟨"//", "x", 0⟩) = "    pub const //: u8 = 0;") ∧
    ∃ d, parse .strict "A//b x" = .ok d ∧ d.instructions = [⟨"A//b", "x", 0⟩] ∧
      declaration {} d.maxlen (.instruction ⟨"A//b", "x", 0⟩) = "    pub const A//b: u8 = 0;" := by
  constructor
  · obtain ⟨d, hd⟩ : ∃ d, parse .lenient " // x\nA a" = .ok d := exists_parse_iff.mpr (by decide)
    refine ⟨d, hd, ?_, ?_⟩
    · rw [instructions_of_parse hd]
      decide
    · rw [maxlen_of_parse hd]
      decide
  · obtain ⟨d, hd⟩ : ∃ d, parse .strict "A//b x" = .ok d := exists_parse_iff.mpr (by decide)
    refine ⟨d, hd, ?_, ?_⟩
    · rw [instructions_of_parse hd]
      decide
    · rw [maxlen_of_parse hd]
      decide

end Definition

end OpcodeTable
