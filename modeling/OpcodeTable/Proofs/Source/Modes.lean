import OpcodeTable.Proofs.Source.Statements
import OpcodeTable.Proofs.Text.Contents
import OpcodeTable.Proofs.Text.Words

/-!
# Lines in both modes

The modes differ only in how they cut statements into fields. A statement in normal form, its first
two words with a space between them, has the same fields in both modes, and these are the fields
that lenient reading finds in the statement itself.
-/

namespace OpcodeTable

/-- Neither text of the instruction holds a blank. -/
structure Instruction.NoBlank (inst : Instruction) : Prop where
  ident : ∀ c ∈ inst.ident.toList, Text.isBlank c = false
  name : ∀ c ∈ inst.name.toList, Text.isBlank c = false

namespace Line

open Text

variable {mode mode' : Mode} {raw raw' : String}

theorem isStatement_iff :
    isStatement raw = true ↔ raw.toList ≠ [] ∧ ¬commentMarker <+: raw.toList := by
  rw [isStatement, Bool.and_eq_true, Bool.not_eq_true', Bool.not_eq_true',
    List.isEmpty_eq_false_iff, ← List.isPrefixOf_iff_prefix, Bool.not_eq_true]

/-- A line that starts with the marker is a comment. -/
theorem classify_of_commentMarker (h : commentMarker <+: raw.toList) (mode : Mode) (opcode : Nat) :
    classify mode opcode raw = .ok (comment raw) := by
  rw [classify, if_pos (List.isPrefixOf_iff_prefix.mpr h)]

theorem eq_comment_of_classify {opcode : Nat} {line : Line} (hmarker : commentMarker <+: raw.toList)
    (h : classify mode opcode raw = .ok line) : line = comment raw := by
  rw [classify_of_commentMarker hmarker] at h
  exact (Except.ok.inj h).symm

/-- The two fields of a line that is an instruction are its identifier and its name. -/
theorem fields_of_classify {opcode : Nat} {inst : Instruction}
    (h : classify mode opcode raw = .ok (instruction inst)) :
    mode.fields raw.toList = [inst.ident.toList, inst.name.toList] ∧
      inst.ident.toList ≠ [] ∧ inst.name.toList ≠ [] := by
  rcases classify_eq_ok h with ⟨h, -⟩ | h | ⟨ident, name, hfields, hident, hname, h⟩
  · cases h
  · cases h
  · obtain rfl := Line.instruction.inj h
    rw [String.toList_ofList, String.toList_ofList]
    exact ⟨hfields, hident, hname⟩

/-- A line that is no statement means the same in both modes. -/
theorem classify_mode (h : isStatement raw = false) (mode mode' : Mode) (opcode : Nat) :
    classify mode opcode raw = classify mode' opcode raw := by
  simp only [classify]
  by_cases hcomment : commentMarker.isPrefixOf raw.toList = true
  · rw [if_pos hcomment, if_pos hcomment]
  · have hempty : raw.toList.isEmpty = true := by simpa [isStatement, hcomment] using h
    rw [if_neg hcomment, if_neg hcomment, if_pos hempty, if_pos hempty]

/-- The meaning of a statement is in its fields. -/
theorem classify_of_isStatement (h : isStatement raw = true) (mode : Mode) (opcode : Nat) :
    classify mode opcode raw =
      match mode.fields raw.toList with
      | [ident, name] =>
        if ident.isEmpty || name.isEmpty then .error .malformed
        else .ok (instruction ⟨String.ofList ident, String.ofList name, opcode⟩)
      | [ident] => .error (.missingName (String.ofList ident))
      | _ => .error .malformed := by
  obtain ⟨hne, hmarker⟩ := isStatement_iff.mp h
  have hcomment : ¬commentMarker.isPrefixOf raw.toList = true :=
    fun hc => hmarker (List.isPrefixOf_iff_prefix.mp hc)
  have hempty : ¬raw.toList.isEmpty = true := fun he => hne (List.isEmpty_iff.mp he)
  exact (if_neg hcomment).trans (if_neg hempty)

theorem classify_congr (h : isStatement raw = true) (h' : isStatement raw' = true)
    (hfields : mode.fields raw.toList = mode'.fields raw'.toList) (opcode : Nat) :
    classify mode opcode raw = classify mode' opcode raw' := by
  rw [classify_of_isStatement h, classify_of_isStatement h', hfields]

/-- A statement that is accepted is an instruction. -/
theorem exists_instruction_of_classify {opcode : Nat} {line : Line} (hraw : isStatement raw = true)
    (h : classify mode opcode raw = .ok line) : ∃ inst, line = instruction inst := by
  rw [classify_of_isStatement hraw] at h
  split at h
  · split at h
    · cases h
    · exact ⟨_, (Except.ok.inj h).symm⟩
  · cases h
  · cases h

/-- A marker is within the text in front of anything but a further slash. -/
theorem commentMarker_prefix_of_append {w rest : List Char} (hne : w ≠ [])
    (hrest : rest.head? ≠ some '/') (h : commentMarker <+: w ++ rest) : commentMarker <+: w := by
  match w with
  | [c] =>
    obtain ⟨tail, htail⟩ := h
    obtain ⟨-, rfl⟩ : '/' = c ∧ '/' :: tail = rest := by simpa [commentMarker] using htail
    simp at hrest
  | c :: d :: w => simpa [commentMarker, List.cons_prefix_cons] using h

/-! ## Normal form -/

/-- A statement with only its first two words, and a space between them. -/
def normalForm (raw : String) : String :=
  if isStatement raw then String.ofList (firstTwoWords raw.toList) else raw

/-- The line has a word, and no comment starts at its first word. -/
structure HasIdent (raw : String) : Prop where
  word : ∃ c ∈ raw.toList, isBlank c = false
  marker : ¬commentMarker <+: firstWord raw.toList

theorem HasIdent.firstWord_ne_nil (h : HasIdent raw) : firstWord raw.toList ≠ [] := by
  intro hnil
  obtain ⟨c, hc, hblank⟩ := h.word
  simp [firstWord_eq_nil_iff.mp hnil c hc] at hblank

theorem hasIdent_iff :
    HasIdent raw ↔ firstWord raw.toList ≠ [] ∧ ¬commentMarker <+: firstWord raw.toList := by
  constructor
  · intro h
    exact ⟨h.firstWord_ne_nil, h.marker⟩
  · rintro ⟨hne, hmarker⟩
    refine ⟨?_, hmarker⟩
    rw [Ne, firstWord_eq_nil_iff] at hne
    push Not at hne
    simpa using hne

instance (raw : String) : Decidable (HasIdent raw) :=
  decidable_of_iff _ hasIdent_iff.symm

theorem toList_normalForm (h : isStatement raw = true) :
    (normalForm raw).toList = firstTwoWords raw.toList := by
  rw [normalForm, if_pos h, String.toList_ofList]

theorem isStatement_normalForm (h : isStatement raw = true → HasIdent raw) :
    isStatement (normalForm raw) = isStatement raw := by
  by_cases hraw : isStatement raw = true
  · have hword := (h hraw).firstWord_ne_nil
    rw [hraw, isStatement_iff, toList_normalForm hraw]
    refine ⟨firstTwoWords_ne_nil hword, fun hmarker => (h hraw).marker ?_⟩
    rw [firstTwoWords] at hmarker
    split at hmarker
    · exact hmarker
    · exact commentMarker_prefix_of_append hword (by simp) hmarker
  · rw [normalForm, if_neg hraw]

/-- Lenient reading of a line is strict reading of its normal form. -/
theorem classify_normalForm (h : isStatement raw = true → HasIdent raw) (opcode : Nat) :
    classify .lenient opcode raw = classify .strict opcode (normalForm raw) := by
  by_cases hraw : isStatement raw = true
  · refine classify_congr hraw ((isStatement_normalForm h).trans hraw) ?_ opcode
    rw [toList_normalForm hraw]
    exact (fields_firstTwoWords (h hraw).firstWord_ne_nil).symm
  · rw [normalForm, if_neg hraw]
    exact classify_mode (by simpa using hraw) .lenient .strict opcode

theorem normalForm_normalForm (h : isStatement raw = true → HasIdent raw) :
    normalForm (normalForm raw) = normalForm raw := by
  by_cases hraw : isStatement raw = true
  · have hstatement := (isStatement_normalForm h).trans hraw
    rw [normalForm, if_pos hstatement, toList_normalForm hraw,
      firstTwoWords_firstTwoWords (h hraw).firstWord_ne_nil, normalForm, if_pos hraw]
  · have hself : normalForm raw = raw := if_neg hraw
    rw [hself, hself]

/-- The normal form stands in front of the terminator that the line has. -/
theorem ended_normalForm {t : List Char} (hended : Ended raw.toList t)
    (h : isStatement raw = true → HasIdent raw) : Ended (normalForm raw).toList t := by
  by_cases hraw : isStatement raw = true
  · rw [toList_normalForm hraw]
    have hlf : '\n' ∉ firstTwoWords raw.toList := notMem_firstTwoWords (by decide) (by decide)
    have hcr : '\r' ∉ firstTwoWords raw.toList := notMem_firstTwoWords (by decide) (by decide)
    exact hended.replace (firstTwoWords_ne_nil (h hraw).firstWord_ne_nil) hlf hcr
  · rwa [normalForm, if_neg hraw]

/-! ## Instructions without blanks -/

/-- What lenient reading accepts has no blanks. -/
theorem noBlank_of_classify_lenient {opcode : Nat} {inst : Instruction}
    (h : classify .lenient opcode raw = .ok (instruction inst)) : inst.NoBlank := by
  obtain ⟨hfields, -, -⟩ := fields_of_classify h
  have hmem : ∀ word ∈ [inst.ident.toList, inst.name.toList], ∀ c ∈ word, isBlank c = false := by
    intro word hword c hc
    rw [← hfields] at hword
    exact ((mem_of_mem_words (List.mem_of_mem_take hword)).2 c hc).2
  exact ⟨hmem _ (by simp), hmem _ (by simp)⟩

/-- An instruction without blanks means the same in both modes. -/
theorem classify_lenient_of_noBlank {opcode : Nat} {inst : Instruction}
    (h : classify .strict opcode raw = .ok (instruction inst)) (hblank : inst.NoBlank) (k : Nat) :
    classify .lenient k raw = classify .strict k raw := by
  have hraw : isStatement raw = true := isStatement_of_ident? (ident?_of_ok h)
  obtain ⟨hfields, hident, hname⟩ := fields_of_classify h
  -- the space between the two fields is the only blank of the line
  have hwords : words raw.toList = [inst.ident.toList, inst.name.toList] := by
    rw [eq_append_space_of_fields hfields, words_append_blank (by decide),
      words_eq_singleton hident hblank.ident, words_eq_singleton hname hblank.name,
      List.singleton_append]
  refine classify_congr hraw hraw ?_ k
  rw [hfields, Mode.fields, hwords]
  rfl

/-! ## Identifiers and the start of a line -/

/-- For lenient reading the identifier is the first word. -/
theorem firstWord_of_classify {opcode : Nat} {inst : Instruction}
    (h : classify .lenient opcode raw = .ok (instruction inst)) :
    firstWord raw.toList = inst.ident.toList := by
  obtain ⟨hfields, -, -⟩ := fields_of_classify h
  have hne : firstWord raw.toList ≠ [] := by
    intro hnil
    simp [Mode.fields, words_eq_nil hnil] at hfields
  rw [Mode.fields, words_eq_cons hne] at hfields
  exact (List.cons.inj hfields).1

/-- An identifier starts with the comment marker exactly when lenient reading finds the marker at
the first word. For strict reading, the line with such an identifier is a comment. -/
theorem commentMarker_prefix_ident_iff {opcode : Nat} {inst : Instruction}
    (h : classify mode opcode raw = .ok (instruction inst)) :
    commentMarker <+: inst.ident.toList ↔
      mode = .lenient ∧ commentMarker <+: firstWord raw.toList := by
  cases mode with
  | strict =>
    refine iff_of_false (fun hmarker => ?_) (by simp)
    obtain ⟨hfields, -, -⟩ := fields_of_classify h
    have hident : inst.ident.toList <+: raw.toList :=
      ⟨' ' :: inst.name.toList, (eq_append_space_of_fields hfields).symm⟩
    rw [classify_of_commentMarker (hmarker.trans hident)] at h
    cases h
  | lenient => rw [firstWord_of_classify h, and_iff_right rfl]

end Line

namespace Source

open Text

/-- The text with all its lines in normal form. -/
def normalForm (text : String) : String :=
  mapLines Line.normalForm text

variable {text : String}

theorem ended_normalForm (h : ∀ raw ∈ lines text, Line.isStatement raw = true → Line.HasIdent raw) :
    ∀ l ∈ endedLines text.toList,
      Ended (Line.normalForm (String.ofList (contents l))).toList (terminator l) := by
  intro l hl
  have hended := ended_of_mem hl
  have hmem : String.ofList (contents l) ∈ lines text := by
    rw [lines, linesOf_eq_map_contents, List.map_map]
    exact List.mem_map_of_mem hl
  exact Line.ended_normalForm (by rwa [String.toList_ofList]) (h _ hmem)

theorem lines_normalForm (h : ∀ raw ∈ lines text, Line.isStatement raw = true → Line.HasIdent raw) :
    lines (normalForm text) = (lines text).map Line.normalForm :=
  lines_mapLines (ended_normalForm h)

theorem normalForm_normalForm
    (h : ∀ raw ∈ lines text, Line.isStatement raw = true → Line.HasIdent raw) :
    normalForm (normalForm text) = normalForm text := by
  rw [normalForm, normalForm, mapLines_mapLines (ended_normalForm h)]
  apply mapLines_congr
  intro raw hraw
  exact Line.normalForm_normalForm (h raw hraw)

end Source

end OpcodeTable
