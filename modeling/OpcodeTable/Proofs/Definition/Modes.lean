import OpcodeTable.Proofs.Output.Statements
import OpcodeTable.Proofs.Source.Modes

/-!
# Definitions in both modes

Reading depends on a text only through what its lines are classified as. So lenient reading of a
text is strict reading of its normal form, and a text that strict reading accepts is the same
definition in both modes exactly when no blank stands in its identifiers and names.
-/

namespace OpcodeTable.Definition

open Source

variable {mode mode' : Mode} {ls ms : List String} {text text' : String} {d d' : Definition}

/-- The line `raw` means in one mode what the line `raw'` means in the other. -/
def Agree (mode mode' : Mode) (raw raw' : String) : Prop :=
  ∀ opcode, Line.classify mode opcode raw = Line.classify mode' opcode raw'

theorem Progress.step_congr {raw raw' : String} (h : Agree mode mode' raw raw') (p : Progress)
    (index : Nat) : p.step mode (raw, index) = p.step mode' (raw', index) := by
  simp only [step, h p.definition.count]

/-- Lines that agree one by one are read to the same state. -/
theorem Progress.foldl_step_congr (h : List.Forall₂ (Agree mode mode') ls ms) (p : Progress)
    (index : Nat) :
    (ls.zipIdx index).foldl (step mode) p = (ms.zipIdx index).foldl (step mode') p := by
  induction h generalizing p index with
  | nil => rfl
  | cons hline _ ih =>
    rw [List.zipIdx_cons, List.zipIdx_cons, List.foldl_cons, List.foldl_cons,
      step_congr hline p index]
    exact ih _ _

/-- Texts whose lines agree one by one are the same definition, or have the same report. -/
theorem parse_congr (h : List.Forall₂ (Agree mode mode') (Text.lines text) (Text.lines text')) :
    parse mode text = parse mode' text' := by
  have hprogress : progress mode text = progress mode' text' :=
    Progress.foldl_step_congr h .start 0
  rw [parse, parse, hprogress]

/-! ## Normal form -/

/-- `Normalizes text` says that the text means in lenient mode what its normal form means in strict
mode. -/
structure Normalizes (text : String) : Prop where
  lines : Text.lines (normalForm text) = (Text.lines text).map Line.normalForm
  terminators : (Text.endedLines (normalForm text).toList).map Text.terminator =
    (Text.endedLines text.toList).map Text.terminator
  parse : parse .lenient text = Definition.parse .strict (normalForm text)
  idempotent : normalForm (normalForm text) = normalForm text

/-- Lenient reading is strict reading of the normal form, as long as every statement has a word and
no comment starts at its first word. -/
theorem parse_lenient_normalForm (text : String)
    (h : ∀ raw ∈ Text.lines text, Line.isStatement raw = true → Line.HasIdent raw) :
    Normalizes text := by
  refine ⟨lines_normalForm h, ?_, ?_, normalForm_normalForm h⟩
  · rw [normalForm, Text.mapLines, String.toList_ofList]
    exact Text.map_terminator_mapContents (ended_normalForm h)
  · apply parse_congr
    rw [lines_normalForm h, List.forall₂_map_right_iff, List.forall₂_same]
    intro raw hraw opcode
    exact Line.classify_normalForm (h raw hraw) opcode

/-- Blanks of several kinds around the words, and a missing name. -/
theorem parse_lenient_normalForm_blanks :
    (∀ raw ∈ Text.lines "\tA \u3000a x\r\n//  y\nB ",
      Line.isStatement raw = true → Line.HasIdent raw) ∧
    parse .lenient "\tA \u3000a x\r\n//  y\nB " = parse .strict "A a\r\n//  y\nB" := by
  have h : ∀ raw ∈ Text.lines "\tA \u3000a x\r\n//  y\nB ",
      Line.isStatement raw = true → Line.HasIdent raw := by decide
  have hnormal : normalForm "\tA \u3000a x\r\n//  y\nB " = "A a\r\n//  y\nB" := by decide
  exact ⟨h, hnormal ▸ (parse_lenient_normalForm _ h).parse⟩

/-! ## Definitions without blanks -/

/-- A record whose line is an instruction is one of the instructions. -/
theorem mem_instructions {r : Record} {inst : Instruction} (hr : r ∈ d.records.toList)
    (hl : r.line = .instruction inst) : inst ∈ d.instructions :=
  List.mem_filterMap.mpr ⟨r, hr, by rw [hl]; rfl⟩

/-- Without blanks in its instructions, a definition is the same in lenient mode. -/
theorem parse_lenient_of_noBlank (h : parse .strict text = .ok d)
    (hblank : ∀ inst ∈ d.instructions, inst.NoBlank) : parse .lenient text = .ok d := by
  rw [← h]
  apply parse_congr
  rw [List.forall₂_same]
  intro raw hraw opcode
  obtain ⟨k, hk⟩ := List.getElem?_of_mem hraw
  obtain ⟨line, hline, hr⟩ := record_of_parse h hk
  cases hstatement : Line.isStatement raw with
  | false => exact Line.classify_mode hstatement .lenient .strict opcode
  | true =>
    obtain ⟨inst, rfl⟩ := Line.exists_instruction_of_classify hstatement hline
    have hmem : inst ∈ d.instructions :=
      mem_instructions (Array.mem_toList_iff.mpr (Array.mem_of_getElem? hr)) rfl
    exact Line.classify_lenient_of_noBlank hline (hblank inst hmem) opcode

/-- What lenient reading accepts has no blanks in its instructions. -/
theorem noBlank_of_parse_lenient (h : parse .lenient text = .ok d) :
    ∀ inst ∈ d.instructions, inst.NoBlank := by
  intro inst hinst
  obtain ⟨r, hr, hl⟩ := List.mem_filterMap.mp hinst
  obtain ⟨raw, -, opcode, hc⟩ := exists_classify_of_parse h hr
  rw [Line.instruction?_eq_some_iff.mp hl] at hc
  exact Line.noBlank_of_classify_lenient hc

/-- A text that strict reading accepts is read to the same definition in lenient mode exactly when
no blank stands in the identifiers and names of its instructions. Otherwise lenient reading fails or
gives other records. -/
theorem parse_lenient_iff (text : String) (d : Definition) (h : parse .strict text = .ok d) :
    ((∃ d', parse .lenient text = .ok d' ∧ d'.records = d.records ∧ SameInstructions d' d) ↔
      ∀ inst ∈ d.instructions, inst.NoBlank) ∧
    ((¬∀ inst ∈ d.instructions, inst.NoBlank) →
      (∃ rs, parse .lenient text = .error rs) ∨
        ∃ d', parse .lenient text = .ok d' ∧ d'.records ≠ d.records) := by
  -- the same records hold the same instructions, and lenient reading made them without blanks
  have hblank {d' : Definition} (hd' : parse .lenient text = .ok d')
      (hrecords : d'.records = d.records) : ∀ inst ∈ d.instructions, inst.NoBlank := by
    have hinstructions : d'.instructions = d.instructions := by
      rw [instructions, hrecords, instructions]
    exact hinstructions ▸ noBlank_of_parse_lenient hd'
  refine ⟨⟨?_, fun hno => ?_⟩, fun hno => ?_⟩
  · rintro ⟨d', hd', hrecords, -⟩
    exact hblank hd' hrecords
  · exact ⟨d, parse_lenient_of_noBlank h hno, rfl, rfl, rfl, rfl, fun _ => rfl, fun _ => rfl⟩
  · cases hd' : parse .lenient text with
    | error rs => exact .inl ⟨rs, rfl⟩
    | ok d' => exact .inr ⟨d', rfl, fun hrecords => hno (hblank hd' hrecords)⟩

/-- A wide space in front of an identifier: lenient reading takes it for a repetition. -/
theorem parse_lenient_iff_wideSpace : ∃ d, parse .strict "B b\n\u3000B c" = .ok d ∧
    (¬∀ inst ∈ d.instructions, inst.NoBlank) ∧
    ((∃ rs, parse .lenient "B b\n\u3000B c" = .error rs) ∨
      ∃ d', parse .lenient "B b\n\u3000B c" = .ok d' ∧ d'.records ≠ d.records) := by
  obtain ⟨d, hd⟩ : ∃ d, parse .strict "B b\n\u3000B c" = .ok d := exists_parse_iff.mpr (by decide)
  have hmem : ⟨"\u3000B", "c", 1⟩ ∈ d.instructions := by
    rw [instructions_of_parse hd]
    decide
  have hno : ¬∀ inst ∈ d.instructions, inst.NoBlank := by
    intro hall
    have hident := (hall _ hmem).ident '\u3000' (by decide)
    revert hident
    decide
  exact ⟨d, hd, hno, (parse_lenient_iff _ d hd).2 hno⟩

end OpcodeTable.Definition
