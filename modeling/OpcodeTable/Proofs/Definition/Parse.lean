import OpcodeTable.Proofs.Definition.Progress
import OpcodeTable.Proofs.Source.Rejections

/-!
# What parsing gives

Parsing succeeds exactly when no line is rejected, and then the definition consists of the
classified lines of the text; otherwise the rejected lines are reported, each with its cause.
-/

namespace OpcodeTable.Definition

open Source

variable {mode : Mode} {text : String} {d : Definition}

theorem parse_eq (mode : Mode) (text : String) :
    parse mode text =
      if rejected mode (Text.lines text) = [] then
        .ok (Progress.after mode (Text.lines text)).definition
      else .error (rejected mode (Text.lines text)) := by
  have hp : progress mode text = Progress.after mode (Text.lines text) := rfl
  simp [parse, hp, ← (Progress.describes_after mode (Text.lines text)).rejections]

theorem parse_eq_ok_iff : parse mode text = .ok d ↔
    rejected mode (Text.lines text) = [] ∧
      d = (Progress.after mode (Text.lines text)).definition := by
  rw [parse_eq]
  split
  · next hr => simp [hr, eq_comm]
  · next hr => simp [hr]

theorem parse_eq_error_iff {rs : List Rejection} : parse mode text = .error rs ↔
    rs ≠ [] ∧ rs = rejected mode (Text.lines text) := by
  rw [parse_eq]
  split
  · next hr => simp [hr]
  · next hr =>
    simp only [Except.error.injEq]
    constructor
    · rintro rfl
      exact ⟨hr, rfl⟩
    · exact fun h => h.2.symm

/-- The rejections that parsing reports; there are none if it succeeds. -/
def reports (mode : Mode) (text : String) : List Rejection :=
  match parse mode text with
  | .ok _ => []
  | .error rs => rs

theorem reports_eq (mode : Mode) (text : String) :
    reports mode text = rejected mode (Text.lines text) := by
  rw [reports, parse_eq]
  by_cases hr : rejected mode (Text.lines text) = [] <;> simp [hr]

/-- The indices of the reported lines. -/
def reported (rs : List Rejection) : Finset Nat :=
  (rs.map (·.index)).toFinset

/-- There are as many rejections as reported lines. -/
theorem card_reported {rs : List Rejection} (h : parse mode text = .error rs) :
    (reported rs).card = rs.length := by
  have hnodup : (rs.map (·.index)).Nodup := by
    rw [(parse_eq_error_iff.mp h).2]
    exact (pairwise_rejected mode _).imp fun hlt => hlt.ne
  rw [reported, List.toFinset_card_of_nodup hnodup, List.length_map]

/-- The facts about a definition that reading a text establishes. -/
structure WellFormed (d : Definition) : Prop where
  line : ∀ r ∈ d.records.toList, r.line.WellFormed
  index : d.records.toList.map (·.index) = List.range d.records.size
  opcodes : d.instructions.map (·.opcode) = List.range d.count
  nodup : (d.instructions.map (·.ident)).Nodup

theorem WellFormed.length_instructions (h : d.WellFormed) : d.instructions.length = d.count := by
  simpa using congrArg List.length h.opcodes

theorem WellFormed.opcode_of_getElem? (h : d.WellFormed) {k : Nat} {inst : Instruction}
    (hk : d.instructions[k]? = some inst) : inst.opcode = k := by
  have hopcode := congrArg (·[k]?) h.opcodes
  have hlt : k < d.count := h.length_instructions ▸ (List.getElem?_eq_some_iff.mp hk).1
  simp only [List.getElem?_map, hk, Option.map_some, List.getElem?_range hlt] at hopcode
  exact Option.some.inj hopcode

theorem instructions_of_parse (h : parse mode text = .ok d) :
    d.instructions = Source.instructions mode (Text.lines text) := by
  obtain ⟨-, rfl⟩ := parse_eq_ok_iff.mp h
  exact (Progress.describes_after mode _).instructions

/-- The records of a parsed definition are the classified lines of the text. -/
theorem records_of_parse (h : parse mode text = .ok d) :
    d.records.toList.map (fun r => (r.index, Except.ok r.line)) =
      classified mode (Text.lines text) := by
  obtain ⟨hr, rfl⟩ := parse_eq_ok_iff.mp h
  rw [(Progress.describes_after mode _).records, (accepted_of_rejected_eq_nil hr).1]

theorem size_records_of_parse (h : parse mode text = .ok d) :
    d.records.size = (Text.lines text).length := by
  simpa [classified] using congrArg List.length (records_of_parse h)

/-- The record of a source line. -/
theorem record_of_parse (h : parse mode text = .ok d) {k : Nat} {raw : String}
    (hk : (Text.lines text)[k]? = some raw) :
    ∃ line, Line.classify mode (idents mode ((Text.lines text).take k)).length raw = .ok line ∧
      d.records[k]? = some ⟨k, line⟩ := by
  have hrecord := congrArg (·[k]?) (records_of_parse h)
  simp only [classified, List.getElem?_map, List.getElem?_mapIdx, hk, Option.map_some,
    Option.map_eq_some_iff, Array.getElem?_toList] at hrecord
  obtain ⟨⟨i, line⟩, hr, hc⟩ := hrecord
  obtain ⟨rfl, hc⟩ := Prod.mk.inj hc
  exact ⟨line, hc.symm, hr⟩

/-- Every record comes from a line of the text. -/
theorem exists_classify_of_parse (h : parse mode text = .ok d) {r : Record}
    (hr : r ∈ d.records.toList) :
    ∃ raw ∈ Text.lines text, ∃ opcode, Line.classify mode opcode raw = .ok r.line := by
  have hmem : (r.index, Except.ok r.line) ∈ classified mode (Text.lines text) :=
    records_of_parse h ▸ List.mem_map_of_mem hr
  obtain ⟨i, hi, hc⟩ := List.mem_mapIdx.mp hmem
  exact ⟨_, List.getElem_mem hi, _, (Prod.mk.inj hc).2⟩

theorem wellFormed_of_parse (h : parse mode text = .ok d) : d.WellFormed where
  line r hr := by
    obtain ⟨raw, hraw, opcode, hc⟩ := exists_classify_of_parse h hr
    exact Line.wellFormed_of_classify hc (Text.notMem_of_mem_lines hraw)
  index := by
    have hfst := congrArg (List.map Prod.fst) (records_of_parse h)
    rw [List.map_map] at hfst
    rw [size_records_of_parse h]
    refine hfst.trans (List.ext_getElem ?_ fun i _ _ => ?_) <;> simp [classified]
  opcodes := by
    rw [instructions_of_parse h, (numbered mode _).opcodes]
    obtain ⟨-, rfl⟩ := parse_eq_ok_iff.mp h
    rw [(Progress.describes_after mode _).count]
  nodup := instructions_of_parse h ▸ (numbered mode _).nodup

theorem map_ident_of_parse (h : parse mode text = .ok d) :
    d.instructions.map (·.ident) = idents mode (Text.lines text) := by
  rw [instructions_of_parse h, (accepted_of_rejected_eq_nil (parse_eq_ok_iff.mp h).1).2]

theorem count_of_parse (h : parse mode text = .ok d) :
    d.count = (idents mode (Text.lines text)).length := by
  rw [← map_ident_of_parse h, List.length_map, (wellFormed_of_parse h).length_instructions]

/-- Parsing succeeds exactly when no line is rejected. -/
theorem exists_parse_iff :
    (∃ d, parse mode text = .ok d) ↔ rejected mode (Text.lines text) = [] := by
  simp [parse_eq_ok_iff]

theorem maxlen_of_parse (h : parse mode text = .ok d) :
    d.maxlen = (idents mode (Text.lines text)).toFinset.sup String.length := by
  obtain ⟨-, rfl⟩ := parse_eq_ok_iff.mp h
  exact (Progress.describes_after mode _).maxlen

/-- The opcode of an identifier is that of its instruction. -/
theorem opcode?_of_parse (h : parse mode text = .ok d) {ident : String} {k : Nat} :
    d.opcode? ident = some k ↔ ∃ inst ∈ d.instructions, inst.ident = ident ∧ inst.opcode = k := by
  rw [instructions_of_parse h]
  obtain ⟨-, rfl⟩ := parse_eq_ok_iff.mp h
  exact (Progress.describes_after mode _).opcode?_eq_some_iff ident k

theorem opcode?_eq_none_of_parse (h : parse mode text = .ok d) {ident : String} :
    d.opcode? ident = none ↔ ident ∉ idents mode (Text.lines text) := by
  obtain ⟨-, rfl⟩ := parse_eq_ok_iff.mp h
  exact (Progress.describes_after mode _).opcode?_eq_none_iff

/-- Parsing succeeds exactly when the classifier accepts every line and no two instruction lines
have one identifier. The definition then has the classified lines as its records, numbers its
instructions from zero, counts them, and knows the length of the longest identifier. -/
theorem parse_ok_meaning (mode : Mode) (text : String) :
    (∀ pieces, Text.HasLines text.toList pieces ↔
      pieces = (Text.lines text).map String.toList) ∧
    ((∃ d, parse mode text = .ok d) ↔
      (∀ c ∈ classified mode (Text.lines text), ∃ line, c.2 = .ok line) ∧
        (idents mode (Text.lines text)).Nodup) ∧
    ∀ d, parse mode text = .ok d →
      d.records.toList.map (fun r => (r.index, Except.ok r.line)) =
          classified mode (Text.lines text) ∧
        d.instructions.map (·.ident) = idents mode (Text.lines text) ∧
        d.instructions.map (·.opcode) = List.range d.count ∧
        d.count = (idents mode (Text.lines text)).length ∧
        d.maxlen = (idents mode (Text.lines text)).toFinset.sup String.length := by
  refine ⟨fun pieces => ?_, ?_, fun d h => ?_⟩
  · rw [Text.hasLines_iff, Text.lines, List.map_map]
    simp [Function.comp_def]
  · rw [← rejected_eq_nil_iff]
    simp [parse_eq_ok_iff]
  · refine ⟨records_of_parse h, map_ident_of_parse h, (wellFormed_of_parse h).opcodes,
      count_of_parse h, ?_⟩
    obtain ⟨-, rfl⟩ := parse_eq_ok_iff.mp h
    exact (Progress.describes_after mode _).maxlen

end OpcodeTable.Definition
