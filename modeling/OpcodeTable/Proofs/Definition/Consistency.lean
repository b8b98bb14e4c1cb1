import OpcodeTable.Proofs.Definition.Change
import OpcodeTable.Proofs.Definition.Progress

/-!
# Definitions while a file is read

A definition keeps its instructions twice, in its records and in its map, and the size of the map
is the next opcode. Records and map agree in every state that reading goes through, whatever was
rejected on the way. So the next opcode is always free: a line is refused only if its identifier is
taken, the line that took it is found, and the definition stays as it is.
-/

namespace OpcodeTable.Definition

open Source

/-- The parts of a definition agree, and its records are of lines before `n`. -/
structure Consistent (n : Nat) (d : Definition) : Prop where
  increasing : (d.records.toList.map (·.index)).Pairwise (· < ·)
  index_lt : ∀ r ∈ d.records.toList, r.index < n
  opcodes : d.instructions.map (·.opcode) = List.range d.count
  /-- The map holds the instructions, searched from either side. -/
  opcode?_eq_some_iff : ∀ ident k, d.opcode? ident = some k ↔
    ∃ inst ∈ d.instructions, inst.ident = ident ∧ inst.opcode = k
  ident?_eq_some_iff : ∀ ident k, d.ident? k = some ident ↔
    ∃ inst ∈ d.instructions, inst.ident = ident ∧ inst.opcode = k
  maxlen : d.maxlen = (d.instructions.map (·.ident)).toFinset.sup String.length

/-- A definition refuses a line only if its identifier is taken, and stays as it is then. -/
structure RefusesOnlyTaken (d : Definition) (index : Nat) (line : Line) : Prop where
  /-- The opcode is never taken. -/
  ident?_eq_none : ∀ inst, line = .instruction inst → d.ident? inst.opcode = none
  exists_error_iff : (∃ fault, d.push index line = .error fault) ↔
    ∃ inst k, line = .instruction inst ∧ d.opcode? inst.ident = some k
  /-- The opcode of a taken identifier leads to the record that took it. -/
  found : ∀ inst k, line = .instruction inst → d.opcode? inst.ident = some k →
    ∃ r ∈ d.records.toList, (∃ name, r.line = .instruction ⟨inst.ident, name, k⟩) ∧
      d.lineOf? k = some r.index ∧ d.push index line = .error (.redefined inst.ident r.index)
  /-- Changing one part after the other leaves all of them as they were when it fails. -/
  inPlace : (Change.accept index line).run d =
    match d.push index line with
    | .ok d' => (.ok (), d')
    | .error fault => (.error fault, d)

namespace Progress

/-- Reading the first `n` lines of the text leads to the state `p`. -/
inductive Reached (mode : Mode) (text : String) : Nat → Progress → Prop
  | start : Reached mode text 0 .start
  | step {n : Nat} {p : Progress} {raw : String} (h : Reached mode text n p)
      (hraw : (Text.lines text)[n]? = some raw) : Reached mode text (n + 1) (p.step mode (raw, n))

variable {mode : Mode} {text : String} {ls : List String} {n : Nat} {p : Progress}

theorem Reached.eq_after (h : Reached mode text n p) :
    n ≤ (Text.lines text).length ∧ p = after mode ((Text.lines text).take n) := by
  induction h with
  | start => exact ⟨Nat.zero_le _, rfl⟩
  | step _ hraw ih =>
    obtain ⟨hn, rfl⟩ := List.getElem?_eq_some_iff.mp hraw
    refine ⟨hn, ?_⟩
    rw [List.take_succ_eq_append_getElem hn, after_concat, ← ih.2, List.length_take_of_le ih.1]

theorem reached_after (h : n ≤ (Text.lines text).length) :
    Reached mode text n (after mode ((Text.lines text).take n)) := by
  induction n with
  | zero => exact .start
  | succ n ih =>
    have hn : n ≤ (Text.lines text).length := Nat.le_of_succ_le h
    rw [List.take_succ_eq_append_getElem h, after_concat, List.length_take_of_le hn]
    exact .step (ih hn) (List.getElem?_eq_getElem h)

/-- Reading goes through the states after each number of lines. -/
theorem reached_iff : Reached mode text n p ↔
    n ≤ (Text.lines text).length ∧ p = after mode ((Text.lines text).take n) := by
  constructor
  · exact Reached.eq_after
  · rintro ⟨hn, rfl⟩
    exact reached_after hn

/-- The last state is the one that parsing goes by. -/
theorem reached_progress (mode : Mode) (text : String) :
    Reached mode text (Text.lines text).length (progress mode text) := by
  have h : Reached mode text _ _ := reached_after le_rfl
  rwa [List.take_length] at h

namespace Describes

theorem consistent (h : Describes mode ls p) : Consistent ls.length p.definition := by
  have hindex := h.records ▸ sublist_index_accepted mode ls
  have hidents : ((Source.instructions mode ls).map (·.ident)).toFinset =
      (idents mode ls).toFinset := by
    ext ident
    rw [List.mem_toFinset, List.mem_toFinset, (numbered mode ls).mem_iff]
  refine ⟨List.pairwise_lt_range.sublist hindex, fun r hr => ?_, ?_, ?_, fun ident k => ?_, ?_⟩
  · exact List.mem_range.mp (hindex.subset (List.mem_map_of_mem hr))
  · rw [h.instructions, (numbered mode ls).opcodes, h.count]
  · rw [h.instructions]
    exact h.opcode?_eq_some_iff
  · rw [h.instructions, ← h.opcode?_eq_some_iff]
    exact OpcodeMap.opcode?_eq_some_iff.symm
  · rw [h.instructions, hidents, h.maxlen]

/-- An instruction whose identifier has an opcode is refused with the line that has it. -/
theorem exists_push_taken (h : Describes mode ls p) {inst : Instruction} {k : Nat} (index : Nat)
    (hopcode : inst.opcode = nextOpcode mode ls) (hk : p.definition.opcode? inst.ident = some k) :
    ∃ r ∈ p.definition.records.toList, (∃ name, r.line = .instruction ⟨inst.ident, name, k⟩) ∧
      p.definition.lineOf? k = some r.index ∧
      p.definition.push index (.instruction inst) = .error (.redefined inst.ident r.index) := by
  obtain ⟨r, hr, name, hl⟩ := h.exists_record hk
  have hd := defines_of_mem_accepted hr hl
  exact ⟨r, h.records ▸ hr, ⟨name, hl⟩, h.lineOf?_opcode hr hl, h.push_taken index hopcode hd⟩

/-- A line with the next opcode is refused only for its identifier. -/
theorem refusesOnlyTaken (h : Describes mode ls p) (index : Nat) {line : Line}
    (hline : ∀ inst, line = .instruction inst → inst.opcode = nextOpcode mode ls) :
    RefusesOnlyTaken p.definition index line := by
  have found {inst : Instruction} {k : Nat} (hinst : line = .instruction inst)
      (hk : p.definition.opcode? inst.ident = some k) :=
    hinst ▸ h.exists_push_taken index (hline inst hinst) hk
  refine ⟨fun inst hinst => ?_, ⟨?_, ?_⟩, fun inst k => found,
    Change.run_accept index line p.definition⟩
  · rw [hline inst hinst]
    exact h.ident?_nextOpcode
  · rintro ⟨fault, hfault⟩
    -- only an instruction can be refused, and not one with a new identifier
    cases line with
    | comment text => simp [push] at hfault
    | blank => simp [push] at hfault
    | instruction inst =>
      cases hk : p.definition.opcode? inst.ident with
      | some k => exact ⟨inst, k, rfl, hk⟩
      | none =>
        obtain ⟨_, hpush⟩ := h.push_new index (hline inst rfl) (h.opcode?_eq_none_iff.mp hk)
        simp [hpush] at hfault
  · rintro ⟨inst, k, hinst, hk⟩
    obtain ⟨r, -, -, -, hpush⟩ := found hinst hk
    exact ⟨_, hpush⟩

end Describes

/-- In every state that reading goes through, the parts of the definition agree, a further line is
refused only for its identifier and without a trace, and it makes no difference whether it is read
in place. -/
theorem reached_consistent (mode : Mode) (text : String) (n : Nat) (p : Progress)
    (h : Reached mode text n p) :
    Consistent n p.definition ∧
      (∀ index raw line, Line.classify mode p.definition.count raw = .ok line →
        RefusesOnlyTaken p.definition index line) ∧
      ∀ raw, p.stepInPlace mode (raw, n) = p.step mode (raw, n) := by
  obtain ⟨hn, rfl⟩ := reached_iff.mp h
  have hd := describes_after mode ((Text.lines text).take n)
  have hconsistent := hd.consistent
  rw [List.length_take_of_le hn] at hconsistent
  refine ⟨hconsistent, fun index raw line hc => hd.refusesOnlyTaken index ?_,
    fun raw => stepInPlace_eq mode _ (raw, n)⟩
  rintro inst rfl
  rw [Line.opcode_of_classify hc, hd.count]

/-- A third line with an identifier, behind a line without a name and a second one. -/
theorem reached_consistent_repeated : ∃ p, Reached .strict "A a\nB\nA b\nA c" 3 p ∧
    Consistent 3 p.definition ∧
    p.rejections.toList = [⟨1, .missingName "B"⟩, ⟨2, .redefined "A" 0⟩] ∧
    Line.classify .strict p.definition.count "A c" = .ok (.instruction ⟨"A", "c", 1⟩) ∧
    ∃ first < 3, (Change.accept 3 (.instruction ⟨"A", "c", 1⟩)).run p.definition =
      (.error (.redefined "A" first), p.definition) := by
  have hlines : Text.lines "A a\nB\nA b\nA c" = ["A a", "B", "A b", "A c"] := by decide
  have hreached : Reached .strict "A a\nB\nA b\nA c" 3 (after .strict ["A a", "B", "A b"]) :=
    reached_iff.mpr (by rw [hlines]; exact ⟨by decide, rfl⟩)
  have hd := describes_after .strict ["A a", "B", "A b"]
  obtain ⟨hconsistent, hrefuses, -⟩ := reached_consistent _ _ _ _ hreached
  have hc : Line.classify .strict (after .strict ["A a", "B", "A b"]).definition.count "A c" =
      .ok (.instruction ⟨"A", "c", 1⟩) := by
    rw [hd.count]
    decide
  have hk : (after .strict ["A a", "B", "A b"]).definition.opcode? "A" = some 0 := by
    rw [hconsistent.opcode?_eq_some_iff, hd.instructions]
    exact ⟨⟨"A", "a", 0⟩, by decide, rfl, rfl⟩
  have hrefuse := hrefuses 3 _ _ hc
  obtain ⟨r, hr, -, -, hpush⟩ := hrefuse.found _ _ rfl hk
  refine ⟨_, hreached, hconsistent, ?_, hc, r.index, hconsistent.index_lt r hr, ?_⟩
  · rw [hd.rejections]
    decide
  · rw [hrefuse.inPlace, hpush]

end Progress

end OpcodeTable.Definition
