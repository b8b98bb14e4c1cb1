import OpcodeTable.Proofs.Line
import OpcodeTable.Definition

/-!
# What the lines of a file amount to

A list of lines decides by itself which lines are accepted, with which opcodes, and which are
rejected and why: `verdict` says so for one line from the lines before it, without keeping a
definition. `accepted` and `rejected` collect the verdicts of a whole file. Instructions that are
accepted are numbered from zero, and each stands on the first line with its identifier.
-/

namespace OpcodeTable.Source

variable {mode : Mode} {ls : List String} {raw ident : String} {i j : Nat}

/-- The identifiers of the instruction lines in order. -/
def idents (mode : Mode) (ls : List String) : List String :=
  ls.filterMap (Line.ident? mode)

/-- The lines with their indices, each classified with the number of instruction lines before it
as its opcode. -/
def classified (mode : Mode) (ls : List String) : List (Nat × Except LineFault Line) :=
  ls.mapIdx fun i raw => (i, Line.classify mode (idents mode (ls.take i)).length raw)

/-- The identifier of the line with the given index, if that line is an instruction. -/
def identAt? (mode : Mode) (ls : List String) (i : Nat) : Option String :=
  ls[i]?.bind (Line.ident? mode)

/-- Line `i` is the first instruction line with the identifier. -/
def Defines (mode : Mode) (ls : List String) (ident : String) (i : Nat) : Prop :=
  IsLeast {j | identAt? mode ls j = some ident} i

/-- The index of the first instruction line with the identifier. -/
def first? (mode : Mode) (ls : List String) (ident : String) : Option Nat :=
  ls.findIdx? fun raw => Line.ident? mode raw = some ident

/-- The number of distinct identifiers, which is the opcode of the next new one. -/
def nextOpcode (mode : Mode) (ls : List String) : Nat :=
  (idents mode ls).toFinset.card

/-- What a line amounts to after the lines before it: an instruction is refused when one of them
has its identifier. -/
def verdict (mode : Mode) (before : List String) (raw : String) : Except LineFault Line :=
  match Line.classify mode (nextOpcode mode before) raw with
  | .ok (.instruction inst) =>
    match first? mode before inst.ident with
    | some first => .error (.redefined inst.ident first)
    | none => .ok (.instruction inst)
  | other => other

def verdicts (mode : Mode) (ls : List String) : List (Nat × Except LineFault Line) :=
  ls.mapIdx fun i raw => (i, verdict mode (ls.take i) raw)

/-- The accepted lines of a file. -/
def accepted (mode : Mode) (ls : List String) : List Record :=
  (verdicts mode ls).filterMap fun
    | (i, .ok line) => some ⟨i, line⟩
    | (_, .error _) => none

/-- The rejected lines of a file. -/
def rejected (mode : Mode) (ls : List String) : List Rejection :=
  (verdicts mode ls).filterMap fun
    | (_, .ok _) => none
    | (i, .error fault) => some ⟨i, fault⟩

/-- The accepted instructions of a file. -/
def instructions (mode : Mode) (ls : List String) : List Instruction :=
  (accepted mode ls).filterMap (·.line.instruction?)

/-! ## Identifiers and first lines -/

@[simp] theorem idents_concat (mode : Mode) (ls : List String) (raw : String) :
    idents mode (ls ++ [raw]) = idents mode ls ++ (Line.ident? mode raw).toList := by
  cases h : Line.ident? mode raw <;> simp [idents, h]

theorem identAt?_append_left (h : i < ls.length) (ms : List String) :
    identAt? mode (ls ++ ms) i = identAt? mode ls i := by
  rw [identAt?, identAt?, List.getElem?_append_left h]

theorem identAt?_append_length :
    identAt? mode (ls ++ [raw]) ls.length = Line.ident? mode raw := by
  simp [identAt?]

theorem identAt?_take (h : j < i) : identAt? mode (ls.take i) j = identAt? mode ls j := by
  simp [identAt?, h]

theorem lt_length_of_identAt? (h : identAt? mode ls i = some ident) : i < ls.length := by
  obtain ⟨raw, hraw, -⟩ := Option.bind_eq_some_iff.mp h
  exact (List.getElem?_eq_some_iff.mp hraw).1

theorem mem_idents_iff : ident ∈ idents mode ls ↔ ∃ i, identAt? mode ls i = some ident := by
  simp only [idents, List.mem_filterMap, identAt?, Option.bind_eq_some_iff]
  constructor
  · rintro ⟨raw, hraw, h⟩
    obtain ⟨i, hi⟩ := List.getElem?_of_mem hraw
    exact ⟨i, raw, hi, h⟩
  · rintro ⟨i, raw, hi, h⟩
    exact ⟨raw, List.mem_of_getElem? hi, h⟩

theorem Defines.lt_length (h : Defines mode ls ident i) : i < ls.length :=
  lt_length_of_identAt? h.1

theorem Defines.append (h : Defines mode ls ident i) (ms : List String) :
    Defines mode (ls ++ ms) ident i := by
  refine ⟨(identAt?_append_left h.lt_length ms).trans h.1, fun j hj => ?_⟩
  by_contra hlt
  have hj' : identAt? mode ls j = some ident :=
    (identAt?_append_left ((not_le.mp hlt).trans h.lt_length) ms).symm.trans hj
  exact hlt (h.2 hj')

theorem defines_concat (h : ident ∉ idents mode ls) (hraw : Line.ident? mode raw = some ident) :
    Defines mode (ls ++ [raw]) ident ls.length := by
  refine ⟨identAt?_append_length.trans hraw, fun j hj => ?_⟩
  by_contra hlt
  have hj' : identAt? mode ls j = some ident :=
    (identAt?_append_left (not_le.mp hlt) [raw]).symm.trans hj
  exact h (mem_idents_iff.mpr ⟨j, hj'⟩)

/-- The first line is the same when the file ends behind it. -/
theorem defines_take_iff :
    Defines mode (ls.take i) ident j ↔ Defines mode ls ident j ∧ j < i := by
  constructor
  · intro h
    have hj : j < i := h.lt_length.trans_le (by simp)
    have := h.append (ls.drop i)
    rw [List.take_append_drop] at this
    exact ⟨this, hj⟩
  · rintro ⟨h, hj⟩
    refine ⟨(identAt?_take hj).trans h.1, fun k hk => h.2 ?_⟩
    have hk' := lt_length_of_identAt? hk
    exact (identAt?_take (hk'.trans_le (by simp))).symm.trans hk

theorem first?_eq_some_iff : first? mode ls ident = some i ↔ Defines mode ls ident i := by
  rw [first?, List.findIdx?_eq_some_iff_getElem]
  constructor
  · rintro ⟨hi, h, hlt⟩
    refine ⟨by simpa [identAt?, hi] using h, fun j hj => ?_⟩
    by_contra hji
    have hj' := hlt j (not_le.mp hji)
    exact hj' (by simpa [identAt?, (not_le.mp hji).trans hi] using hj)
  · intro h
    have hi := h.lt_length
    refine ⟨hi, by simpa [identAt?, hi] using h.1, fun j hji hj => ?_⟩
    have := h.2 (show identAt? mode ls j = some ident by simpa [identAt?, hji.trans hi] using hj)
    omega

theorem first?_eq_none_iff : first? mode ls ident = none ↔ ident ∉ idents mode ls := by
  simp [first?, idents]

theorem exists_defines (h : ident ∈ idents mode ls) : ∃ i, Defines mode ls ident i := by
  cases hf : first? mode ls ident with
  | none => exact absurd h (first?_eq_none_iff.mp hf)
  | some i => exact ⟨i, first?_eq_some_iff.mp hf⟩

/-! ## Verdicts -/

/-- How a further line can turn out: the classifier rejects it, it is no instruction, its
identifier is taken, or it is a new instruction with the next opcode. -/
theorem verdict_cases (mode : Mode) (ls : List String) (raw : String) :
    (∃ fault, (∀ k, Line.classify mode k raw = .error fault) ∧
      verdict mode ls raw = .error fault) ∨
    (∃ line, (∀ k, Line.classify mode k raw = .ok line) ∧ line.instruction? = none ∧
      verdict mode ls raw = .ok line) ∨
    (∃ inst, Line.classify mode (nextOpcode mode ls) raw = .ok (.instruction inst) ∧
      inst.opcode = nextOpcode mode ls ∧ Line.ident? mode raw = some inst.ident ∧
      ((∃ first, Defines mode ls inst.ident first ∧
          verdict mode ls raw = .error (.redefined inst.ident first)) ∨
        (inst.ident ∉ idents mode ls ∧ verdict mode ls raw = .ok (.instruction inst)))) := by
  cases h : Line.classify mode (nextOpcode mode ls) raw with
  | error fault =>
    exact .inl ⟨fault, fun k => (Line.classify_eq_error_iff _ k).mp h, by simp [verdict, h]⟩
  | ok line =>
    cases line with
    | instruction inst =>
      refine .inr (.inr ⟨inst, rfl, Line.opcode_of_classify h, Line.ident?_of_ok h, ?_⟩)
      cases hf : first? mode ls inst.ident with
      | some first => exact .inl ⟨first, first?_eq_some_iff.mp hf, by simp [verdict, h, hf]⟩
      | none => exact .inr ⟨first?_eq_none_iff.mp hf, by simp [verdict, h, hf]⟩
    | comment text =>
      exact .inr (.inl ⟨_, Line.classify_of_no_instruction h rfl, rfl, by simp [verdict, h]⟩)
    | blank =>
      exact .inr (.inl ⟨_, Line.classify_of_no_instruction h rfl, rfl, by simp [verdict, h]⟩)

/-- What is computed for each line from the lines before it stays when a line is added. -/
theorem mapIdx_take_concat {α : Type} (f : List String → String → α) (ls : List String)
    (raw : String) :
    (ls ++ [raw]).mapIdx (fun i l => (i, f ((ls ++ [raw]).take i) l)) =
      ls.mapIdx (fun i l => (i, f (ls.take i) l)) ++ [(ls.length, f ls raw)] := by
  rw [List.mapIdx_concat, List.take_left]
  congr 1
  refine List.mapIdx_eq_mapIdx_iff.mpr fun i hi => ?_
  rw [List.take_append_of_le_length hi.le]

@[simp] theorem verdicts_concat (mode : Mode) (ls : List String) (raw : String) :
    verdicts mode (ls ++ [raw]) = verdicts mode ls ++ [(ls.length, verdict mode ls raw)] :=
  mapIdx_take_concat (verdict mode) ls raw

@[simp] theorem classified_concat (mode : Mode) (ls : List String) (raw : String) :
    classified mode (ls ++ [raw]) = classified mode ls ++
      [(ls.length, Line.classify mode (idents mode ls).length raw)] :=
  mapIdx_take_concat (fun before => Line.classify mode (idents mode before).length) ls raw

theorem accepted_concat_ok {line : Line} (h : verdict mode ls raw = .ok line) :
    accepted mode (ls ++ [raw]) = accepted mode ls ++ [⟨ls.length, line⟩] := by
  simp [accepted, h]

theorem accepted_concat_error {fault : LineFault} (h : verdict mode ls raw = .error fault) :
    accepted mode (ls ++ [raw]) = accepted mode ls := by
  simp [accepted, h]

theorem rejected_concat_ok {line : Line} (h : verdict mode ls raw = .ok line) :
    rejected mode (ls ++ [raw]) = rejected mode ls := by
  simp [rejected, h]

theorem rejected_concat_error {fault : LineFault} (h : verdict mode ls raw = .error fault) :
    rejected mode (ls ++ [raw]) = rejected mode ls ++ [⟨ls.length, fault⟩] := by
  simp [rejected, h]

/-- A line that is refused adds no identifier. -/
theorem toFinset_idents_concat_error {fault : LineFault}
    (h : verdict mode ls raw = .error fault) :
    (idents mode (ls ++ [raw])).toFinset = (idents mode ls).toFinset := by
  rcases verdict_cases mode ls raw with ⟨fault, hc, -⟩ | ⟨line, -, -, hv⟩ |
    ⟨inst, -, -, hid, ⟨first, hd, -⟩ | ⟨-, hv⟩⟩
  · simp [Line.ident?_of_error (hc 0)]
  · simp [hv] at h
  · have hmem : inst.ident ∈ idents mode ls := mem_idents_iff.mpr ⟨first, hd.1⟩
    ext s
    simp only [idents_concat, hid, List.mem_toFinset, List.mem_append, Option.mem_toList,
      Option.some.injEq]
    constructor
    · rintro (h | rfl)
      · exact h
      · exact hmem
    · exact .inl
  · simp [hv] at h

/-- A new identifier takes the next opcode away. -/
theorem nextOpcode_concat (h : ident ∉ idents mode ls)
    (hraw : Line.ident? mode raw = some ident) :
    nextOpcode mode (ls ++ [raw]) = nextOpcode mode ls + 1 := by
  rw [nextOpcode, idents_concat, hraw, List.toFinset_append, Finset.card_union_of_disjoint] <;>
    simp [nextOpcode, h]

/-- A further line changes nothing about the instructions, or it adds a new one. -/
theorem instructions_concat_cases (mode : Mode) (ls : List String) (raw : String) :
    (instructions mode (ls ++ [raw]) = instructions mode ls ∧
      (idents mode (ls ++ [raw])).toFinset = (idents mode ls).toFinset) ∨
    ∃ inst, inst.opcode = nextOpcode mode ls ∧ inst.ident ∉ idents mode ls ∧
      Line.ident? mode raw = some inst.ident ∧
      instructions mode (ls ++ [raw]) = instructions mode ls ++ [inst] := by
  rcases verdict_cases mode ls raw with ⟨fault, -, hv⟩ | ⟨line, hc, hline, hv⟩ |
    ⟨inst, -, hk, hid, ⟨first, -, hv⟩ | ⟨hnew, hv⟩⟩
  · exact .inl ⟨by simp [instructions, accepted_concat_error hv], toFinset_idents_concat_error hv⟩
  · left
    simp [instructions, accepted_concat_ok hv, Line.ident?_of_ok (hc 0), hline]
  · exact .inl ⟨by simp [instructions, accepted_concat_error hv], toFinset_idents_concat_error hv⟩
  · exact .inr ⟨inst, hk, hnew, hid, by simp [instructions, accepted_concat_ok hv]⟩

/-- The accepted instructions of a file are numbered from zero, one for each identifier. -/
structure Numbered (mode : Mode) (ls : List String) : Prop where
  opcodes : (instructions mode ls).map (·.opcode) = List.range (nextOpcode mode ls)
  nodup : ((instructions mode ls).map (·.ident)).Nodup
  mem_iff : ∀ ident, ident ∈ (instructions mode ls).map (·.ident) ↔ ident ∈ idents mode ls

theorem numbered (mode : Mode) (ls : List String) : Numbered mode ls := by
  induction ls using List.reverseRecOn with
  | nil => exact ⟨rfl, .nil, fun _ => .rfl⟩
  | append_singleton ls raw ih =>
    rcases instructions_concat_cases mode ls raw with ⟨hi, hf⟩ | ⟨inst, hk, hnew, hid, hi⟩
    · refine ⟨?_, hi ▸ ih.nodup, fun ident => ?_⟩
      · rw [hi, nextOpcode, hf]
        exact ih.opcodes
      · rw [hi, ih.mem_iff, ← List.mem_toFinset, ← List.mem_toFinset, hf]
    · refine ⟨?_, ?_, fun ident => ?_⟩
      · rw [hi, List.map_append, ih.opcodes, nextOpcode_concat hnew hid, List.range_succ]
        simp [hk]
      · rw [hi, List.map_append, List.nodup_append]
        refine ⟨ih.nodup, by simp, ?_⟩
        simp only [List.map_cons, List.map_nil, List.mem_singleton, ih.mem_iff]
        rintro s hs _ rfl rfl
        exact hnew hs
      · rw [hi, idents_concat, hid, List.map_append, List.mem_append, ih.mem_iff]
        simp

/-- An accepted instruction stands on the first line with its identifier. -/
theorem defines_of_mem_accepted {r : Record} {inst : Instruction} (hr : r ∈ accepted mode ls)
    (hl : r.line = .instruction inst) : Defines mode ls inst.ident r.index := by
  induction ls using List.reverseRecOn with
  | nil => simp [accepted, verdicts] at hr
  | append_singleton ls raw ih =>
    cases hv : verdict mode ls raw with
    | error fault =>
      rw [accepted_concat_error hv] at hr
      exact (ih hr).append [raw]
    | ok line =>
      rw [accepted_concat_ok hv, List.mem_append, List.mem_singleton] at hr
      rcases hr with hr | rfl
      · exact (ih hr).append [raw]
      · rcases verdict_cases mode ls raw with ⟨fault, -, hv'⟩ | ⟨line', -, hline, hv'⟩ |
          ⟨inst', -, -, hid, ⟨first, -, hv'⟩ | ⟨hnew, hv'⟩⟩
        all_goals simp_all
        exact defines_concat hnew hid

/-- The accepted lines stand in file order. -/
theorem sublist_index_accepted (mode : Mode) (ls : List String) :
    ((accepted mode ls).map (·.index)).Sublist (List.range ls.length) := by
  induction ls using List.reverseRecOn with
  | nil => exact .refl _
  | append_singleton ls raw ih =>
    rw [List.length_append, List.length_singleton, List.range_succ]
    cases hv : verdict mode ls raw with
    | error fault =>
      rw [accepted_concat_error hv]
      exact ih.trans (List.sublist_append_left _ _)
    | ok line =>
      rw [accepted_concat_ok hv, List.map_append]
      exact ih.append (.refl _)

end OpcodeTable.Source
