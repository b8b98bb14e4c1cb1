import OpcodeTable.Proofs.Source.Rejections

/-!
# Lines behind other lines

Lines that are added to a file change nothing about the lines before them. The added lines are
classified as in a file of their own, only with later indices and later opcodes.
-/

namespace OpcodeTable

/-- The line with its opcode `k` later, if it is an instruction. -/
def Line.shift (k : Nat) : Line → Line
  | instruction inst => instruction { inst with opcode := k + inst.opcode }
  | line => line

/-- The record `n` lines and `k` opcodes later. -/
def Record.shift (n k : Nat) (r : Record) : Record :=
  ⟨n + r.index, r.line.shift k⟩

theorem Line.instruction?_shift (k : Nat) (line : Line) :
    (line.shift k).instruction? =
      line.instruction?.map fun inst => { inst with opcode := k + inst.opcode } := by
  cases line <;> rfl

theorem Line.classify_add (mode : Mode) (k opcode : Nat) (raw : String) :
    classify mode (k + opcode) raw = (classify mode opcode raw).map (shift k) := by
  rw [classify_eq_map mode (k + opcode) opcode]
  cases h : classify mode opcode raw with
  | error fault => rfl
  | ok line =>
    cases line with
    | comment text => rfl
    | blank => rfl
    | instruction inst => simp [Except.map, withOpcode, shift, opcode_of_classify h]

namespace Source

variable {mode : Mode} {ls ms : List String}

@[simp] theorem idents_append (mode : Mode) (ls ms : List String) :
    idents mode (ls ++ ms) = idents mode ls ++ idents mode ms :=
  List.filterMap_append

theorem classified_append (mode : Mode) (ls ms : List String) :
    classified mode (ls ++ ms) = classified mode ls ++ (classified mode ms).map fun c =>
      (ls.length + c.1, c.2.map (Line.shift (idents mode ls).length)) := by
  induction ms using List.reverseRecOn with
  | nil => simp [classified]
  | append_singleton ms raw ih =>
    rw [← List.append_assoc, classified_concat, ih, classified_concat, idents_append,
      List.length_append, List.length_append, Line.classify_add]
    simp

/-- What is reported about the first lines stays, and all else is about the lines behind them. -/
theorem exists_rejected_append (mode : Mode) (ls ms : List String) :
    ∃ rs, rejected mode (ls ++ ms) = rejected mode ls ++ rs ∧ ∀ r ∈ rs, ls.length ≤ r.index := by
  induction ms using List.reverseRecOn with
  | nil => exact ⟨[], by simp⟩
  | append_singleton ms raw ih =>
    obtain ⟨rs, hrs, hle⟩ := ih
    rw [← List.append_assoc]
    cases hv : verdict mode (ls ++ ms) raw with
    | ok line => exact ⟨rs, by rw [rejected_concat_ok hv, hrs], hle⟩
    | error fault =>
      refine ⟨rs ++ [⟨(ls ++ ms).length, fault⟩], ?_, ?_⟩
      · rw [rejected_concat_error hv, hrs, List.append_assoc]
      · simp only [List.mem_append, List.mem_singleton]
        rintro r (hr | rfl)
        · exact hle r hr
        · simp

theorem filter_rejected_append (mode : Mode) (ls ms : List String) :
    (rejected mode (ls ++ ms)).filter (·.index < ls.length) = rejected mode ls := by
  obtain ⟨rs, hrs, hle⟩ := exists_rejected_append mode ls ms
  have hfirst : (rejected mode ls).filter (·.index < ls.length) = rejected mode ls :=
    List.filter_eq_self.mpr fun r hr => by simpa using index_lt_of_mem_rejected hr
  have hsecond : rs.filter (·.index < ls.length) = [] :=
    List.filter_eq_nil_iff.mpr fun r hr => by simpa using hle r hr
  rw [hrs, List.filter_append, hfirst, hsecond, List.append_nil]

/-- Nothing is rejected exactly when nothing is in either part and the parts share no
identifier. -/
theorem rejected_append_eq_nil_iff :
    rejected mode (ls ++ ms) = [] ↔
      rejected mode ls = [] ∧ rejected mode ms = [] ∧
        (idents mode ls).Disjoint (idents mode ms) := by
  have hok (c : Nat × Except LineFault Line) :
      (∃ line, c.2.map (Line.shift (idents mode ls).length) = .ok line) ↔
        ∃ line, c.2 = .ok line := by
    obtain ⟨i, _ | _⟩ := c <;> simp [Except.map]
  simp only [rejected_eq_nil_iff, classified_append, idents_append, List.nodup_append',
    List.forall_mem_append, List.forall_mem_map, hok]
  tauto

end Source

end OpcodeTable
