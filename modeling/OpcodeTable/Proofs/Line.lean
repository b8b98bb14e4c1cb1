import OpcodeTable.Proofs.Text.Lines
import OpcodeTable.Line

/-!
# Laws of the line classifier

The opcode that is offered to a line never decides how the line is classified, so every line has
one identifier or none. What the classifier accepts is well formed: no text in it holds a line
feed, and fields are not empty and hold no space.
-/

namespace OpcodeTable

/-- A text that can stand as one field of a line. -/
structure IsField (s : String) : Prop where
  ne_nil : s.toList ≠ []
  space_notMem : ' ' ∉ s.toList
  lf_notMem : '\n' ∉ s.toList

/-- The fields of a line are made of its characters, without any space. -/
theorem Mode.mem_of_mem_fields {mode : Mode} {cs field : List Char} (h : field ∈ mode.fields cs)
    {c : Char} (hc : c ∈ field) : c ∈ cs ∧ c ≠ ' ' := by
  cases mode with
  | strict => exact Text.mem_of_mem_fields h hc
  | lenient =>
    obtain ⟨-, hword⟩ := Text.mem_of_mem_words (List.mem_of_mem_take h)
    refine ⟨(hword c hc).1, ?_⟩
    rintro rfl
    exact absurd (hword ' ' hc).2 (by decide)

theorem Mode.isField_of_mem_fields {mode : Mode} {cs field : List Char}
    (h : field ∈ mode.fields cs) (hne : field ≠ []) (hlf : '\n' ∉ cs) :
    IsField (String.ofList field) := by
  refine ⟨by simpa using hne, ?_, ?_⟩
  · intro hc
    exact (mem_of_mem_fields h (by simpa using hc)).2 rfl
  · intro hc
    exact hlf (mem_of_mem_fields h (by simpa using hc)).1

namespace Line

theorem instruction?_eq_some_iff {line : Line} {inst : Instruction} :
    line.instruction? = some inst ↔ line = instruction inst := by
  cases line <;> simp

/-- The line with another opcode, if it is an instruction. -/
def withOpcode (opcode : Nat) : Line → Line
  | instruction inst => instruction { inst with opcode }
  | line => line

/-- The classification does not depend on the opcode, which is only passed on. -/
theorem classify_eq_map (mode : Mode) (opcode k : Nat) (raw : String) :
    classify mode opcode raw = (classify mode k raw).map (withOpcode opcode) := by
  simp only [classify]
  split
  · rfl
  · split
    · rfl
    · split
      · split <;> rfl
      · rfl
      · rfl

theorem classify_eq_error_iff {mode : Mode} {raw : String} {fault : LineFault} (opcode k : Nat) :
    classify mode opcode raw = .error fault ↔ classify mode k raw = .error fault := by
  rw [classify_eq_map mode opcode k]
  cases classify mode k raw <;> simp [Except.map]

theorem classify_of_no_instruction {mode : Mode} {opcode : Nat} {raw : String} {line : Line}
    (h : classify mode opcode raw = .ok line) (hl : line.instruction? = none) (k : Nat) :
    classify mode k raw = .ok line := by
  rw [classify_eq_map mode k opcode, h]
  cases line with
  | instruction inst => simp at hl
  | comment text => rfl
  | blank => rfl

/-- What the classifier accepts: a comment, the empty line, or a line of two fields. -/
theorem classify_eq_ok {mode : Mode} {opcode : Nat} {raw : String} {line : Line}
    (h : classify mode opcode raw = .ok line) :
    (line = comment raw ∧ commentMarker <+: raw.toList) ∨ line = blank ∨
      ∃ ident name, mode.fields raw.toList = [ident, name] ∧ ident ≠ [] ∧ name ≠ [] ∧
        line = instruction ⟨String.ofList ident, String.ofList name, opcode⟩ := by
  simp only [classify] at h
  split at h
  · next hc => exact .inl ⟨by simpa using h.symm, List.isPrefixOf_iff_prefix.mp hc⟩
  · split at h
    · exact .inr (.inl (by simpa using h.symm))
    · split at h
      · next ident name hf =>
        split at h
        · simp at h
        · next hne =>
          obtain ⟨hi, hn⟩ : ident ≠ [] ∧ name ≠ [] := by simpa using hne
          exact .inr (.inr ⟨ident, name, hf, hi, hn, by simpa using h.symm⟩)
      · simp at h
      · simp at h

/-- The classifier alone never finds a repeated identifier. -/
theorem classify_ne_redefined {mode : Mode} {opcode : Nat} {raw ident : String} {first : Nat} :
    classify mode opcode raw ≠ .error (.redefined ident first) := by
  simp only [classify]
  split
  · simp
  · split
    · simp
    · split
      · split <;> simp
      · simp
      · simp

theorem opcode_of_classify {mode : Mode} {opcode : Nat} {raw : String} {inst : Instruction}
    (h : classify mode opcode raw = .ok (instruction inst)) : inst.opcode = opcode := by
  rcases classify_eq_ok h with ⟨h, -⟩ | h | ⟨ident, name, -, -, -, h⟩ <;> simp_all

/-- The identifier of a line that is an instruction. -/
def ident? (mode : Mode) (raw : String) : Option String :=
  match classify mode 0 raw with
  | .ok line => line.instruction?.map (·.ident)
  | .error _ => none

theorem ident?_of_error {mode : Mode} {opcode : Nat} {raw : String} {fault : LineFault}
    (h : classify mode opcode raw = .error fault) : ident? mode raw = none := by
  rw [classify_eq_error_iff opcode 0] at h
  simp [ident?, h]

/-- Whatever its opcode, a classified line has the identifier that `ident?` says. -/
theorem ident?_of_ok {mode : Mode} {opcode : Nat} {raw : String} {line : Line}
    (h : classify mode opcode raw = .ok line) :
    ident? mode raw = line.instruction?.map (·.ident) := by
  rw [ident?, classify_eq_map mode 0 opcode, h]
  cases line <;> rfl

/-- What the classifier guarantees about an accepted line of a file. -/
def WellFormed : Line → Prop
  | comment text => commentMarker <+: text.toList ∧ '\n' ∉ text.toList
  | blank => True
  | instruction inst => IsField inst.ident ∧ IsField inst.name

theorem wellFormed_of_classify {mode : Mode} {opcode : Nat} {raw : String} {line : Line}
    (h : classify mode opcode raw = .ok line) (hlf : '\n' ∉ raw.toList) : line.WellFormed := by
  rcases classify_eq_ok h with ⟨rfl, hc⟩ | rfl | ⟨ident, name, hf, hi, hn, rfl⟩
  · exact ⟨hc, hlf⟩
  · trivial
  · exact ⟨Mode.isField_of_mem_fields (by rw [hf]; simp) hi hlf,
      Mode.isField_of_mem_fields (by rw [hf]; simp) hn hlf⟩

end Line

end OpcodeTable
