import OpcodeTable.Proofs.Definition.Parse

/-!
# Looking identifiers and opcodes up

A parsed definition keeps its instructions twice: as records in file order, and as pairs of
identifiers and opcodes that are searched from both sides. Both searches find exactly the
instructions, so each undoes the other.
-/

namespace OpcodeTable.Definition

variable {mode : Mode} {text : String} {d : Definition}

theorem ident?_eq_some_iff {ident : String} {k : Nat} :
    d.ident? k = some ident ↔ d.opcode? ident = some k :=
  OpcodeMap.opcode?_eq_some_iff.symm

/-- The instruction with an opcode stands at its place in file order. -/
theorem WellFormed.exists_getElem?_iff (h : d.WellFormed) {ident : String} {k : Nat} :
    (∃ inst, d.instructions[k]? = some inst ∧ inst.ident = ident) ↔
      ∃ inst ∈ d.instructions, inst.ident = ident ∧ inst.opcode = k := by
  constructor
  · rintro ⟨inst, hk, hident⟩
    exact ⟨inst, List.mem_of_getElem? hk, hident, h.opcode_of_getElem? hk⟩
  · rintro ⟨inst, hinst, hident, hopcode⟩
    obtain ⟨i, hi⟩ := List.getElem?_of_mem hinst
    obtain rfl : i = k := (h.opcode_of_getElem? hi).symm.trans hopcode
    exact ⟨inst, hi, hident⟩

/-- The identifier of an opcode is that of the instruction at its place. -/
theorem ident?_of_parse (h : parse mode text = .ok d) {ident : String} {k : Nat} :
    d.ident? k = some ident ↔ ∃ inst, d.instructions[k]? = some inst ∧ inst.ident = ident := by
  rw [ident?_eq_some_iff, opcode?_of_parse h, (wellFormed_of_parse h).exists_getElem?_iff]

/-- The lookups of a definition find exactly its instructions. -/
structure FindsInstructions (d : Definition) : Prop where
  /-- The two lookups find the same pairs: the instructions, each with its place as its opcode. -/
  found : ∀ ident k,
    (d.opcode? ident = some k ↔ d.ident? k = some ident) ∧
    (d.ident? k = some ident ↔ k < d.count ∧
      ∃ inst, d.instructions[k]? = some inst ∧ inst.ident = ident ∧ inst.opcode = k)
  ident?_eq_none_iff : ∀ k, d.ident? k = none ↔ d.count ≤ k
  opcode?_eq_none_iff : ∀ ident, d.opcode? ident = none ↔
    ∀ inst ∈ d.instructions, inst.ident ≠ ident
  count : d.count = d.instructions.length

/-- Looking up in a parsed definition is searching its instructions. -/
theorem parse_findsInstructions (mode : Mode) (text : String) (d : Definition)
    (h : parse mode text = .ok d) : FindsInstructions d := by
  have hw := wellFormed_of_parse h
  have hlength := hw.length_instructions
  refine ⟨fun ident k => ⟨ident?_eq_some_iff.symm, ?_⟩, fun k => ?_, fun ident => ?_, hlength.symm⟩
  · rw [ident?_of_parse h]
    constructor
    · rintro ⟨inst, hk, hident⟩
      have hlt := (List.getElem?_eq_some_iff.mp hk).1
      exact ⟨hlength ▸ hlt, inst, hk, hident, hw.opcode_of_getElem? hk⟩
    · rintro ⟨-, inst, hk, hident, -⟩
      exact ⟨inst, hk, hident⟩
  · -- an opcode is free exactly when no instruction stands at its place
    rw [← hlength, ← List.getElem?_eq_none_iff, Option.eq_none_iff_forall_ne_some,
      Option.eq_none_iff_forall_ne_some]
    constructor
    · intro hnone inst hk
      exact hnone inst.ident ((ident?_of_parse h).mpr ⟨inst, hk, rfl⟩)
    · intro hnone ident hident
      obtain ⟨inst, hk, -⟩ := (ident?_of_parse h).mp hident
      exact hnone inst hk
  · rw [Option.eq_none_iff_forall_ne_some]
    constructor
    · rintro hnone inst hinst rfl
      exact hnone inst.opcode ((opcode?_of_parse h).mpr ⟨inst, hinst, rfl, rfl⟩)
    · intro hnone k hk
      obtain ⟨inst, hinst, hident, -⟩ := (opcode?_of_parse h).mp hk
      exact hnone inst hinst hident

/-- A comment in front of two instructions, and an empty line between them. -/
theorem parse_findsInstructions_comment : ∃ d, parse .strict "// x\nB b\n\nA a" = .ok d ∧
    FindsInstructions d ∧ d.opcode? "A" = some 1 ∧ d.ident? 0 = some "B" ∧ d.ident? 2 = none := by
  obtain ⟨d, hd⟩ : ∃ d, parse .strict "// x\nB b\n\nA a" = .ok d := exists_parse_iff.mpr (by decide)
  have hfinds : FindsInstructions d := parse_findsInstructions _ _ d hd
  have hi : d.instructions = [⟨"B", "b", 0⟩, ⟨"A", "a", 1⟩] := by
    rw [instructions_of_parse hd]
    decide
  have hcount : d.count = 2 := by rw [hfinds.count, hi]; rfl
  refine ⟨d, hd, hfinds, ?_, ?_, (hfinds.ident?_eq_none_iff 2).mpr hcount.le⟩
  · rw [(hfinds.found "A" 1).1, (hfinds.found "A" 1).2, hcount, hi]
    exact ⟨by decide, _, rfl, rfl, rfl⟩
  · rw [(hfinds.found "B" 0).2, hcount, hi]
    exact ⟨by decide, _, rfl, rfl, rfl⟩

end OpcodeTable.Definition
