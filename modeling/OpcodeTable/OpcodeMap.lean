import Std.Data.HashMap

/-!
# Identifiers and their opcodes

A finite one-to-one correspondence between identifiers and opcodes, searchable from both sides.
A pair can be added only if both its halves are new.
-/

namespace OpcodeTable

structure OpcodeMap where
  opcodes : Std.HashMap String Nat
  idents : Std.HashMap Nat String
  opcodes_eq_some_iff : ∀ (ident : String) (opcode : Nat),
    opcodes[ident]? = some opcode ↔ idents[opcode]? = some ident

namespace OpcodeMap

def empty : OpcodeMap where
  opcodes := ∅
  idents := ∅
  opcodes_eq_some_iff := by simp

instance : Inhabited OpcodeMap := ⟨empty⟩

/-- The number of pairs. -/
def size (m : OpcodeMap) : Nat :=
  m.opcodes.size

def opcode? (m : OpcodeMap) (ident : String) : Option Nat :=
  m.opcodes[ident]?

def ident? (m : OpcodeMap) (opcode : Nat) : Option String :=
  m.idents[opcode]?

/-- Neither half of the pair is in the correspondence. -/
def Fresh (m : OpcodeMap) (ident : String) (opcode : Nat) : Prop :=
  m.opcode? ident = none ∧ m.ident? opcode = none

instance (m : OpcodeMap) (ident : String) (opcode : Nat) : Decidable (m.Fresh ident opcode) :=
  inferInstanceAs (Decidable (_ ∧ _))

/-- Add a fresh pair. -/
def insert (m : OpcodeMap) (ident : String) (opcode : Nat) (h : m.Fresh ident opcode) :
    OpcodeMap where
  opcodes := m.opcodes.insert ident opcode
  idents := m.idents.insert opcode ident
  opcodes_eq_some_iff s k := by
    obtain ⟨hi, ho⟩ := h
    have hm := m.opcodes_eq_some_iff
    simp only [opcode?, ident?] at hi ho
    grind

theorem opcode?_eq_some_iff {m : OpcodeMap} {ident : String} {opcode : Nat} :
    m.opcode? ident = some opcode ↔ m.ident? opcode = some ident :=
  m.opcodes_eq_some_iff ident opcode

@[simp] theorem size_empty : empty.size = 0 := by simp [size, empty]

@[simp] theorem opcode?_empty (ident : String) : empty.opcode? ident = none := by
  simp [opcode?, empty]

@[simp] theorem ident?_empty (opcode : Nat) : empty.ident? opcode = none := by
  simp [ident?, empty]

theorem opcode?_insert (m : OpcodeMap) {ident : String} {opcode : Nat}
    (h : m.Fresh ident opcode) (s : String) :
    (m.insert ident opcode h).opcode? s = if s = ident then some opcode else m.opcode? s := by
  simp only [opcode?, insert]
  grind

theorem ident?_insert (m : OpcodeMap) {ident : String} {opcode : Nat}
    (h : m.Fresh ident opcode) (k : Nat) :
    (m.insert ident opcode h).ident? k = if k = opcode then some ident else m.ident? k := by
  simp only [ident?, insert]
  grind

theorem size_insert (m : OpcodeMap) {ident : String} {opcode : Nat}
    (h : m.Fresh ident opcode) : (m.insert ident opcode h).size = m.size + 1 := by
  obtain ⟨hi, _⟩ := h
  simp only [opcode?] at hi
  simp only [size, insert]
  grind

end OpcodeMap

end OpcodeTable
