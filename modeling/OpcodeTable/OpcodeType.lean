/-!
# Opcode types

The type that the generated module gives to its opcode constants. It bounds how many
instructions a definition may have.
-/

namespace OpcodeTable

inductive OpcodeType where
  | u8
  | u16
  deriving DecidableEq, Repr

namespace OpcodeType

instance : Inhabited OpcodeType := ⟨u8⟩

/-- The width of an opcode in bits. -/
def bits : OpcodeType → Nat
  | u8 => 8
  | u16 => 16

/-- The number of distinct opcodes of the type. -/
def capacity (t : OpcodeType) : Nat :=
  Nat.pow 2 t.bits

@[simp] theorem capacity_u8 : u8.capacity = 256 := rfl

@[simp] theorem capacity_u16 : u16.capacity = 65536 := rfl

/-- The name under which the generated module and the settings know the type. -/
def name : OpcodeType → String
  | u8 => "u8"
  | u16 => "u16"

/-- The type with the given name; case and spaces matter. -/
def ofName? (s : String) : Option OpcodeType :=
  if s = "u8" then some u8 else if s = "u16" then some u16 else none

theorem ofName?_name (t : OpcodeType) : ofName? t.name = some t := by
  cases t <;> simp [ofName?, name]

theorem ofName?_eq_some_iff {s : String} {t : OpcodeType} : ofName? s = some t ↔ s = t.name := by
  cases t <;> grind [ofName?, name]

end OpcodeType

end OpcodeTable
