/-!
# Blank characters

The characters with the Unicode property `White_Space`. Lenient fields are separated by runs
of them, while strict fields are separated by the space character alone.
-/

namespace OpcodeTable.Text

/-- The code points with the property `White_Space`, as inclusive ranges in ascending order. -/
def blankRanges : List (Nat × Nat) :=
  [(0x9, 0xD), (0x20, 0x20), (0x85, 0x85), (0xA0, 0xA0), (0x1680, 0x1680), (0x2000, 0x200A),
   (0x2028, 0x2029), (0x202F, 0x202F), (0x205F, 0x205F), (0x3000, 0x3000)]

/-- A character is blank when one of the ranges holds its code point. -/
def isBlank (c : Char) : Bool :=
  blankRanges.any fun r => r.1 ≤ c.toNat && c.toNat ≤ r.2

theorem isBlank_eq_true_iff {c : Char} :
    isBlank c = true ↔ ∃ r ∈ blankRanges, r.1 ≤ c.toNat ∧ c.toNat ≤ r.2 := by
  simp [isBlank]

example : isBlank ' ' = true ∧ isBlank '\t' = true ∧ isBlank '\r' = true ∧
    isBlank '\u3000' = true := by decide

example : isBlank '\u200b' = false ∧ isBlank '\ufeff' = false ∧ isBlank 'a' = false := by decide

end OpcodeTable.Text
