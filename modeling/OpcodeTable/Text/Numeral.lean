/-!
# Numerals and columns

Fixed-width texts of the listing and of the diagnostics: a minimum width never truncates.
-/

namespace OpcodeTable.Text

/-- `n` copies of a character. -/
def repeated (n : Nat) (c : Char) : String :=
  String.ofList (List.replicate n c)

/-- Fill up on the left to `width` characters. -/
def padLeft (width : Nat) (fill : Char) (s : String) : String :=
  repeated (width - s.length) fill ++ s

/-- Fill up on the right to `width` characters. -/
def padRight (width : Nat) (fill : Char) (s : String) : String :=
  s ++ repeated (width - s.length) fill

/-- The decimal digits of a number. -/
def decimal (n : Nat) : String :=
  String.ofList (Nat.toDigits 10 n)

/-- The hexadecimal digits of a number, with capital letters. -/
def hexUpper (n : Nat) : String :=
  String.ofList ((Nat.toDigits 16 n).map Char.toUpper)

/-- The hexadecimal digits of a number, with small letters. -/
def hexLower (n : Nat) : String :=
  String.ofList (Nat.toDigits 16 n)

end OpcodeTable.Text
