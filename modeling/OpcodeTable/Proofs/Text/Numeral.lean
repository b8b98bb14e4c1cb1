import Mathlib
import OpcodeTable.Text.Numeral

/-!
# Numerals

A numeral is a row of digits, each of which stands for its place in an alphabet. The decimal and the
hexadecimal digits of a number are numerals of it, without zeros in front. A column is filled up to
its width and never cut, and the zeros that fill it do not change the number that it shows.
-/

namespace OpcodeTable.Text

/-! ## Digits -/

def decimalDigits : List Char :=
  ['0', '1', '2', '3', '4', '5', '6', '7', '8', '9']

def hexDigits : List Char :=
  decimalDigits ++ ['A', 'B', 'C', 'D', 'E', 'F']

/-- The number that a row of digits denotes. -/
def numberOf (alphabet digits : List Char) : Nat :=
  digits.foldl (fun n c => alphabet.length * n + alphabet.idxOf c) 0

/-- `Numeral alphabet digits n` says that the digits are the numeral of `n`: they denote it, and the
first of them is the zero of the alphabet only if it is alone. -/
structure Numeral (alphabet digits : List Char) (n : Nat) : Prop where
  ne_nil : digits ≠ []
  mem : ∀ c ∈ digits, c ∈ alphabet
  value : numberOf alphabet digits = n
  leading : digits.head? = alphabet.head? → digits.length = 1

variable {alphabet digits : List Char} {n : Nat} {c : Char}

theorem numberOf_concat (alphabet digits : List Char) (c : Char) :
    numberOf alphabet (digits ++ [c]) =
      alphabet.length * numberOf alphabet digits + alphabet.idxOf c := by
  simp [numberOf]

/-- Zeros in front do not matter. -/
theorem numberOf_replicate_append (h : alphabet.idxOf c = 0) (k : Nat) (digits : List Char) :
    numberOf alphabet (List.replicate k c ++ digits) = numberOf alphabet digits := by
  induction k with
  | zero => rfl
  | succ k ih => simpa [numberOf, List.replicate_succ, h] using ih

theorem Numeral.digit (hnodup : alphabet.Nodup) (hn : alphabet[n]? = some c) :
    Numeral alphabet [c] n := by
  obtain ⟨hlt, rfl⟩ := List.getElem?_eq_some_iff.mp hn
  refine ⟨by simp, by simp, ?_, fun _ => rfl⟩
  simp [numberOf, hnodup.idxOf_getElem]

/-- A further digit behind the numeral of a positive number. -/
theorem Numeral.concat (hnodup : alphabet.Nodup) (h : Numeral alphabet digits n) (hpos : 0 < n)
    {k : Nat} (hk : alphabet[k]? = some c) :
    Numeral alphabet (digits ++ [c]) (alphabet.length * n + k) := by
  obtain ⟨hlt, rfl⟩ := List.getElem?_eq_some_iff.mp hk
  refine ⟨by simp, ?_, ?_, fun hhead => ?_⟩
  · intro d hd
    rcases List.mem_append.mp hd with hd | hd
    · exact h.mem d hd
    · exact List.mem_singleton.mp hd ▸ List.getElem_mem hlt
  · simp [numberOf_concat, h.value, hnodup.idxOf_getElem]
  · -- a zero in front would be all of the digits, which denote a positive number
    exfalso
    obtain ⟨d, ds, rfl⟩ := List.exists_cons_of_ne_nil h.ne_nil
    obtain rfl : ds = [] := by simpa using h.leading (by simpa using hhead)
    obtain ⟨a, rest, rfl⟩ : ∃ a rest, alphabet = a :: rest :=
      List.exists_cons_of_length_pos (Nat.zero_lt_of_lt hlt)
    obtain rfl : d = a := by simpa using hhead
    have hzero : n = 0 := by simpa [numberOf] using h.value.symm
    omega

/-- The digits of a number in a base, written in another alphabet. -/
theorem numeral_toDigits (hnodup : alphabet.Nodup) {f : Char → Char} (hb : 1 < alphabet.length)
    (hf : ∀ k < alphabet.length, alphabet[k]? = some (f k.digitChar)) (n : Nat) :
    Numeral alphabet ((Nat.toDigits alphabet.length n).map f) n := by
  induction n using Nat.strongRecOn with
  | ind n ih =>
    by_cases hlt : n < alphabet.length
    · rw [Nat.toDigits_of_lt_base hlt]
      exact .digit hnodup (hf n hlt)
    · have hpos : 0 < n / alphabet.length := Nat.div_pos (by omega) (by omega)
      have hmod : n % alphabet.length < alphabet.length := Nat.mod_lt n (by omega)
      have hconcat := (ih _ (Nat.div_lt_self (by omega) hb)).concat hnodup hpos (hf _ hmod)
      rw [Nat.div_add_mod] at hconcat
      rw [Nat.toDigits_of_base_le hb (not_lt.mp hlt)]
      simpa using hconcat

theorem numeral_decimal (n : Nat) : Numeral decimalDigits (decimal n).toList n := by
  have h : Numeral decimalDigits ((Nat.toDigits decimalDigits.length n).map id) n :=
    numeral_toDigits (by decide) (by decide) (by decide) n
  rw [List.map_id] at h
  rw [decimal, String.toList_ofList]
  exact h

theorem isDigit_of_mem_decimal (h : c ∈ (decimal n).toList) : c.isDigit = true := by
  rw [decimal, String.toList_ofList] at h
  exact Nat.isDigit_of_mem_toDigits (by decide) (by decide) h

theorem numeral_hexUpper (n : Nat) : Numeral hexDigits (hexUpper n).toList n := by
  have h : Numeral hexDigits ((Nat.toDigits hexDigits.length n).map Char.toUpper) n :=
    numeral_toDigits (by decide) (by decide) (by decide) n
  rw [hexUpper, String.toList_ofList]
  exact h

theorem length_decimal_le_iff {k : Nat} (hk : 0 < k) : (decimal n).length ≤ k ↔ n < 10 ^ k := by
  rw [decimal, String.length_ofList, Nat.length_toDigits_le_iff (by decide) hk]

theorem length_hexUpper_le_iff {k : Nat} (hk : 0 < k) : (hexUpper n).length ≤ k ↔ n < 16 ^ k := by
  rw [hexUpper, String.length_ofList, List.length_map, Nat.length_toDigits_le_iff (by decide) hk]

/-! ## Columns -/

theorem toList_padLeft (width : Nat) (fill : Char) (s : String) :
    (padLeft width fill s).toList = List.replicate (width - s.length) fill ++ s.toList := by
  simp [padLeft, repeated]

theorem toList_padRight (width : Nat) (fill : Char) (s : String) :
    (padRight width fill s).toList = s.toList ++ List.replicate (width - s.length) fill := by
  simp [padRight, repeated]

/-- A column is as wide as it has to be, and at least as wide as it should be. -/
theorem length_padLeft (width : Nat) (fill : Char) (s : String) :
    (padLeft width fill s).length = max width s.length := by
  simp [padLeft, repeated]
  omega

theorem length_padRight {width : Nat} (fill : Char) {s : String} (h : s.length ≤ width) :
    (padRight width fill s).length = width := by
  simp [padRight, repeated]
  omega

/-- A column shows the number of its numeral. -/
theorem numberOf_padLeft_hexUpper (width n : Nat) :
    numberOf hexDigits (padLeft width '0' (hexUpper n)).toList = n := by
  rw [toList_padLeft, numberOf_replicate_append (by decide), (numeral_hexUpper n).value]

theorem mem_padLeft {width : Nat} {fill : Char} {s : String}
    (h : c ∈ (padLeft width fill s).toList) : c = fill ∨ c ∈ s.toList := by
  rw [toList_padLeft] at h
  exact (List.mem_append.mp h).imp_left List.eq_of_mem_replicate

theorem mem_padLeft_hexUpper {width : Nat}
    (h : c ∈ (padLeft width '0' (hexUpper n)).toList) : c ∈ hexDigits := by
  rcases mem_padLeft h with rfl | hdigit
  · decide
  · exact (numeral_hexUpper n).mem c hdigit

theorem mem_padLeft_decimal {width : Nat}
    (h : c ∈ (padLeft width ' ' (decimal n)).toList) : c = ' ' ∨ c ∈ decimalDigits :=
  (mem_padLeft h).imp_right ((numeral_decimal n).mem c)

end OpcodeTable.Text
