import Mathlib

/-!
# Columns

The column of a mark is the number of characters in front of its first occurrence in a row. A mark
stands right behind the characters that it does not begin in, and parts of a row that it does not
begin in are put together one by one.
-/

namespace OpcodeTable.Text

/-- `StandsAt mark n row` says that the mark occurs in the row, for the first time at column `n`. -/
def StandsAt (mark : List Char) (n : Nat) (row : List Char) : Prop :=
  IsLeast {k | mark <+: row.drop k} n

/-- `Skips mark front rest` says that no occurrence of the mark begins in `front`, which is followed
by `rest`. -/
def Skips (mark front rest : List Char) : Prop :=
  ∀ k < front.length, ¬mark <+: (front ++ rest).drop k

variable {mark front mid rest : List Char} {c d : Char} {n : Nat}

theorem Skips.append (hfront : Skips mark front (mid ++ rest)) (hmid : Skips mark mid rest) :
    Skips mark (front ++ mid) rest := by
  intro k hk hmark
  rw [List.append_assoc] at hmark
  by_cases hlt : k < front.length
  · exact hfront k hlt hmark
  · obtain ⟨j, rfl⟩ := Nat.exists_eq_add_of_le (not_lt.mp hlt)
    rw [List.drop_length_add_append] at hmark
    rw [List.length_append] at hk
    exact hmid j (by omega) hmark

/-- A mark does not begin where its first character does not occur. -/
theorem skips_of_head_notMem (h : c ∉ front) : Skips (c :: mark) front rest := by
  intro k hk hmark
  rw [List.drop_append_of_le_length hk.le, List.drop_eq_getElem_cons hk, List.cons_append] at hmark
  obtain ⟨rfl, -⟩ := List.cons_prefix_cons.mp hmark
  exact h (List.getElem_mem hk)

/-- A mark does not begin where its second character does not occur, unless it goes on behind. -/
theorem skips_of_tail (h : c ∉ front) (hrest : ¬c :: mark <+: rest) :
    Skips (d :: c :: mark) front rest := by
  intro k hk hmark
  rw [List.drop_append_of_le_length hk.le, List.drop_eq_getElem_cons hk, List.cons_append] at hmark
  obtain ⟨-, hmark⟩ := List.cons_prefix_cons.mp hmark
  cases htail : front.drop (k + 1) with
  | nil =>
    rw [htail, List.nil_append] at hmark
    exact hrest hmark
  | cons e tail =>
    rw [htail, List.cons_append] at hmark
    obtain ⟨rfl, -⟩ := List.cons_prefix_cons.mp hmark
    have hmem : c ∈ front.drop (k + 1) := by rw [htail]; exact List.mem_cons_self
    exact h (List.mem_of_mem_drop hmem)

/-- A mark stands right behind what it does not begin in. -/
theorem standsAt_append (h : Skips mark front (mark ++ rest)) (hlength : front.length = n) :
    StandsAt mark n (front ++ (mark ++ rest)) := by
  subst hlength
  refine ⟨by simp, fun k hk => ?_⟩
  by_contra hlt
  exact h k (not_le.mp hlt) hk

end OpcodeTable.Text
