import Mathlib
import OpcodeTable.Text.Printable

/-!
# Looking up printable characters

The ranges are in ascending order, so halving finds the range of a code point if there is one. A
character is printable exactly when none of the ranges holds its code point.
-/

namespace OpcodeTable.Text

variable {ranges : Array (Nat × Nat)} {n low high : Nat}

/-- The range holds the code point. -/
def Holds (r : Nat × Nat) (n : Nat) : Prop :=
  r.1 ≤ n ∧ n ≤ r.2

/-- No range is empty, and each one is behind those before it. -/
structure Ascending (ranges : Array (Nat × Nat)) : Prop where
  nonempty : ∀ r ∈ ranges.toList, r.1 ≤ r.2
  apart : ranges.toList.Pairwise fun r r' => r.2 < r'.1

/-- Both ends go up. -/
theorem Ascending.le (h : Ascending ranges) {i j : Nat} (hij : i ≤ j) (hj : j < ranges.size) :
    ranges[i].1 ≤ ranges[j].1 ∧ ranges[i].2 ≤ ranges[j].2 := by
  rcases Nat.eq_or_lt_of_le hij with rfl | hlt
  · exact ⟨Nat.le_refl _, Nat.le_refl _⟩
  · have hi : ranges[i].1 ≤ ranges[i].2 :=
      h.nonempty _ (Array.mem_toList_iff.mpr (Array.getElem_mem _))
    have hj' : ranges[j].1 ≤ ranges[j].2 :=
      h.nonempty _ (Array.mem_toList_iff.mpr (Array.getElem_mem hj))
    have hapart : ranges[i].2 < ranges[j].1 :=
      List.pairwise_iff_getElem.mp h.apart i j (hlt.trans hj) hj hlt
    omega

/-- A range that is found holds the code point. -/
theorem exists_holds_of_inRanges {hhigh : high ≤ ranges.size}
    (h : inRanges ranges n low high hhigh = true) : ∃ r ∈ ranges.toList, Holds r n := by
  fun_induction inRanges ranges n low high hhigh with
  | case1 low high hhigh hlow middle hmiddle hbefore ih => exact ih h
  | case2 low high hhigh hlow middle hmiddle hbefore hbehind ih => exact ih h
  | case3 low high hhigh hlow middle hmiddle hbefore hbehind =>
    exact ⟨_, Array.mem_toList_iff.mpr (Array.getElem_mem hmiddle), not_lt.mp hbefore,
      not_lt.mp hbehind⟩
  | case4 => cases h

/-- The half that is left out does not hold the code point. -/
theorem Ascending.inRanges_of_holds (h : Ascending ranges) {hhigh : high ≤ ranges.size} {i : Nat}
    (hsize : i < ranges.size) (hholds : Holds ranges[i] n) (hlow : low ≤ i) (hi : i < high) :
    inRanges ranges n low high hhigh = true := by
  fun_induction inRanges ranges n low high hhigh with
  | case1 low high hhigh hlt middle hmiddle hbefore ih =>
    have himiddle : i < middle := by
      by_contra hge
      have hle := h.le (not_lt.mp hge) hsize
      exact absurd (hle.1.trans hholds.1) hbefore.not_ge
    exact ih hlow himiddle
  | case2 low high hhigh hlt middle hmiddle hbefore hbehind ih =>
    have himiddle : middle < i := by
      by_contra hge
      have hle := h.le (not_lt.mp hge) hmiddle
      exact absurd (hholds.2.trans hle.2) hbehind.not_ge
    exact ih himiddle hi
  | case3 => rfl
  | case4 => omega

theorem ascending_unprintableRanges : Ascending unprintableRanges where
  nonempty := by decide +kernel
  apart := by
    have hchain : unprintableRanges.toList.IsChain fun r r' => r.1 ≤ r.2 ∧ r.2 < r'.1 := by
      decide +kernel
    have : IsTrans (Nat × Nat) fun r r' => r.1 ≤ r.2 ∧ r.2 < r'.1 :=
      ⟨fun _ _ _ h h' => ⟨h.1, by omega⟩⟩
    exact (List.isChain_iff_pairwise.mp hchain).imp And.right

/-- A character is printable exactly when its code point is in none of the ranges. -/
theorem isPrintable_eq_true_iff {c : Char} :
    isPrintable c = true ↔ ∀ r ∈ unprintableRanges.toList, ¬Holds r c.toNat := by
  rw [isPrintable, Bool.not_eq_true', ← Bool.not_eq_true, not_iff_comm]
  push Not
  constructor
  · rintro ⟨r, hr, hholds⟩
    obtain ⟨i, hi, rfl⟩ := List.getElem_of_mem hr
    exact ascending_unprintableRanges.inRanges_of_holds hi hholds (Nat.zero_le i) hi
  · exact exists_holds_of_inRanges

end OpcodeTable.Text
