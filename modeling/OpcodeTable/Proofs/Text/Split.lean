import Mathlib
import OpcodeTable.Text.Split

/-!
# Laws of splitting

`splitWhere` cuts exactly at the characters that satisfy its predicate, so its pieces are made of
the other characters. It is the library's `List.splitOnP`, whose laws apply to it.
-/

namespace OpcodeTable.Text

theorem splitWhere_eq_splitOnP (p : Char → Bool) (cs : List Char) :
    splitWhere p cs = cs.splitOnP p := by
  induction cs with
  | nil => simp
  | cons c cs ih =>
    obtain ⟨l, ls, h⟩ := List.exists_cons_of_ne_nil (List.splitOnP_ne_nil p cs)
    rw [splitWhere_cons, List.splitOnP_cons_eq_if_modifyHead, ih, h]
    rfl

/-- Splitting at one character. -/
theorem splitWhere_eq_splitOn (a : Char) (cs : List Char) :
    splitWhere (· = a) cs = cs.splitOn a := by
  rw [splitWhere_eq_splitOnP, List.splitOn_eq_splitOnP]
  rfl

/-- A piece is made of characters of the text that do not separate. -/
theorem mem_of_mem_splitWhere {p : Char → Bool} {cs piece : List Char}
    (h : piece ∈ splitWhere p cs) {c : Char} (hc : c ∈ piece) : c ∈ cs ∧ p c = false := by
  induction cs generalizing piece with
  | nil => simp_all
  | cons d cs ih =>
    rw [splitWhere_cons] at h
    split at h
    · rcases List.mem_cons.mp h with rfl | h
      · simp at hc
      · exact ⟨List.mem_cons_of_mem _ (ih h hc).1, (ih h hc).2⟩
    · next hd =>
      obtain ⟨l, ls, hls⟩ := List.exists_cons_of_ne_nil (splitWhere_ne_nil p cs)
      rw [hls, consHead] at h
      rcases List.mem_cons.mp h with rfl | h
      · rcases List.mem_cons.mp hc with rfl | hc
        · exact ⟨List.mem_cons_self, by simpa using hd⟩
        · have := ih (by simp [hls]) hc
          exact ⟨List.mem_cons_of_mem _ this.1, this.2⟩
      · have := ih (by simp [hls, h]) hc
        exact ⟨List.mem_cons_of_mem _ this.1, this.2⟩

/-- A strict field holds no space. -/
theorem mem_of_mem_fields {cs field : List Char} (h : field ∈ fields cs) {c : Char}
    (hc : c ∈ field) : c ∈ cs ∧ c ≠ ' ' := by
  simpa using mem_of_mem_splitWhere h hc

/-- A word is not empty and holds no blank. -/
theorem mem_of_mem_words {cs word : List Char} (h : word ∈ words cs) :
    word ≠ [] ∧ ∀ c ∈ word, c ∈ cs ∧ isBlank c = false := by
  obtain ⟨h, hne⟩ := List.mem_filter.mp h
  exact ⟨by simpa using hne, fun c hc => mem_of_mem_splitWhere h hc⟩

end OpcodeTable.Text
