import OpcodeTable.Proofs.Text.Split
import OpcodeTable.Text.Lines

/-!
# The lines of a text, declaratively

`HasLines` says which lines a text has without cutting it: a line ends at a line feed, and one
carriage return directly before the line feed belongs to the terminator. Every text has exactly
the lines that `linesOf` gives.
-/

namespace OpcodeTable.Text

/-- `HasLines cs ls` says that `ls` are the lines of the text `cs`, without their terminators. -/
inductive HasLines : List Char → List (List Char) → Prop where
  | empty : HasLines [] []
  /-- Characters after the last line feed are a line of their own. -/
  | last {l : List Char} (hne : l ≠ []) (hl : '\n' ∉ l) : HasLines l [l]
  | lf {l rest : List Char} {ls : List (List Char)} (hl : '\n' ∉ l) (hr : l.getLast? ≠ some '\r')
      (h : HasLines rest ls) : HasLines (l ++ '\n' :: rest) (l :: ls)
  | crlf {l rest : List Char} {ls : List (List Char)} (hl : '\n' ∉ l)
      (h : HasLines rest ls) : HasLines (l ++ '\r' :: '\n' :: rest) (l :: ls)

theorem dropFinalReturn_of_ne {l : List Char} (h : l.getLast? ≠ some '\r') :
    dropFinalReturn l = l := by
  simp [dropFinalReturn, h]

@[simp] theorem dropFinalReturn_append (l : List Char) :
    dropFinalReturn (l ++ ['\r']) = l := by
  simp [dropFinalReturn]

theorem mem_of_mem_dropFinalReturn {l : List Char} {c : Char} (h : c ∈ dropFinalReturn l) :
    c ∈ l := by
  unfold dropFinalReturn at h
  split at h
  · exact List.dropLast_subset _ h
  · exact h

theorem linesOf_of_notMem {l : List Char} (hne : l ≠ []) (hl : '\n' ∉ l) : linesOf l = [l] := by
  simp [linesOf, splitWhere_eq_splitOn, List.splitOn_eq_singleton hl, hne]

theorem linesOf_append_lf {l : List Char} (hl : '\n' ∉ l) (rest : List Char) :
    linesOf (l ++ '\n' :: rest) = dropFinalReturn l :: linesOf rest := by
  obtain ⟨m, ms, hms⟩ := List.exists_cons_of_ne_nil (List.splitOn_ne_nil '\n' rest)
  simp [linesOf, splitWhere_eq_splitOn, List.splitOn_append_cons_self_of_not_mem hl, hms]

/-- A text is empty, or a line without terminator, or a line in front of another text. -/
theorem lines_induction {motive : List Char → Prop} (nil : motive [])
    (last : ∀ l, l ≠ [] → '\n' ∉ l → motive l)
    (ended : ∀ l rest, '\n' ∉ l → motive rest → motive (l ++ '\n' :: rest)) (cs : List Char) :
    motive cs := by
  by_cases hlf : '\n' ∈ cs
  · obtain ⟨l, rest, rfl, hl⟩ := List.eq_append_cons_of_mem hlf
    exact ended l rest hl (lines_induction nil last ended rest)
  · by_cases hne : cs = []
    · exact hne ▸ nil
    · exact last cs hne hlf
termination_by cs.length
decreasing_by
  subst_vars
  simp
  omega

/-- Behind the end of a line, lines can be added without changing those before. -/
theorem linesOf_append {cs : List Char} (h : cs = [] ∨ ['\n'] <:+ cs) (rest : List Char) :
    linesOf (cs ++ rest) = linesOf cs ++ linesOf rest := by
  induction cs using lines_induction with
  | nil => rfl
  | last l hne hl => exact absurd ((h.resolve_left hne).subset (by simp)) hl
  | ended l tail hl ih =>
    have htail : tail = [] ∨ ['\n'] <:+ tail := by
      refine or_iff_not_imp_left.mpr fun hne => ?_
      have hend : tail <:+ l ++ '\n' :: tail := ⟨l ++ ['\n'], by simp⟩
      exact List.suffix_of_suffix_length_le (h.resolve_left (by simp)) hend
        (List.length_pos_iff.mpr hne)
    rw [List.append_assoc, List.cons_append, linesOf_append_lf hl, linesOf_append_lf hl, ih htail,
      List.cons_append]

theorem lines_append {first : String} (h : first = "" ∨ ['\n'] <:+ first.toList)
    (second : String) : lines (first ++ second) = lines first ++ lines second := by
  have h : first.toList = [] ∨ ['\n'] <:+ first.toList := h.imp_left fun h => by simp [h]
  rw [lines, String.toList_append, linesOf_append h, List.map_append, lines, lines]

theorem hasLines_linesOf (cs : List Char) : HasLines cs (linesOf cs) := by
  induction cs using lines_induction with
  | nil => exact .empty
  | last l hne hl =>
    rw [linesOf_of_notMem hne hl]
    exact .last hne hl
  | ended l rest hl ih =>
    rw [linesOf_append_lf hl]
    by_cases hr : l.getLast? = some '\r'
    · obtain ⟨m, rfl⟩ := List.getLast?_eq_some_iff.mp hr
      have hm : '\n' ∉ m := fun h => hl (List.mem_append_left _ h)
      rw [dropFinalReturn_append, List.append_assoc]
      exact .crlf hm ih
    · rw [dropFinalReturn_of_ne hr]
      exact .lf hl hr ih

/-- A text has the lines that `linesOf` gives, and no others. -/
theorem hasLines_iff {cs : List Char} {ls : List (List Char)} :
    HasLines cs ls ↔ ls = linesOf cs := by
  constructor
  · intro h
    induction h with
    | empty => rfl
    | last hne hl => exact (linesOf_of_notMem hne hl).symm
    | lf hl hr _ ih => rw [linesOf_append_lf hl, dropFinalReturn_of_ne hr, ih]
    | @crlf l rest ls hl _ ih =>
      have h : '\n' ∉ l ++ ['\r'] := by simp [hl]
      have := linesOf_append_lf h rest
      rw [dropFinalReturn_append, List.append_assoc] at this
      rw [List.singleton_append] at this
      rw [this, ih]
  · rintro rfl
    exact hasLines_linesOf cs

/-- No line holds a line feed. -/
theorem notMem_of_mem_linesOf {cs l : List Char} (h : l ∈ linesOf cs) : '\n' ∉ l := by
  intro hlf
  rcases List.mem_append.mp h with h | h
  · obtain ⟨piece, hp, rfl⟩ := List.mem_map.mp h
    have := mem_of_mem_splitWhere (List.dropLast_subset _ hp) (mem_of_mem_dropFinalReturn hlf)
    simp at this
  · obtain ⟨hp, -⟩ := List.mem_filter.mp h
    have := mem_of_mem_splitWhere (List.mem_of_getLast? (Option.mem_toList.mp hp)) hlf
    simp at this

theorem notMem_of_mem_lines {text l : String} (h : l ∈ lines text) : '\n' ∉ l.toList := by
  obtain ⟨cs, hcs, rfl⟩ := List.mem_map.mp h
  simpa using notMem_of_mem_linesOf hcs

end OpcodeTable.Text
