import OpcodeTable.Proofs.Text.Lines

/-!
# Removing lines from a text

A text is its lines together with their terminators. When some of them are removed, the text that
remains has the other lines, in their order and with their contents.
-/

namespace OpcodeTable.Text

/-! ## Keeping elements by their positions -/

section Keep

variable {α β : Type} {p : Nat → Prop} [DecidablePred p]

/-- The elements whose indices satisfy `p`. -/
def keep (p : Nat → Prop) [DecidablePred p] (xs : List α) : List α :=
  (xs.zipIdx.filter (p ·.2)).map (·.1)

@[simp] theorem keep_nil : keep p ([] : List α) = [] := rfl

theorem keep_cons (x : α) (xs : List α) :
    keep p (x :: xs) = (if p 0 then [x] else []) ++ keep (fun i => p (i + 1)) xs := by
  simp only [keep, List.zipIdx_cons', List.filter_cons, List.filter_map]
  by_cases h : p 0 <;> simp [h, Function.comp_def]

theorem keep_concat (xs : List α) (x : α) :
    keep p (xs ++ [x]) = keep p xs ++ if p xs.length then [x] else [] := by
  by_cases h : p xs.length <;> simp [keep, List.zipIdx_append, h]

@[simp] theorem length_keep (xs : List α) : (keep p xs).length = Nat.count p xs.length := by
  induction xs using List.reverseRecOn with
  | nil => simp
  | append_singleton xs x ih =>
    rw [keep_concat, List.length_append, ih, List.length_append, List.length_singleton,
      Nat.count_succ]
    split <;> rfl

theorem map_keep (f : α → β) (xs : List α) : (keep p xs).map f = keep p (xs.map f) := by
  simp [keep, List.zipIdx_map, List.filter_map, Function.comp_def]

/-- An element that is kept stands behind those that are kept before it. -/
theorem getElem?_keep (xs : List α) {i : Nat} (h : p i) :
    (keep p xs)[Nat.count p i]? = xs[i]? := by
  induction xs generalizing p i with
  | nil => simp
  | cons x xs ih =>
    cases i with
    | zero => simp [keep_cons, h]
    | succ i =>
      rw [keep_cons, Nat.count_succ', List.getElem?_cons_succ, ← ih (p := fun i => p (i + 1)) h]
      by_cases h0 : p 0 <;> simp [h0]

/-- Keeping elements by what they are is filtering. -/
theorem keep_eq_filter {xs : List α} {q : α → Bool}
    (h : ∀ i x, xs[i]? = some x → (p i ↔ q x = true)) : keep p xs = xs.filter q := by
  have hcongr : xs.zipIdx.filter (p ·.2) = xs.zipIdx.filter (q ∘ Prod.fst) := by
    refine List.filter_congr fun e he => ?_
    have hq := h e.2 e.1 (List.mem_zipIdx_iff_getElem?.mp he)
    by_cases hp : p e.2 <;> simp_all
  rw [keep, hcongr, ← List.filter_map, List.zipIdx_map_fst]

end Keep

/-! ## Lines with their terminators -/

/-- The lines of a text together with their terminators. -/
def endedLines (cs : List Char) : List (List Char) :=
  let pieces := splitWhere (· = '\n') cs
  pieces.dropLast.map (· ++ ['\n']) ++ pieces.getLast?.toList.filter (!·.isEmpty)

theorem endedLines_of_notMem {l : List Char} (hne : l ≠ []) (hl : '\n' ∉ l) :
    endedLines l = [l] := by
  simp [endedLines, splitWhere_eq_splitOn, List.splitOn_eq_singleton hl, hne]

theorem endedLines_append_lf {l : List Char} (hl : '\n' ∉ l) (rest : List Char) :
    endedLines (l ++ '\n' :: rest) = (l ++ ['\n']) :: endedLines rest := by
  obtain ⟨m, ms, hms⟩ := List.exists_cons_of_ne_nil (List.splitOn_ne_nil '\n' rest)
  simp [endedLines, splitWhere_eq_splitOn, List.splitOn_append_cons_self_of_not_mem hl, hms]

theorem flatten_endedLines (cs : List Char) : (endedLines cs).flatten = cs := by
  induction cs using lines_induction with
  | nil => rfl
  | last l hne hl => simp [endedLines_of_notMem hne hl]
  | ended l rest hl ih => simp [endedLines_append_lf hl, ih]

theorem linesOf_flatten_keep (p : Nat → Prop) [DecidablePred p] (cs : List Char) :
    linesOf (keep p (endedLines cs)).flatten = keep p (linesOf cs) := by
  induction cs using lines_induction generalizing p with
  | nil => rfl
  | last l hne hl =>
    rw [endedLines_of_notMem hne hl, linesOf_of_notMem hne hl, keep_cons, keep_nil]
    by_cases h : p 0 <;> simp [h, linesOf_of_notMem hne hl]
  | ended l rest hl ih =>
    have hrest := ih fun i => p (i + 1)
    rw [endedLines_append_lf hl, linesOf_append_lf hl, keep_cons, keep_cons, List.flatten_append,
      ← hrest]
    by_cases h : p 0 <;> simp [h, linesOf_append_lf hl]

/-- The text without the lines whose indices are in `S`, each removed with its terminator. -/
def removeLines (S : Finset Nat) (text : String) : String :=
  String.ofList (keep (· ∉ S) (endedLines text.toList)).flatten

theorem lines_removeLines (S : Finset Nat) (text : String) :
    lines (removeLines S text) = keep (· ∉ S) (lines text) := by
  rw [lines, removeLines, String.toList_ofList, linesOf_flatten_keep, map_keep, lines]

example : removeLines {1} "a\r\nb\n\nc" = "a\r\n\nc" := by decide

end OpcodeTable.Text
