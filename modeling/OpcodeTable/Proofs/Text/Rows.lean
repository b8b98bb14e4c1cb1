import OpcodeTable.Proofs.Text.Split

/-!
# Rows

A generated text consists of rows, each ended by a line feed. Rows without line feeds are found
again by cutting the text, and what stands at the end of a row is found by reading it backwards.
-/

namespace OpcodeTable.Text

/-! ## Rows of a text -/

/-- The rows one after another, each ended by a line feed. -/
def joinRows (rows : List (List Char)) : List Char :=
  rows.flatMap (· ++ ['\n'])

/-- The rows of a text whose last row is ended. -/
def rows? (cs : List Char) : Option (List (List Char)) :=
  let pieces := cs.splitOn '\n'
  if pieces.getLast? = some [] then some pieces.dropLast else none

@[simp] theorem joinRows_nil : joinRows [] = [] := rfl

@[simp] theorem joinRows_cons (row : List Char) (rows : List (List Char)) :
    joinRows (row :: rows) = row ++ '\n' :: joinRows rows := by
  simp [joinRows]

@[simp] theorem joinRows_append (rows rows' : List (List Char)) :
    joinRows (rows ++ rows') = joinRows rows ++ joinRows rows' := by
  simp [joinRows]

theorem intercalate_append_lf {rows : List (List Char)} (hne : rows ≠ []) :
    ['\n'].intercalate rows ++ ['\n'] = joinRows rows := by
  induction rows with
  | nil => contradiction
  | cons row rows ih =>
    cases rows with
    | nil => simp
    | cons row' rows =>
      rw [List.intercalate_cons_cons, joinRows_cons, ← ih (by simp)]
      simp

theorem joinRows_splitOn (cs : List Char) : joinRows (cs.splitOn '\n') = cs ++ ['\n'] := by
  rw [← intercalate_append_lf (List.splitOn_ne_nil '\n' cs), List.intercalate_splitOn]

theorem splitOn_joinRows {rows : List (List Char)} (h : ∀ row ∈ rows, '\n' ∉ row) :
    (joinRows rows).splitOn '\n' = rows ++ [[]] := by
  induction rows with
  | nil => simp
  | cons row rows ih =>
    obtain ⟨hrow, hrows⟩ := List.forall_mem_cons.mp h
    rw [joinRows_cons, List.splitOn_append_cons_self_of_not_mem hrow, ih hrows, List.cons_append]

theorem rows?_joinRows {rows : List (List Char)} (h : ∀ row ∈ rows, '\n' ∉ row) :
    rows? (joinRows rows) = some rows := by
  simp [rows?, splitOn_joinRows h]

/-- Rows behind an ended text of any kind. -/
theorem rows?_append_joinRows (front : List Char) {rows : List (List Char)}
    (h : ∀ row ∈ rows, '\n' ∉ row) :
    rows? (front ++ '\n' :: joinRows rows) = some (front.splitOn '\n' ++ rows) := by
  rw [rows?, List.splitOn_append_cons_self, splitOn_joinRows h, ← List.append_assoc]
  simp

/-- The last row of an ended text is what the text ends in. -/
theorem suffix_of_getLast?_splitOn {cs row : List Char}
    (h : (cs.splitOn '\n').getLast? = some row) : row <:+ cs := by
  obtain ⟨init, hinit⟩ := List.getLast?_eq_some_iff.mp h
  have hjoin := joinRows_splitOn cs
  rw [hinit, joinRows_append, joinRows_cons, joinRows_nil, ← List.append_assoc] at hjoin
  exact ⟨joinRows init, List.append_cancel_right hjoin⟩

/-! ## The ends of a row -/

/-- A text ends in what its last part ends in. -/
theorem suffix_toList_append {back : List Char} {t : String} (h : back <:+ t.toList)
    (cs : List Char) (s : String) : back <:+ cs ++ (s ++ t).toList := by
  simp only [String.toList_append]
  exact List.suffix_append_of_suffix (List.suffix_append_of_suffix h)

theorem not_suffix_of_suffix {back other cs : List Char} (h : other <:+ cs)
    (hlength : back.length = other.length) (hne : back ≠ other) : ¬back <:+ cs := by
  intro hback
  exact hne ((List.suffix_of_suffix_length_le hback h hlength.le).eq_of_length hlength)

@[simp] theorem dropPrefix?_append (front cs : List Char) :
    (front ++ cs).dropPrefix? front = some cs :=
  List.dropPrefix?_append_of_beq cs (beq_self_eq_true front)

@[simp] theorem dropSuffix?_append (cs back : List Char) :
    (cs ++ back).dropSuffix? back = some cs :=
  List.dropSuffix?_eq_some_iff.mpr ⟨back, rfl, beq_self_eq_true back⟩

theorem dropSuffix?_eq_none {cs back : List Char} (h : ¬back <:+ cs) :
    cs.dropSuffix? back = none := by
  rw [Option.eq_none_iff_forall_ne_some]
  intro front hfront
  obtain ⟨back', rfl, hback⟩ := List.dropSuffix?_eq_some_iff.mp hfront
  exact h ⟨front, by rw [eq_of_beq hback]⟩

/-- A part of a row ends at the first character that does not occur in it. -/
theorem takeWhile_append_cons {front : List Char} {c : Char} (h : c ∉ front) (rest : List Char) :
    (front ++ c :: rest).takeWhile (· ≠ c) = front ∧
      (front ++ c :: rest).dropWhile (· ≠ c) = c :: rest := by
  have hne : ∀ d ∈ front, decide (d ≠ c) = true := by
    intro d hd
    grind
  rw [List.takeWhile_append_of_pos hne, List.dropWhile_append_of_pos hne]
  simp

variable {α : Type} {p : α → Bool} {xs ys : List α}

theorem rdropWhile_append (hy : ∀ y ∈ ys, p y = true)
    (hx : ∀ x, xs.getLast? = some x → p x = false) : (xs ++ ys).rdropWhile p = xs := by
  rw [List.rdropWhile, List.reverse_append,
    List.dropWhile_append_of_pos fun y h => hy y (List.mem_reverse.mp h)]
  rw [← List.rdropWhile, List.rdropWhile_eq_self_iff]
  intro hne
  simp [hx _ (List.getLast?_eq_some_getLast hne)]

theorem rtakeWhile_append (hy : ∀ y ∈ ys, p y = true)
    (hx : ∀ x, xs.getLast? = some x → p x = false) : (xs ++ ys).rtakeWhile p = ys := by
  have happend := List.rdropWhile_append_rtakeWhile (p := p) (l := xs ++ ys)
  rw [rdropWhile_append hy hx] at happend
  exact List.append_cancel_left happend

/-- The decimal number at the end of a row, and what stands before it. -/
def numberAtEnd? (cs : List Char) : Option (List Char × Nat) :=
  let digits := cs.rtakeWhile Char.isDigit
  if digits.isEmpty then none
  else some (cs.rdropWhile Char.isDigit, Nat.ofDigitChars 10 digits 0)

/-- A number behind a space is read back. -/
theorem numberAtEnd?_append {cs : List Char} (hspace : [' '] <:+ cs) (n : Nat) :
    numberAtEnd? (cs ++ (toString n).toList) = some (cs, n) := by
  have h : ∀ c, cs.getLast? = some c → c.isDigit = false := by
    obtain ⟨front, rfl⟩ := hspace
    intro c hc
    obtain rfl : ' ' = c := by simpa using hc
    decide
  have hdigits : ∀ c ∈ (toString n).toList, c.isDigit = true := by
    intro c hc
    rw [Nat.toString_eq_repr, Nat.toList_repr] at hc
    exact Nat.isDigit_of_mem_toDigits (by decide) (by decide) hc
  rw [numberAtEnd?, rtakeWhile_append hdigits h, rdropWhile_append hdigits h,
    Nat.toString_eq_repr, Nat.toList_repr, Nat.ofDigitChars_ten_toDigits]
  simp [Nat.toDigits_ne_nil]

theorem notMem_toDigits {c : Char} (h : c.isDigit = false) (n : Nat) : c ∉ Nat.toDigits 10 n := by
  intro hmem
  have hdigit := Nat.isDigit_of_mem_toDigits (by decide) (by decide) hmem
  simp [h] at hdigit

theorem lf_notMem_toDigits (n : Nat) : '\n' ∉ Nat.toDigits 10 n :=
  notMem_toDigits (by decide) n

end OpcodeTable.Text
