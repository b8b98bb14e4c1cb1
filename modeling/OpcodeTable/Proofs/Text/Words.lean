import OpcodeTable.Proofs.Text.Split

/-!
# Words and fields

The words of a text follow one another: the first one ends at the first blank behind it, and the
other words are those of the text from there on. Two fields are told apart by the one space between
them, so words with single spaces between them are fields as well.
-/

namespace OpcodeTable.Text

variable {cs w rest : List Char} {c : Char}

/-- The first word. A text of blanks has none, and the list is then empty. -/
def firstWord (cs : List Char) : List Char :=
  (cs.dropWhile isBlank).takeWhile (!isBlank ·)

/-- The text behind the first word. -/
def afterFirstWord (cs : List Char) : List Char :=
  (cs.dropWhile isBlank).dropWhile (!isBlank ·)

theorem isBlank_of_mem_firstWord (h : c ∈ firstWord cs) : isBlank c = false := by
  simpa using List.mem_takeWhile_imp h

theorem firstWord_append_afterFirstWord (cs : List Char) :
    firstWord cs ++ afterFirstWord cs = cs.dropWhile isBlank :=
  List.takeWhile_append_dropWhile

/-- A word ends in front of a blank or at the end of the text. -/
theorem isBlank_of_head?_afterFirstWord (h : (afterFirstWord cs).head? = some c) :
    isBlank c = true := by
  have hhead := List.head?_dropWhile_not (!isBlank ·) (cs.dropWhile isBlank)
  rw [← afterFirstWord, h] at hhead
  simpa using hhead

theorem firstWord_eq_nil_iff : firstWord cs = [] ↔ ∀ c ∈ cs, isBlank c = true := by
  rw [← List.dropWhile_eq_nil_iff]
  cases h : cs.dropWhile isBlank with
  | nil => simp [firstWord, h]
  | cons d ds =>
    have hd : isBlank d = false := by
      have hhead := List.head?_dropWhile_not isBlank cs
      simpa [h] using hhead
    simp [firstWord, h, hd]

/-- A word and what follows it are found again. -/
theorem firstWord_append (hne : w ≠ []) (hw : ∀ c ∈ w, isBlank c = false)
    (hrest : ∀ c ∈ rest.head?, isBlank c = true) :
    firstWord (w ++ rest) = w ∧ afterFirstWord (w ++ rest) = rest := by
  have hdrop : (w ++ rest).dropWhile isBlank = w ++ rest := by
    obtain ⟨c, w, rfl⟩ := List.exists_cons_of_ne_nil hne
    rw [List.cons_append, List.dropWhile_cons_of_neg (by simp [hw c])]
  have hpos : ∀ c ∈ w, (!isBlank c) = true := fun c hc => by simp [hw c hc]
  rw [firstWord, afterFirstWord, hdrop, List.takeWhile_append_of_pos hpos,
    List.dropWhile_append_of_pos hpos]
  cases rest with
  | nil => simp
  | cons d rest =>
    have hd : isBlank d = true := hrest d rfl
    simp [hd]

theorem firstWord_self (hne : w ≠ []) (hw : ∀ c ∈ w, isBlank c = false) :
    firstWord w = w ∧ afterFirstWord w = [] := by
  have hnil : ∀ c ∈ ([] : List Char).head?, isBlank c = true := by simp
  simpa using firstWord_append hne hw hnil

/-- Blanks in front do not matter for the first word. -/
theorem firstWord_cons_blank (hc : isBlank c = true) (cs : List Char) :
    firstWord (c :: cs) = firstWord cs := by
  rw [firstWord, List.dropWhile_cons_of_pos hc, firstWord]

/-- Blanks in front of a word are left out. -/
theorem firstWord_gap_append {gap : List Char} (hgap : ∀ c ∈ gap, isBlank c = true) (hne : w ≠ [])
    (hw : ∀ c ∈ w, isBlank c = false) (hrest : ∀ c ∈ rest.head?, isBlank c = true) :
    firstWord (gap ++ (w ++ rest)) = w ∧ afterFirstWord (gap ++ (w ++ rest)) = rest := by
  have hdrop : (gap ++ (w ++ rest)).dropWhile isBlank = (w ++ rest).dropWhile isBlank :=
    List.dropWhile_append_of_pos hgap
  rw [firstWord, afterFirstWord, hdrop]
  exact firstWord_append hne hw hrest

/-- The blanks in front, the first word, and what follows it. -/
theorem exists_gap_append (cs : List Char) :
    ∃ gap, (∀ c ∈ gap, isBlank c = true) ∧ cs = gap ++ (firstWord cs ++ afterFirstWord cs) := by
  refine ⟨cs.takeWhile isBlank, fun c => List.mem_takeWhile_imp, ?_⟩
  rw [firstWord_append_afterFirstWord, List.takeWhile_append_dropWhile]

/-! ## Words -/

/-- A blank is the end of a word. -/
theorem words_append_blank (hc : isBlank c = true) (xs ys : List Char) :
    words (xs ++ c :: ys) = words xs ++ words ys := by
  rw [words, splitWhere_eq_splitOnP, List.splitOnP_append_cons xs ys hc, List.filter_append, words,
    words, splitWhere_eq_splitOnP, splitWhere_eq_splitOnP]

theorem words_cons_blank (hc : isBlank c = true) (cs : List Char) :
    words (c :: cs) = words cs :=
  words_append_blank hc [] cs

theorem words_eq_singleton (hne : w ≠ []) (hw : ∀ c ∈ w, isBlank c = false) : words w = [w] := by
  have hsplit : w.splitOnP isBlank = [w] :=
    List.splitOnP_eq_singleton fun c hc => by simp [hw c hc]
  simp [words, splitWhere_eq_splitOnP, hsplit, hne]

theorem words_dropWhile_blank (cs : List Char) : words (cs.dropWhile isBlank) = words cs := by
  induction cs with
  | nil => rfl
  | cons c cs ih =>
    by_cases hc : isBlank c = true
    · rw [List.dropWhile_cons_of_pos hc, ih, words_cons_blank hc]
    · rw [List.dropWhile_cons_of_neg hc]

/-- The words of a text are its first word and the words behind it. -/
theorem words_eq_cons (h : firstWord cs ≠ []) :
    words cs = firstWord cs :: words (afterFirstWord cs) := by
  have hword : words (firstWord cs) = [firstWord cs] :=
    words_eq_singleton h fun c => isBlank_of_mem_firstWord
  rw [← words_dropWhile_blank, ← firstWord_append_afterFirstWord]
  -- the first word is the whole text, or a blank follows it and `words` breaks there
  cases hafter : afterFirstWord cs with
  | nil => rw [List.append_nil, hword]; rfl
  | cons c rest =>
    have hc : isBlank c = true := isBlank_of_head?_afterFirstWord (by rw [hafter]; rfl)
    rw [words_append_blank hc, words_cons_blank hc, hword, List.singleton_append]

theorem words_eq_nil (h : firstWord cs = []) : words cs = [] := by
  rw [← words_dropWhile_blank, List.dropWhile_eq_nil_iff.mpr (firstWord_eq_nil_iff.mp h)]
  rfl

/-- The first two words, as far as they are there. -/
theorem take_two_words (cs : List Char) :
    (words cs).take 2 =
      if firstWord cs = [] then []
      else if firstWord (afterFirstWord cs) = [] then [firstWord cs]
      else [firstWord cs, firstWord (afterFirstWord cs)] := by
  split_ifs with hfirst hsecond
  · rw [words_eq_nil hfirst]
    rfl
  · rw [words_eq_cons hfirst, words_eq_nil hsecond]
    rfl
  · rw [words_eq_cons hfirst, words_eq_cons hsecond]
    rfl

/-! ## Fields -/

theorem fields_eq_singleton (h : ' ' ∉ cs) : fields cs = [cs] := by
  rw [fields, splitWhere_eq_splitOn, List.splitOn_eq_singleton h]

theorem fields_append_space {ident name : List Char} (hi : ' ' ∉ ident) (hn : ' ' ∉ name) :
    fields (ident ++ ' ' :: name) = [ident, name] := by
  rw [fields, splitWhere_eq_splitOn, List.splitOn_append_cons_self_of_not_mem hi,
    List.splitOn_eq_singleton hn]

/-- A text of two fields is these fields with the space between them. -/
theorem eq_append_space_of_fields {ident name : List Char} (h : fields cs = [ident, name]) :
    cs = ident ++ ' ' :: name := by
  rw [fields, splitWhere_eq_splitOn] at h
  have hjoin : [' '].intercalate (cs.splitOn ' ') = cs := List.intercalate_splitOn ' '
  rw [h] at hjoin
  simpa using hjoin.symm

theorem fields_eq_pair_iff {ident name : List Char} :
    fields cs = [ident, name] ↔ cs = ident ++ ' ' :: name ∧ ' ' ∉ ident ∧ ' ' ∉ name := by
  constructor
  · intro h
    have hnotMem : ∀ field ∈ [ident, name], ' ' ∉ field := by
      intro field hfield hspace
      rw [← h] at hfield
      exact (mem_of_mem_fields hfield hspace).2 rfl
    exact ⟨eq_append_space_of_fields h, hnotMem ident (by simp), hnotMem name (by simp)⟩
  · rintro ⟨rfl, hident, hname⟩
    exact fields_append_space hident hname

/-- Only a text without spaces is a single field. -/
theorem fields_eq_singleton_iff {field : List Char} :
    fields cs = [field] ↔ cs = field ∧ ' ' ∉ field := by
  constructor
  · intro h
    have hjoin : [' '].intercalate (fields cs) = cs := by
      rw [fields, splitWhere_eq_splitOn, List.intercalate_splitOn]
    have hself : cs = field := by simpa [h] using hjoin.symm
    refine ⟨hself, fun hspace => ?_⟩
    exact (mem_of_mem_fields (by rw [h]; exact List.mem_singleton_self field) hspace).2 rfl
  · rintro ⟨rfl, hspace⟩
    exact fields_eq_singleton hspace

/-! ## The first two words -/

/-- The first two words with a space between them, or the only word. -/
def firstTwoWords (cs : List Char) : List Char :=
  let second := firstWord (afterFirstWord cs)
  if second = [] then firstWord cs else firstWord cs ++ ' ' :: second

theorem space_notMem_firstWord (cs : List Char) : ' ' ∉ firstWord cs :=
  fun h => absurd (isBlank_of_mem_firstWord h) (by decide)

theorem firstTwoWords_ne_nil (h : firstWord cs ≠ []) : firstTwoWords cs ≠ [] := by
  rw [firstTwoWords]
  split <;> simp [h]

theorem mem_firstTwoWords (h : c ∈ firstTwoWords cs) : isBlank c = false ∨ c = ' ' := by
  rw [firstTwoWords] at h
  split at h
  · exact .inl (isBlank_of_mem_firstWord h)
  · rcases List.mem_append.mp h with h | h
    · exact .inl (isBlank_of_mem_firstWord h)
    · rcases List.mem_cons.mp h with rfl | h
      · exact .inr rfl
      · exact .inl (isBlank_of_mem_firstWord h)

theorem notMem_firstTwoWords (hc : isBlank c = true) (hne : c ≠ ' ') : c ∉ firstTwoWords cs := by
  intro hmem
  rcases mem_firstTwoWords hmem with hword | hspace
  · simp [hc] at hword
  · exact hne hspace

/-- The first two words are the fields of the text that they make up. -/
theorem fields_firstTwoWords (h : firstWord cs ≠ []) :
    fields (firstTwoWords cs) = (words cs).take 2 := by
  rw [words_eq_cons h, firstTwoWords]
  by_cases hsecond : firstWord (afterFirstWord cs) = []
  · rw [if_pos hsecond, words_eq_nil hsecond, fields_eq_singleton (space_notMem_firstWord cs)]
    rfl
  · rw [if_neg hsecond, words_eq_cons hsecond,
      fields_append_space (space_notMem_firstWord cs) (space_notMem_firstWord _)]
    rfl

theorem firstTwoWords_firstTwoWords (h : firstWord cs ≠ []) :
    firstTwoWords (firstTwoWords cs) = firstTwoWords cs := by
  have hfirst : ∀ c ∈ firstWord cs, isBlank c = false := fun c => isBlank_of_mem_firstWord
  by_cases hsecond : firstWord (afterFirstWord cs) = []
  · have hself : firstTwoWords cs = firstWord cs := by rw [firstTwoWords, if_pos hsecond]
    obtain ⟨hword, hafter⟩ := firstWord_self h hfirst
    rw [hself, firstTwoWords, hword, hafter]
    rfl
  · have hself : firstTwoWords cs = firstWord cs ++ ' ' :: firstWord (afterFirstWord cs) := by
      rw [firstTwoWords, if_neg hsecond]
    have hspace : ∀ c ∈ (' ' :: firstWord (afterFirstWord cs)).head?, isBlank c = true := by
      simp
      decide
    obtain ⟨hword, hafter⟩ := firstWord_append h hfirst hspace
    have hnext : firstWord (' ' :: firstWord (afterFirstWord cs)) =
        firstWord (afterFirstWord cs) := by
      rw [firstWord_cons_blank (by decide)]
      exact (firstWord_self hsecond fun c => isBlank_of_mem_firstWord).1
    rw [hself, firstTwoWords, hword, hafter, hnext, if_neg hsecond]

end OpcodeTable.Text
