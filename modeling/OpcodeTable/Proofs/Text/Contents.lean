import OpcodeTable.Proofs.Text.Removal

/-!
# Changing the contents of lines

A line is its contents with a terminator: a line feed, a carriage return and a line feed, or nothing
at the end of the text. When the contents of every line are replaced by others that can stand in
front of its terminator, the new text has the new contents as its lines, with the old terminators.
-/

namespace OpcodeTable.Text

variable {c t l cs : List Char} {f g : List Char → List Char}

/-! ## Contents and terminators -/

/-- `Ended c t` says that the contents `c` and the terminator `t` make up a line. -/
inductive Ended : List Char → List Char → Prop where
  | last {c : List Char} (hne : c ≠ []) (hc : '\n' ∉ c) : Ended c []
  | lf {c : List Char} (hc : '\n' ∉ c) (hr : c.getLast? ≠ some '\r') : Ended c ['\n']
  | crlf {c : List Char} (hc : '\n' ∉ c) : Ended c ['\r', '\n']

/-- A line without its terminator. -/
def contents (l : List Char) : List Char :=
  if l.getLast? = some '\n' then dropFinalReturn l.dropLast else l

/-- The terminator of a line. -/
def terminator (l : List Char) : List Char :=
  l.drop (contents l).length

theorem contents_of_notMem (h : '\n' ∉ l) : contents l = l :=
  if_neg fun hlast => h (List.mem_of_getLast? hlast)

theorem contents_append_lf (l : List Char) : contents (l ++ ['\n']) = dropFinalReturn l := by
  simp [contents]

/-- Contents and terminator are found in the line that they make up. -/
theorem Ended.contents_append (h : Ended c t) : contents (c ++ t) = c := by
  cases h with
  | last hne hc => rw [List.append_nil, contents_of_notMem hc]
  | lf hc hr => rw [contents_append_lf, dropFinalReturn_of_ne hr]
  | crlf hc =>
    have hline : c ++ ['\r', '\n'] = (c ++ ['\r']) ++ ['\n'] := by simp
    rw [hline, contents_append_lf, dropFinalReturn_append]

theorem Ended.terminator_append (h : Ended c t) : terminator (c ++ t) = t := by
  rw [terminator, h.contents_append, List.drop_left]

/-- Contents in which a line cannot break fit any terminator. -/
theorem Ended.replace (h : Ended c t) {c' : List Char} (hne : c' ≠ []) (hlf : '\n' ∉ c')
    (hr : '\r' ∉ c') : Ended c' t := by
  cases h with
  | last _ _ => exact .last hne hlf
  | lf _ _ => exact .lf hlf fun hlast => hr (List.mem_of_getLast? hlast)
  | crlf _ => exact .crlf hlf

theorem ended_of_notMem (hne : l ≠ []) (hl : '\n' ∉ l) : ∃ c t, Ended c t ∧ l = c ++ t :=
  ⟨l, [], .last hne hl, by simp⟩

theorem ended_append_lf (hl : '\n' ∉ l) : ∃ c t, Ended c t ∧ l ++ ['\n'] = c ++ t := by
  by_cases hr : l.getLast? = some '\r'
  · obtain ⟨c, rfl⟩ := List.getLast?_eq_some_iff.mp hr
    have hc : '\n' ∉ c := fun h => hl (List.mem_append_left _ h)
    exact ⟨c, ['\r', '\n'], .crlf hc, by simp⟩
  · exact ⟨l, ['\n'], .lf hl hr, rfl⟩

/-- A line with a terminator ends in a line feed and holds no other. -/
theorem Ended.eq_append_lf (h : Ended c t) (ht : t ≠ []) :
    ∃ l, '\n' ∉ l ∧ c ++ t = l ++ ['\n'] := by
  cases h with
  | last hne hc => contradiction
  | lf hc hr => exact ⟨c, hc, rfl⟩
  | crlf hc => exact ⟨c ++ ['\r'], by simp [hc], by simp⟩

theorem exists_ended_of_mem (h : l ∈ endedLines cs) : ∃ c t, Ended c t ∧ l = c ++ t := by
  induction cs using lines_induction with
  | nil => cases h
  | last m hne hm =>
    rw [endedLines_of_notMem hne hm, List.mem_singleton] at h
    exact h ▸ ended_of_notMem hne hm
  | ended m rest hm ih =>
    rw [endedLines_append_lf hm, List.mem_cons] at h
    rcases h with rfl | h
    · exact ended_append_lf hm
    · exact ih h

theorem ended_of_mem (h : l ∈ endedLines cs) : Ended (contents l) (terminator l) := by
  obtain ⟨c, t, hended, rfl⟩ := exists_ended_of_mem h
  rwa [hended.contents_append, hended.terminator_append]

theorem terminator_append_lf_ne_nil (hl : '\n' ∉ l) : terminator (l ++ ['\n']) ≠ [] := by
  obtain ⟨c, t, hended, heq⟩ := ended_append_lf hl
  rw [heq, hended.terminator_append]
  rintro rfl
  cases hended with
  | last hne hc =>
    rw [List.append_nil] at heq
    exact hc (heq ▸ by simp)

/-- The lines of a text are the contents of its lines with their terminators. -/
theorem linesOf_eq_map_contents (cs : List Char) : linesOf cs = (endedLines cs).map contents := by
  induction cs using lines_induction with
  | nil => rfl
  | last l hne hl => simp [linesOf_of_notMem hne hl, endedLines_of_notMem hne hl,
      contents_of_notMem hl]
  | ended l rest hl ih => simp [linesOf_append_lf hl, endedLines_append_lf hl, contents_append_lf,
      ih]

/-! ## Replacing the contents -/

/-- The line with other contents. -/
def replaceContents (f : List Char → List Char) (l : List Char) : List Char :=
  f (contents l) ++ terminator l

/-- The text with other contents in every line, and all terminators as they are. -/
def mapContents (f : List Char → List Char) (cs : List Char) : List Char :=
  (endedLines cs).flatMap (replaceContents f)

theorem endedLines_mapContents
    (h : ∀ l ∈ endedLines cs, Ended (f (contents l)) (terminator l)) :
    endedLines (mapContents f cs) = (endedLines cs).map (replaceContents f) := by
  induction cs using lines_induction with
  | nil => rfl
  | last l hne hl =>
    have hended := h l (by simp [endedLines_of_notMem hne hl])
    have hterminator : terminator l = [] := by
      rw [terminator, contents_of_notMem hl, List.drop_length]
    rw [mapContents, endedLines_of_notMem hne hl, List.flatMap_singleton, List.map_singleton]
    rw [replaceContents, hterminator, List.append_nil]
    rw [hterminator] at hended
    cases hended with
    | last hne hc => exact endedLines_of_notMem hne hc
  | ended l rest hl ih =>
    have hlines := endedLines_append_lf hl rest
    have hended := h (l ++ ['\n']) (by rw [hlines]; exact List.mem_cons_self)
    -- the new line ends in its only line feed, so the text breaks behind it again
    obtain ⟨l', hl', heq⟩ := hended.eq_append_lf (terminator_append_lf_ne_nil hl)
    have ih := ih fun m hm => h m (by rw [hlines]; exact List.mem_cons_of_mem _ hm)
    rw [mapContents, hlines, List.flatMap_cons, List.map_cons, ← mapContents, ← ih,
      replaceContents, heq, List.append_assoc, List.singleton_append, endedLines_append_lf hl']

/-- The new contents are the lines of the new text. -/
theorem linesOf_mapContents
    (h : ∀ l ∈ endedLines cs, Ended (f (contents l)) (terminator l)) :
    linesOf (mapContents f cs) = (linesOf cs).map f := by
  rw [linesOf_eq_map_contents, endedLines_mapContents h, linesOf_eq_map_contents, List.map_map,
    List.map_map]
  exact List.map_congr_left fun l hl => (h l hl).contents_append

/-- The terminators are the old ones. -/
theorem map_terminator_mapContents
    (h : ∀ l ∈ endedLines cs, Ended (f (contents l)) (terminator l)) :
    (endedLines (mapContents f cs)).map terminator = (endedLines cs).map terminator := by
  rw [endedLines_mapContents h, List.map_map]
  exact List.map_congr_left fun l hl => (h l hl).terminator_append

/-- Replacing the contents twice is replacing them once. -/
theorem mapContents_mapContents
    (h : ∀ l ∈ endedLines cs, Ended (f (contents l)) (terminator l)) :
    mapContents g (mapContents f cs) = mapContents (g ∘ f) cs := by
  rw [mapContents, endedLines_mapContents h, List.flatMap_map, mapContents]
  refine List.flatMap_congr fun l hl => ?_
  have hended := h l hl
  rw [replaceContents, replaceContents, hended.contents_append, hended.terminator_append]
  rfl

theorem mapContents_congr (h : ∀ l ∈ linesOf cs, f l = g l) :
    mapContents f cs = mapContents g cs := by
  refine List.flatMap_congr fun l hl => ?_
  have hmem : contents l ∈ linesOf cs := by
    rw [linesOf_eq_map_contents]
    exact List.mem_map_of_mem hl
  rw [replaceContents, h _ hmem, replaceContents]

/-- The text with other contents in every line, and all terminators as they are. -/
def mapLines (f : String → String) (text : String) : String :=
  String.ofList (mapContents (fun l => (f (String.ofList l)).toList) text.toList)

theorem lines_mapLines {f : String → String} {text : String}
    (h : ∀ l ∈ endedLines text.toList,
      Ended (f (String.ofList (contents l))).toList (terminator l)) :
    lines (mapLines f text) = (lines text).map f := by
  rw [lines, mapLines, String.toList_ofList, linesOf_mapContents h, lines, List.map_map,
    List.map_map]
  exact List.map_congr_left fun l _ => String.ofList_toList

theorem mapLines_mapLines {f g : String → String} {text : String}
    (h : ∀ l ∈ endedLines text.toList,
      Ended (f (String.ofList (contents l))).toList (terminator l)) :
    mapLines g (mapLines f text) = mapLines (g ∘ f) text := by
  rw [mapLines, mapLines, String.toList_ofList, mapContents_mapContents h, mapLines]
  simp only [Function.comp_def, String.ofList_toList]

theorem mapLines_congr {f g : String → String} {text : String}
    (h : ∀ raw ∈ lines text, f raw = g raw) : mapLines f text = mapLines g text := by
  have hcongr : ∀ l ∈ linesOf text.toList,
      (f (String.ofList l)).toList = (g (String.ofList l)).toList := by
    intro l hl
    rw [h _ (List.mem_map_of_mem hl)]
  rw [mapLines, mapContents_congr hcongr, mapLines]

example : mapLines (fun _ => "x") "a\r\n\nb" = "x\r\nx\nx" := by decide

end OpcodeTable.Text
