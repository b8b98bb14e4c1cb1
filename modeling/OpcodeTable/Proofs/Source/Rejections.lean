import OpcodeTable.Proofs.Source

/-!
# Which lines are rejected

A line is rejected when the classifier rejects it or when an earlier instruction line has its
identifier, and for nothing else. So a rejected line leaves no trace in the verdicts on other
lines, and a file without rejections consists of its classified lines.
-/

namespace OpcodeTable.Source

variable {mode : Mode} {ls : List String} {raw ident : String} {i : Nat} {fault : LineFault}

theorem mem_classified_error_iff :
    (i, .error fault) ∈ classified mode ls ↔
      ∃ raw, ls[i]? = some raw ∧ Line.classify mode 0 raw = .error fault := by
  simp only [classified, List.mem_mapIdx, Prod.mk.injEq]
  constructor
  · rintro ⟨j, hj, rfl, hc⟩
    exact ⟨ls[j], List.getElem?_eq_getElem hj, (Line.classify_eq_error_iff _ _).mp hc⟩
  · rintro ⟨raw, hraw, hc⟩
    obtain ⟨hi, rfl⟩ := List.getElem?_eq_some_iff.mp hraw
    exact ⟨i, hi, rfl, (Line.classify_eq_error_iff _ _).mp hc⟩

theorem verdict_eq_error_iff :
    verdict mode ls raw = .error fault ↔ Line.classify mode 0 raw = .error fault ∨
      ∃ ident first, fault = .redefined ident first ∧ Line.ident? mode raw = some ident ∧
        Defines mode ls ident first := by
  rcases verdict_cases mode ls raw with ⟨fault', hc, hv⟩ | ⟨line, hc, hline, hv⟩ |
    ⟨inst, hc, -, hid, ⟨first, hd, hv⟩ | ⟨hnew, hv⟩⟩
  · simp [hv, hc 0, Line.ident?_of_error (hc 0)]
  · simp [hv, hc 0, Line.ident?_of_ok (hc 0), hline]
  · rw [hv, Line.classify_eq_map mode 0, hc]
    simp only [Except.error.injEq, Except.map, reduceCtorEq, false_or, hid, Option.some.injEq]
    constructor
    · rintro rfl
      exact ⟨_, first, rfl, rfl, hd⟩
    · rintro ⟨_, first', rfl, rfl, hd'⟩
      rw [hd.unique hd']
  · rw [hv, Line.classify_eq_map mode 0, hc]
    simp only [Except.map, reduceCtorEq, false_or, hid, Option.some.injEq, false_iff]
    rintro ⟨_, first, -, rfl, hd⟩
    exact hnew (mem_idents_iff.mpr ⟨first, hd.1⟩)

/-- The rejected lines: those that the classifier rejects, and the instruction lines behind the
first one with their identifier. -/
theorem mem_rejected_iff :
    ⟨i, fault⟩ ∈ rejected mode ls ↔ (i, .error fault) ∈ classified mode ls ∨
      ∃ ident first, fault = .redefined ident first ∧ identAt? mode ls i = some ident ∧
        Defines mode ls ident first ∧ first < i := by
  have hmem : ⟨i, fault⟩ ∈ rejected mode ls ↔
      ∃ raw, ls[i]? = some raw ∧ verdict mode (ls.take i) raw = .error fault := by
    simp only [rejected, verdicts, List.mem_filterMap, List.mem_mapIdx]
    constructor
    · rintro ⟨_, ⟨j, hj, rfl⟩, h⟩
      cases hv : verdict mode (ls.take j) ls[j] with
      | ok line => simp [hv] at h
      | error fault' =>
        obtain ⟨rfl, rfl⟩ : j = i ∧ fault' = fault := by simpa [hv] using h
        exact ⟨ls[j], List.getElem?_eq_getElem hj, hv⟩
    · rintro ⟨raw, hraw, hv⟩
      obtain ⟨hi, rfl⟩ := List.getElem?_eq_some_iff.mp hraw
      exact ⟨_, ⟨i, hi, rfl⟩, by simp [hv]⟩
  rw [hmem, mem_classified_error_iff]
  simp only [verdict_eq_error_iff, defines_take_iff, identAt?]
  constructor
  · rintro ⟨raw, hraw, hc | ⟨ident, first, rfl, hid, hd⟩⟩
    · exact .inl ⟨raw, hraw, hc⟩
    · exact .inr ⟨ident, first, rfl, by simp [hraw, hid], hd⟩
  · rintro (⟨raw, hraw, hc⟩ | ⟨ident, first, rfl, hid, hd⟩)
    · exact ⟨raw, hraw, .inl hc⟩
    · obtain ⟨raw, hraw, hid⟩ := Option.bind_eq_some_iff.mp hid
      exact ⟨raw, hraw, .inr ⟨ident, first, rfl, hid, hd⟩⟩

theorem index_lt_of_mem_rejected {r : Rejection} (hr : r ∈ rejected mode ls) :
    r.index < ls.length := by
  obtain ⟨v, hv, h⟩ := List.mem_filterMap.mp hr
  obtain ⟨j, hj, rfl⟩ := List.mem_mapIdx.mp hv
  cases hv : verdict mode (ls.take j) ls[j] with
  | ok line => simp [hv] at h
  | error fault =>
    obtain rfl : ⟨j, fault⟩ = r := by simpa [hv] using h
    exact hj

/-- At most one rejection for each line, in the order of the lines. -/
theorem pairwise_rejected (mode : Mode) (ls : List String) :
    ((rejected mode ls).map (·.index)).Pairwise (· < ·) := by
  induction ls using List.reverseRecOn with
  | nil => exact .nil
  | append_singleton ls raw ih =>
    cases hv : verdict mode ls raw with
    | ok line => rwa [rejected_concat_ok hv]
    | error fault =>
      rw [rejected_concat_error hv, List.map_append, List.pairwise_append]
      refine ⟨ih, by simp, ?_⟩
      simpa using fun r => index_lt_of_mem_rejected (r := r)

/-- The first line with an identifier is never rejected. -/
theorem Defines.notMem_rejected (h : Defines mode ls ident i) :
    i ∉ (rejected mode ls).map (·.index) := by
  intro hi
  obtain ⟨⟨_, fault⟩, hr, rfl⟩ := List.mem_map.mp hi
  rcases mem_rejected_iff.mp hr with hc | ⟨ident', first, -, hid, hd, hlt⟩
  · obtain ⟨raw, hraw, hc⟩ := mem_classified_error_iff.mp hc
    have hid := h.1
    simp [identAt?, hraw, Line.ident?_of_error hc] at hid
  · obtain rfl : ident' = ident := Option.some.inj (hid.symm.trans h.1)
    exact absurd (hd.unique h) hlt.ne

/-! ## Replacing lines that define nothing -/

variable {ms : List String}

theorem Defines.of_agree (h : Defines mode ls ident i)
    (hagree : ∀ j, ls[j]? = ms[j]? ∨
      ∀ ident, ¬Defines mode ls ident j ∧ ¬Defines mode ms ident j) :
    Defines mode ms ident i := by
  have transfer {j : Nat} (hj : ls[j]? = ms[j]?) : identAt? mode ls j = identAt? mode ms j := by
    rw [identAt?, identAt?, hj]
  have hi : ls[i]? = ms[i]? := (hagree i).resolve_right fun hno => (hno ident).1 h
  have hmem : ident ∈ idents mode ms := mem_idents_iff.mpr ⟨i, (transfer hi).symm.trans h.1⟩
  obtain ⟨j, hj⟩ := exists_defines hmem
  -- The first line in the other file is kept, so it cannot come before the first line here.
  have hkept : ls[j]? = ms[j]? := (hagree j).resolve_right fun hno => (hno ident).2 hj
  have hij : i ≤ j := h.2 ((transfer hkept).trans hj.1)
  have hji : j ≤ i := hj.2 ((transfer hi).symm.trans h.1)
  rwa [le_antisymm hij hji]

/-- What is reported about a line does not change when lines that define nothing are replaced by
other such lines, rejected or not. -/
theorem mem_rejected_congr
    (hagree : ∀ j, ls[j]? = ms[j]? ∨
      ∀ ident, ¬Defines mode ls ident j ∧ ¬Defines mode ms ident j)
    (hi : ls[i]? = ms[i]?) : ⟨i, fault⟩ ∈ rejected mode ls ↔ ⟨i, fault⟩ ∈ rejected mode ms := by
  have hback : ∀ j, ms[j]? = ls[j]? ∨
      ∀ ident, ¬Defines mode ms ident j ∧ ¬Defines mode ls ident j :=
    fun j => (hagree j).imp Eq.symm fun hno ident => (hno ident).symm
  have hdefines (ident : String) (j : Nat) : Defines mode ls ident j ↔ Defines mode ms ident j :=
    ⟨fun h => h.of_agree hagree, fun h => h.of_agree hback⟩
  simp only [mem_rejected_iff, mem_classified_error_iff, identAt?, hi, hdefines]

/-! ## Files without rejections -/

/-- When nothing is rejected, every classified line is accepted as it was classified, and no two
instructions have one identifier. -/
theorem accepted_of_rejected_eq_nil (h : rejected mode ls = []) :
    (accepted mode ls).map (fun r => (r.index, Except.ok r.line)) = classified mode ls ∧
      (instructions mode ls).map (·.ident) = idents mode ls := by
  induction ls using List.reverseRecOn with
  | nil => exact ⟨rfl, rfl⟩
  | append_singleton ls raw ih =>
    cases hv : verdict mode ls raw with
    | error fault => simp [rejected_concat_error hv] at h
    | ok line =>
      rw [rejected_concat_ok hv] at h
      obtain ⟨haccepted, hidents⟩ := ih h
      have hlength : nextOpcode mode ls = (idents mode ls).length :=
        List.toFinset_card_of_nodup (hidents ▸ (numbered mode ls).nodup)
      rw [accepted_concat_ok hv, classified_concat, List.map_append, haccepted, instructions,
        accepted_concat_ok hv, List.filterMap_append, List.map_append, ← instructions, hidents,
        idents_concat, ← hlength]
      rcases verdict_cases mode ls raw with ⟨fault, -, hv'⟩ | ⟨line', hc, hline, hv'⟩ |
        ⟨inst, hc, -, hid, ⟨first, -, hv'⟩ | ⟨-, hv'⟩⟩
      · simp [hv] at hv'
      · obtain rfl : line = line' := by simpa [hv] using hv'
        simp [hc, hline, Line.ident?_of_ok (hc 0)]
      · simp [hv] at hv'
      · obtain rfl : line = .instruction inst := by simpa [hv] using hv'
        simp [hc, hid]

/-- Nothing is rejected exactly when the classifier accepts every line and no two instruction
lines have one identifier. -/
theorem rejected_eq_nil_iff :
    rejected mode ls = [] ↔
      (∀ c ∈ classified mode ls, ∃ line, c.2 = .ok line) ∧ (idents mode ls).Nodup := by
  constructor
  · intro h
    obtain ⟨haccepted, hidents⟩ := accepted_of_rejected_eq_nil h
    refine ⟨fun c hc => ?_, hidents ▸ (numbered mode ls).nodup⟩
    obtain ⟨r, -, rfl⟩ := List.mem_map.mp (haccepted ▸ hc)
    exact ⟨r.line, rfl⟩
  · rintro ⟨hok, hnodup⟩
    induction ls using List.reverseRecOn with
    | nil => rfl
    | append_singleton ls raw ih =>
      rw [idents_concat, List.nodup_append] at hnodup
      have ih := ih (fun c hc => hok c (by simp [hc])) hnodup.1
      rcases verdict_cases mode ls raw with ⟨fault, hc, -⟩ | ⟨line, -, -, hv⟩ |
        ⟨inst, -, -, hid, ⟨first, hd, -⟩ | ⟨-, hv⟩⟩
      · obtain ⟨line, hline⟩ := hok (ls.length, .error fault) (by simp [hc])
        simp at hline
      · rwa [rejected_concat_ok hv]
      · have hmem : inst.ident ∈ idents mode ls := mem_idents_iff.mpr ⟨first, hd.1⟩
        exact absurd rfl (hnodup.2.2 _ hmem _ (by simp [hid]))
      · rwa [rejected_concat_ok hv]

end OpcodeTable.Source
