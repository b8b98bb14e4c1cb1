import OpcodeTable.Proofs.Source.Removal

/-!
# Lines that state nothing

Empty lines and comments do not matter for the instructions of a file nor for what is rejected. Two
files with the same statements have the same instructions, and their rejected lines are the same
statements with the same faults.
-/

namespace OpcodeTable

/-- A line that is neither empty nor a comment. -/
def Line.isStatement (raw : String) : Bool :=
  !raw.toList.isEmpty && !commentMarker.isPrefixOf raw.toList

theorem Line.classify_of_not_isStatement {raw : String} (h : isStatement raw = false) (mode : Mode)
    (opcode : Nat) : ∃ line, classify mode opcode raw = .ok line ∧ line.instruction? = none := by
  unfold classify
  by_cases hcomment : commentMarker.isPrefixOf raw.toList = true
  · exact ⟨comment raw, by simp [hcomment], rfl⟩
  · have hempty : raw.toList.isEmpty = true := by simpa [isStatement, hcomment] using h
    exact ⟨blank, by simp [hcomment, hempty], rfl⟩

theorem Line.isStatement_of_classify_error {mode : Mode} {opcode : Nat} {raw : String}
    {fault : LineFault} (h : classify mode opcode raw = .error fault) :
    isStatement raw = true := by
  by_contra hno
  obtain ⟨line, hline, -⟩ := classify_of_not_isStatement (by simpa using hno) mode opcode
  simp [h] at hline

theorem Line.isStatement_of_ident? {mode : Mode} {raw ident : String}
    (h : ident? mode raw = some ident) : isStatement raw = true := by
  by_contra hno
  obtain ⟨line, hline, hnone⟩ := classify_of_not_isStatement (by simpa using hno) mode 0
  simp [ident?_of_ok hline, hnone] at h

namespace Source

open Text

variable {mode : Mode} {ls ms : List String} {i j : Nat}

/-- The line with the given index is a statement. -/
def StatesAt (ls : List String) (i : Nat) : Prop :=
  ∃ raw ∈ ls[i]?, Line.isStatement raw = true

instance (ls : List String) : DecidablePred (StatesAt ls) :=
  fun i => inferInstanceAs (Decidable (∃ raw ∈ ls[i]?, Line.isStatement raw = true))

theorem statesAt_of_identAt? {ident : String} (h : identAt? mode ls i = some ident) :
    StatesAt ls i := by
  obtain ⟨raw, hraw, hident⟩ := Option.bind_eq_some_iff.mp h
  exact ⟨raw, hraw, Line.isStatement_of_ident? hident⟩

theorem keepsDefinitions_statesAt (mode : Mode) (ls : List String) :
    KeepsDefinitions mode ls (StatesAt ls) :=
  fun _ _ h => statesAt_of_identAt? h.1

theorem keep_statesAt (ls : List String) : keep (StatesAt ls) ls = ls.filter Line.isStatement :=
  keep_eq_filter fun i raw hraw => by simp [StatesAt, hraw]

/-- Where a fault points to an earlier line, that line is a statement. -/
theorem statesAt_of_mem_rejected {r : Rejection} (hr : r ∈ rejected mode ls) :
    StatesAt ls r.index ∧
      ∀ ident first, r.fault = .redefined ident first → StatesAt ls first := by
  obtain ⟨i, fault⟩ := r
  rcases mem_rejected_iff.mp hr with hc | ⟨ident, first, rfl, hident, hd, -⟩
  · obtain ⟨raw, hraw, hc⟩ := mem_classified_error_iff.mp hc
    refine ⟨⟨raw, hraw, Line.isStatement_of_classify_error hc⟩, ?_⟩
    rintro ident first rfl
    exact absurd hc Line.classify_ne_redefined
  · refine ⟨statesAt_of_identAt? hident, ?_⟩
    rintro ident' first' ⟨⟩
    exact statesAt_of_identAt? hd.1

theorem rejected_statements (mode : Mode) (ls : List String) :
    rejected mode (ls.filter Line.isStatement) =
      (rejected mode ls).map (Rejection.renumber (StatesAt ls)) := by
  have hall : (rejected mode ls).filter (StatesAt ls ·.index) = rejected mode ls :=
    List.filter_eq_self.mpr fun r hr => by simpa using (statesAt_of_mem_rejected hr).1
  rw [← keep_statesAt, rejected_keep (keepsDefinitions_statesAt mode ls), hall]

theorem instructions_statements (mode : Mode) (ls : List String) :
    instructions mode (ls.filter Line.isStatement) = instructions mode ls := by
  rw [instructions, ← keep_statesAt, accepted_keep (keepsDefinitions_statesAt mode ls),
    List.filterMap_map, List.filterMap_filter]
  refine List.filterMap_congr fun r hr => ?_
  cases hl : r.line with
  | comment text => simp [Record.renumber, hl]
  | blank => simp [Record.renumber, hl]
  | instruction inst =>
    have hstates := statesAt_of_identAt? (defines_of_mem_accepted hr hl).1
    simp [Record.renumber, hl, hstates]

theorem idents_statements (mode : Mode) (ls : List String) :
    idents mode (ls.filter Line.isStatement) = idents mode ls := by
  rw [idents, List.filterMap_filter]
  refine List.filterMap_congr fun raw _ => ?_
  cases hident : Line.ident? mode raw with
  | none => simp
  | some ident => simp [Line.isStatement_of_ident? hident]

/-! ## Files with the same statements -/

/-- Line `i` of one file and line `j` of the other are the same statement: they are equal, and as
many statements stand before the one as before the other. -/
structure SameStatement (ls ms : List String) (i j : Nat) : Prop where
  line : ∃ raw, Line.isStatement raw = true ∧ ls[i]? = some raw ∧ ms[j]? = some raw
  before : (ls.take i).countP Line.isStatement = (ms.take j).countP Line.isStatement

/-- The same fault in both files, with any earlier line being the same statement. -/
inductive SameFault (ls ms : List String) : LineFault → LineFault → Prop where
  | malformed : SameFault ls ms .malformed .malformed
  | missingName (ident : String) : SameFault ls ms (.missingName ident) (.missingName ident)
  | redefined (ident : String) {first first' : Nat} (h : SameStatement ls ms first first') :
    SameFault ls ms (.redefined ident first) (.redefined ident first')

structure SameRejection (ls ms : List String) (r r' : Rejection) : Prop where
  index : SameStatement ls ms r.index r'.index
  fault : SameFault ls ms r.fault r'.fault

theorem count_statesAt (ls : List String) (i : Nat) :
    Nat.count (StatesAt ls) i = (ls.take i).countP Line.isStatement := by
  induction i with
  | zero => simp
  | succ i ih =>
    rw [Nat.count_succ, ih, List.take_add_one, List.countP_append]
    cases hraw : ls[i]? with
    | none => simp [StatesAt, hraw]
    | some raw => simp [StatesAt, hraw, List.countP_singleton]

theorem sameStatement_of_count (h : ls.filter Line.isStatement = ms.filter Line.isStatement)
    (hi : StatesAt ls i) (hj : StatesAt ms j)
    (hcount : Nat.count (StatesAt ls) i = Nat.count (StatesAt ms) j) :
    SameStatement ls ms i j := by
  obtain ⟨raw, hraw, hstatement⟩ := hi
  refine ⟨⟨raw, hstatement, hraw, ?_⟩, by rw [← count_statesAt, ← count_statesAt, hcount]⟩
  rw [← getElem?_keep ms hj, keep_statesAt, ← h, ← hcount, ← keep_statesAt,
    getElem?_keep ls ⟨raw, hraw, hstatement⟩]
  exact hraw

theorem sameRejection_of_renumber_eq (h : ls.filter Line.isStatement = ms.filter Line.isStatement)
    {r r' : Rejection} (hr : r ∈ rejected mode ls) (hr' : r' ∈ rejected mode ms)
    (heq : r.renumber (StatesAt ls) = r'.renumber (StatesAt ms)) : SameRejection ls ms r r' := by
  obtain ⟨hi, hfirst⟩ := statesAt_of_mem_rejected hr
  obtain ⟨hj, hfirst'⟩ := statesAt_of_mem_rejected hr'
  obtain ⟨i, fault⟩ := r
  obtain ⟨j, fault'⟩ := r'
  obtain ⟨hindex, hfault⟩ : Nat.count (StatesAt ls) i = Nat.count (StatesAt ms) j ∧
      fault.renumber (StatesAt ls) = fault'.renumber (StatesAt ms) := by
    simpa [Rejection.renumber] using heq
  refine ⟨sameStatement_of_count h hi hj hindex, ?_⟩
  cases fault <;> cases fault' <;> simp only [LineFault.renumber, reduceCtorEq,
    LineFault.missingName.injEq, LineFault.redefined.injEq] at hfault
  case malformed.malformed => exact .malformed
  case missingName.missingName => exact hfault ▸ .missingName _
  case redefined.redefined =>
    obtain ⟨rfl, hcount⟩ := hfault
    exact .redefined _ (sameStatement_of_count h (hfirst _ _ rfl) (hfirst' _ _ rfl) hcount)

/-- Files with the same statements have the same rejections, one for one. -/
theorem forall₂_rejected (mode : Mode)
    (h : ls.filter Line.isStatement = ms.filter Line.isStatement) :
    List.Forall₂ (SameRejection ls ms) (rejected mode ls) (rejected mode ms) := by
  have hmap : (rejected mode ls).map (Rejection.renumber (StatesAt ls)) =
      (rejected mode ms).map (Rejection.renumber (StatesAt ms)) := by
    rw [← rejected_statements, ← rejected_statements, h]
  have hforall : List.Forall₂ (fun r r' => r.renumber (StatesAt ls) = r'.renumber (StatesAt ms))
      (rejected mode ls) (rejected mode ms) := by
    rwa [← List.forall₂_eq_eq_eq, List.forall₂_map_left_iff, List.forall₂_map_right_iff] at hmap
  obtain ⟨hlength, hzip⟩ := List.forall₂_iff_zip.mp hforall
  refine List.forall₂_iff_zip.mpr ⟨hlength, fun {r r'} hmem => ?_⟩
  obtain ⟨hr, hr'⟩ := List.of_mem_zip hmem
  exact sameRejection_of_renumber_eq h hr hr' (hzip hmem)

end Source

end OpcodeTable
