import OpcodeTable.Proofs.Source

/-!
# Reading a file line by line

`Describes mode ls p` says that the state `p` holds what the lines `ls` amount to. Every state that
reading reaches is described by the lines read so far, also after rejected lines: the next opcode
is always free, and the line that defines an identifier is found through its opcode.
-/

namespace OpcodeTable.Definition

open Source

namespace Progress

/-- The state after reading some lines. -/
def after (mode : Mode) (ls : List String) : Progress :=
  ls.zipIdx.foldl (step mode) start

theorem after_concat (mode : Mode) (ls : List String) (raw : String) :
    after mode (ls ++ [raw]) = step mode (after mode ls) (raw, ls.length) := by
  simp [after, List.zipIdx_append]

/-- The state holds exactly what the lines amount to. -/
structure Describes (mode : Mode) (ls : List String) (p : Progress) : Prop where
  records : p.definition.records.toList = accepted mode ls
  rejections : p.rejections.toList = rejected mode ls
  maxlen : p.definition.maxlen = (idents mode ls).toFinset.sup String.length
  count : p.definition.count = nextOpcode mode ls
  opcode?_eq_some_iff : ∀ ident k, p.definition.opcode? ident = some k ↔
    ∃ inst ∈ Source.instructions mode ls, inst.ident = ident ∧ inst.opcode = k

namespace Describes

variable {mode : Mode} {ls : List String} {p : Progress}

theorem instructions (h : Describes mode ls p) :
    p.definition.instructions = Source.instructions mode ls := by
  rw [Definition.instructions, h.records, Source.instructions]

/-- The opcode of an identifier is that of an accepted line. -/
theorem exists_record (h : Describes mode ls p) {ident : String} {k : Nat}
    (hk : p.definition.opcode? ident = some k) :
    ∃ r ∈ accepted mode ls, ∃ name, r.line = .instruction ⟨ident, name, k⟩ := by
  obtain ⟨inst, hinst, rfl, rfl⟩ := (h.opcode?_eq_some_iff _ _).mp hk
  obtain ⟨r, hr, hl⟩ := List.mem_filterMap.mp hinst
  exact ⟨r, hr, inst.name, Line.instruction?_eq_some_iff.mp hl⟩

theorem opcode?_eq_none_iff (h : Describes mode ls p) {ident : String} :
    p.definition.opcode? ident = none ↔ ident ∉ idents mode ls := by
  rw [← (numbered mode ls).mem_iff, Option.eq_none_iff_forall_ne_some]
  constructor
  · intro hne hmem
    obtain ⟨inst, hi, rfl⟩ := List.mem_map.mp hmem
    exact hne _ ((h.opcode?_eq_some_iff _ _).mpr ⟨inst, hi, rfl, rfl⟩)
  · intro hmem k hk
    obtain ⟨inst, hi, rfl, -⟩ := (h.opcode?_eq_some_iff _ _).mp hk
    exact hmem (List.mem_map_of_mem hi)

/-- No identifier has the next opcode yet. -/
theorem ident?_nextOpcode (h : Describes mode ls p) :
    p.definition.ident? (nextOpcode mode ls) = none := by
  rw [Option.eq_none_iff_forall_ne_some]
  intro ident hident
  obtain ⟨inst, hi, -, hk⟩ :=
    (h.opcode?_eq_some_iff _ _).mp (OpcodeMap.opcode?_eq_some_iff.mpr hident)
  have hmem : inst.opcode ∈ List.range (nextOpcode mode ls) :=
    (numbered mode ls).opcodes ▸ List.mem_map_of_mem hi
  rw [hk] at hmem
  simp at hmem

/-- With the next opcode only the identifier decides whether a pair is new. -/
theorem fresh_iff (h : Describes mode ls p) {ident : String} :
    p.definition.map.Fresh ident (nextOpcode mode ls) ↔ ident ∉ idents mode ls := by
  rw [← h.opcode?_eq_none_iff]
  exact and_iff_left h.ident?_nextOpcode

/-- The line with an opcode is the first line with the identifier of that opcode. -/
theorem lineOf?_opcode (h : Describes mode ls p) {r : Record} {inst : Instruction}
    (hr : r ∈ accepted mode ls) (hl : r.line = .instruction inst) :
    p.definition.lineOf? inst.opcode = some r.index := by
  have mem_instructions {r : Record} {inst : Instruction} (hr : r ∈ accepted mode ls)
      (hl : r.line = .instruction inst) : inst ∈ Source.instructions mode ls :=
    List.mem_filterMap.mpr ⟨r, hr, by simp [hl]⟩
  rw [lineOf?, ← Array.find?_toList, h.records]
  cases hf : (accepted mode ls).find?
      fun r => r.line.instruction?.map (·.opcode) == some inst.opcode with
  | none => simpa [hl] using List.find?_eq_none.mp hf r hr
  | some r' =>
    have hr' := List.mem_of_find?_eq_some hf
    have hop : r'.line.instruction?.map (·.opcode) = some inst.opcode := by
      simpa using List.find?_some hf
    obtain ⟨inst', hl', hop⟩ := Option.map_eq_some_iff.mp hop
    rw [Line.instruction?_eq_some_iff] at hl'
    have hnodup : ((Source.instructions mode ls).map (·.opcode)).Nodup :=
      (numbered mode ls).opcodes ▸ List.nodup_range
    obtain rfl : inst' = inst := List.inj_on_of_nodup_map hnodup
      (mem_instructions hr' hl') (mem_instructions hr hl) hop
    simpa using (defines_of_mem_accepted hr' hl').unique (defines_of_mem_accepted hr hl)

/-- The line that defines an identifier is found through its opcode. -/
theorem bind_lineOf? (h : Describes mode ls p) (ident : String) :
    (p.definition.opcode? ident).bind p.definition.lineOf? = first? mode ls ident := by
  cases hf : first? mode ls ident with
  | none => rw [h.opcode?_eq_none_iff.mpr (first?_eq_none_iff.mp hf), Option.bind_none]
  | some i =>
    have hd := first?_eq_some_iff.mp hf
    have htaken : p.definition.opcode? ident ≠ none := fun hnone =>
      h.opcode?_eq_none_iff.mp hnone (mem_idents_iff.mpr ⟨i, hd.1⟩)
    obtain ⟨k, hk⟩ := Option.ne_none_iff_exists'.mp htaken
    obtain ⟨r, hr, name, hl⟩ := h.exists_record hk
    rw [hk, Option.bind_some, h.lineOf?_opcode hr hl, (defines_of_mem_accepted hr hl).unique hd]

/-- A new instruction with the next opcode is accepted. -/
theorem push_new (h : Describes mode ls p) {inst : Instruction} (index : Nat)
    (hk : inst.opcode = nextOpcode mode ls) (hnew : inst.ident ∉ idents mode ls) :
    ∃ hf, p.definition.push index (.instruction inst) = .ok
      { records := p.definition.records.push ⟨index, .instruction inst⟩
        maxlen := max p.definition.maxlen inst.ident.length
        map := p.definition.map.insert inst.ident inst.opcode hf } := by
  have hf : p.definition.map.Fresh inst.ident inst.opcode := hk ▸ h.fresh_iff.mpr hnew
  exact ⟨hf, by simp [push, hf]⟩

/-- An instruction whose identifier is taken is refused, with the line that took it. -/
theorem push_taken (h : Describes mode ls p) {inst : Instruction} {first : Nat} (index : Nat)
    (hk : inst.opcode = nextOpcode mode ls) (hd : Defines mode ls inst.ident first) :
    p.definition.push index (.instruction inst) = .error (.redefined inst.ident first) := by
  have hf : ¬p.definition.map.Fresh inst.ident inst.opcode := by
    rw [hk, h.fresh_iff, not_not]
    exact mem_idents_iff.mpr ⟨first, hd.1⟩
  simp [push, hf, h.bind_lineOf?, first?_eq_some_iff.mpr hd]

/-- A rejected line leaves the definition as it is. -/
theorem reject (h : Describes mode ls p) {raw : String} {fault : LineFault}
    (hv : verdict mode ls raw = .error fault) :
    Describes mode (ls ++ [raw]) (p.reject ls.length fault) where
  records := by rw [accepted_concat_error hv]; exact h.records
  rejections := by simp [Progress.reject, h.rejections, rejected_concat_error hv]
  maxlen := by rw [toFinset_idents_concat_error hv]; exact h.maxlen
  count := by rw [nextOpcode, toFinset_idents_concat_error hv]; exact h.count
  opcode?_eq_some_iff := by
    rw [Source.instructions, accepted_concat_error hv]
    exact h.opcode?_eq_some_iff

/-- A line without an instruction only adds a record. -/
theorem push_plain (h : Describes mode ls p) {raw : String} {line : Line}
    (hv : verdict mode ls raw = .ok line) (hid : Line.ident? mode raw = none)
    (hl : line.instruction? = none) :
    ∃ d, p.definition.push ls.length line = .ok d ∧
      Describes mode (ls ++ [raw]) { p with definition := d } := by
  have hids : idents mode (ls ++ [raw]) = idents mode ls := by simp [hid]
  have hi : Source.instructions mode (ls ++ [raw]) = Source.instructions mode ls := by
    simp [Source.instructions, accepted_concat_ok hv, hl]
  refine ⟨{ p.definition with records := p.definition.records.push ⟨ls.length, line⟩ }, ?_, ?_⟩
  · cases line with
    | instruction inst => simp at hl
    | comment text => rfl
    | blank => rfl
  · refine ⟨?_, ?_, ?_, ?_, ?_⟩
    · simp [h.records, accepted_concat_ok hv]
    · rw [rejected_concat_ok hv]; exact h.rejections
    · rw [hids]; exact h.maxlen
    · rw [nextOpcode, hids]; exact h.count
    · rw [hi]; exact h.opcode?_eq_some_iff

/-- A new instruction adds a record and its pair of identifier and opcode. -/
theorem push_instruction (h : Describes mode ls p) {raw : String} {inst : Instruction}
    (hv : verdict mode ls raw = .ok (.instruction inst))
    (hid : Line.ident? mode raw = some inst.ident) (hk : inst.opcode = nextOpcode mode ls)
    (hnew : inst.ident ∉ idents mode ls) :
    ∃ d, p.definition.push ls.length (.instruction inst) = .ok d ∧
      Describes mode (ls ++ [raw]) { p with definition := d } := by
  obtain ⟨hf, hpush⟩ := h.push_new ls.length hk hnew
  have hi : Source.instructions mode (ls ++ [raw]) = Source.instructions mode ls ++ [inst] := by
    simp [Source.instructions, accepted_concat_ok hv]
  refine ⟨_, hpush, ?_, ?_, ?_, ?_, ?_⟩
  · simp [h.records, accepted_concat_ok hv]
  · rw [rejected_concat_ok hv]; exact h.rejections
  · simp [h.maxlen, hid, List.toFinset_append, max_comm]
  · rw [nextOpcode_concat hnew hid, ← h.count]
    exact OpcodeMap.size_insert _ hf
  · intro ident k
    have hold := h.opcode?_eq_some_iff ident k
    have hnone := h.opcode?_eq_none_iff.mpr hnew
    simp only [Definition.opcode?] at hold hnone ⊢
    rw [OpcodeMap.opcode?_insert, hi]
    split
    · next heq =>
      subst heq
      rw [hnone] at hold
      simp_all
    · grind

/-- Reading one more line keeps the state described by the lines read. -/
theorem step (h : Describes mode ls p) (raw : String) :
    Describes mode (ls ++ [raw]) (p.step mode (raw, ls.length)) := by
  rcases verdict_cases mode ls raw with ⟨fault, hc, hv⟩ | ⟨line, hc, hline, hv⟩ |
    ⟨inst, hc, hk, hid, ⟨first, hd, hv⟩ | ⟨hnew, hv⟩⟩
  · simpa [Progress.step, hc] using h.reject hv
  · have hid : Line.ident? mode raw = none := by simp [Line.ident?_of_ok (hc 0), hline]
    obtain ⟨d, hpush, hd⟩ := h.push_plain hv hid hline
    simpa [Progress.step, hc, hpush] using hd
  · simpa [Progress.step, h.count, hc, h.push_taken ls.length hk hd] using h.reject hv
  · obtain ⟨d, hpush, hd⟩ := h.push_instruction hv hid hk hnew
    simpa [Progress.step, h.count, hc, hpush] using hd

end Describes

/-- Reading keeps nothing but what the lines amount to, whatever was rejected on the way. -/
theorem describes_after (mode : Mode) (ls : List String) : Describes mode ls (after mode ls) := by
  induction ls using List.reverseRecOn with
  | nil => exact ⟨rfl, rfl, rfl, OpcodeMap.size_empty, by simp [after, start, Definition.opcode?,
      Definition.empty, Source.instructions, accepted, verdicts]⟩
  | append_singleton ls raw ih =>
    rw [after_concat]
    exact ih.step raw

end Progress

end OpcodeTable.Definition
