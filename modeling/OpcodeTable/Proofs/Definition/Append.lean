import OpcodeTable.Proofs.Definition.Parse
import OpcodeTable.Proofs.Source.Append

/-!
# Definitions of texts that continue each other

A text behind the end of a line of another one adds to its definition: the records follow those that
are there, and the opcodes go on where they stopped. So adding instructions never renumbers any.
-/

namespace OpcodeTable.Definition

open Source

/-- `Continues n a b d` says that the definition `d` is `a` and behind it `b`, `n` lines and all
opcodes of `a` later. -/
structure Continues (n : Nat) (a b d : Definition) : Prop where
  records : d.records.toList = a.records.toList ++ b.records.toList.map (Record.shift n a.count)
  count : d.count = a.count + b.count
  maxlen : d.maxlen = max a.maxlen b.maxlen
  /-- The identifiers of the first part keep their opcodes. -/
  opcode? : ∀ ident, d.opcode? ident = (a.opcode? ident).or ((b.opcode? ident).map (a.count + ·))

variable {mode : Mode} {first second : String} {a b d : Definition}

/-- A record is known from its index and its line. -/
theorem injective_record_ok :
    Function.Injective fun r : Record => (r.index, (Except.ok r.line : Except LineFault Line)) := by
  rintro ⟨i, line⟩ ⟨i', line'⟩ h
  simpa using h

theorem records_append (h : first = "" ∨ ['\n'] <:+ first.toList)
    (hd : parse mode (first ++ second) = .ok d) (ha : parse mode first = .ok a)
    (hb : parse mode second = .ok b) :
    d.records.toList = a.records.toList ++
      b.records.toList.map (Record.shift (Text.lines first).length a.count) := by
  refine (List.map_injective_iff.mpr injective_record_ok) ?_
  rw [records_of_parse hd, Text.lines_append h, classified_append, List.map_append,
    records_of_parse ha, ← records_of_parse hb, count_of_parse ha, List.map_map, List.map_map]
  rfl

theorem instructions_append
    (hrecords : d.records.toList = a.records.toList ++
      b.records.toList.map (Record.shift (Text.lines first).length a.count)) :
    d.instructions = a.instructions ++
      b.instructions.map fun inst => { inst with opcode := a.count + inst.opcode } := by
  rw [instructions, hrecords, List.filterMap_append, List.filterMap_map, instructions, instructions,
    List.map_filterMap]
  congr 1
  exact List.filterMap_congr fun r _ => Line.instruction?_shift _ r.line

/-- Two texts are one definition when each of them is and they share no identifier. -/
theorem exists_parse_append_iff (h : first = "" ∨ ['\n'] <:+ first.toList) :
    (∃ d, parse mode (first ++ second) = .ok d) ↔
      ∃ a b, parse mode first = .ok a ∧ parse mode second = .ok b ∧
        ∀ ident, a.opcode? ident = none ∨ b.opcode? ident = none := by
  rw [exists_parse_iff, Text.lines_append h, rejected_append_eq_nil_iff, ← exists_parse_iff,
    ← exists_parse_iff]
  constructor
  · rintro ⟨⟨a, ha⟩, ⟨b, hb⟩, hdisjoint⟩
    refine ⟨a, b, ha, hb, fun ident => ?_⟩
    rw [opcode?_eq_none_of_parse ha, opcode?_eq_none_of_parse hb, ← not_and_or]
    exact fun hmem => hdisjoint hmem.1 hmem.2
  · rintro ⟨a, b, ha, hb, hdisjoint⟩
    refine ⟨⟨a, ha⟩, ⟨b, hb⟩, fun ident hmem hmem' => ?_⟩
    rcases hdisjoint ident with hnone | hnone
    · exact (opcode?_eq_none_of_parse ha).mp hnone hmem
    · exact (opcode?_eq_none_of_parse hb).mp hnone hmem'

theorem opcode?_append (h : first = "" ∨ ['\n'] <:+ first.toList)
    (hd : parse mode (first ++ second) = .ok d) (ha : parse mode first = .ok a)
    (hb : parse mode second = .ok b) (ident : String) :
    d.opcode? ident = (a.opcode? ident).or ((b.opcode? ident).map (a.count + ·)) := by
  obtain ⟨a', b', ha', hb', hdisjoint⟩ := (exists_parse_append_iff h).mp ⟨d, hd⟩
  obtain rfl : a = a' := Except.ok.inj (ha.symm.trans ha')
  obtain rfl : b = b' := Except.ok.inj (hb.symm.trans hb')
  ext k
  rw [opcode?_of_parse hd, instructions_append (records_append h hd ha hb), Option.or_eq_some_iff,
    opcode?_of_parse ha, Option.map_eq_some_iff]
  constructor
  · rintro ⟨inst, hmem, rfl, rfl⟩
    rcases List.mem_append.mp hmem with hmem | hmem
    · exact .inl ⟨inst, hmem, rfl, rfl⟩
    · obtain ⟨inst, hi, rfl⟩ := List.mem_map.mp hmem
      have hopcode : b.opcode? inst.ident = some inst.opcode :=
        (opcode?_of_parse hb).mpr ⟨inst, hi, rfl, rfl⟩
      have hnone := (hdisjoint inst.ident).resolve_right (by simp [hopcode])
      exact .inr ⟨hnone, inst.opcode, hopcode, rfl⟩
  · rintro (⟨inst, hi, rfl, rfl⟩ | ⟨-, j, hj, rfl⟩)
    · exact ⟨inst, List.mem_append_left _ hi, rfl, rfl⟩
    · obtain ⟨inst, hi, rfl, rfl⟩ := (opcode?_of_parse hb).mp hj
      exact ⟨_, List.mem_append_right _ (List.mem_map_of_mem hi), rfl, rfl⟩

theorem continues_of_parse (h : first = "" ∨ ['\n'] <:+ first.toList)
    (hd : parse mode (first ++ second) = .ok d) (ha : parse mode first = .ok a)
    (hb : parse mode second = .ok b) : Continues (Text.lines first).length a b d := by
  have hidents := Text.lines_append h second ▸ idents_append mode _ (Text.lines second)
  refine ⟨records_append h hd ha hb, ?_, ?_, opcode?_append h hd ha hb⟩
  · rw [count_of_parse hd, count_of_parse ha, count_of_parse hb, hidents, List.length_append]
  · rw [maxlen_of_parse hd, maxlen_of_parse ha, maxlen_of_parse hb, hidents, List.toFinset_append,
      Finset.sup_union]

/-- Parsing a text behind the end of a line of another one succeeds exactly when both texts can be
parsed and share no identifier. The definition is then that of the first text continued by that of
the second. In any case, what is reported about the lines of the first text is what is reported
about it alone. -/
theorem parse_append (mode : Mode) (first second : String)
    (h : first = "" ∨ ['\n'] <:+ first.toList) :
    ((∃ d, parse mode (first ++ second) = .ok d) ↔
      ∃ a b, parse mode first = .ok a ∧ parse mode second = .ok b ∧
        ∀ ident, a.opcode? ident = none ∨ b.opcode? ident = none) ∧
    (∀ d a b, parse mode (first ++ second) = .ok d → parse mode first = .ok a →
      parse mode second = .ok b → Continues (Text.lines first).length a b d) ∧
    (reports mode (first ++ second)).filter (·.index < (Text.lines first).length) =
      reports mode first := by
  refine ⟨exists_parse_append_iff h, fun d a b hd ha hb => continues_of_parse h hd ha hb, ?_⟩
  rw [reports_eq, reports_eq, Text.lines_append h, filter_rejected_append]

/-- An instruction behind a text with a comment is numbered on, and a repeated one is an error of
the second text only. -/
theorem parse_append_comment : ∃ d a b,
    parse .strict ("A a\n//\n" ++ "B b") = .ok d ∧ parse .strict "A a\n//\n" = .ok a ∧
      parse .strict "B b" = .ok b ∧ Continues 2 a b d ∧
      (reports .strict ("A a\n//\n" ++ "\nA b")).filter (·.index < 2) = [] := by
  have happend (second : String) :=
    parse_append .strict "A a\n//\n" second (.inr ⟨"A a\n//".toList, by decide⟩)
  obtain ⟨d, hd⟩ : ∃ d, parse .strict ("A a\n//\n" ++ "B b") = .ok d :=
    exists_parse_iff.mpr (by decide)
  obtain ⟨a, b, ha, hb, -⟩ := (happend "B b").1.mp ⟨d, hd⟩
  refine ⟨d, a, b, hd, ha, hb, (happend "B b").2.1 d a b hd ha hb, ?_⟩
  have hreports := (happend "\nA b").2.2
  rwa [reports_eq .strict "A a\n//\n", exists_parse_iff.mp ⟨a, ha⟩] at hreports

end OpcodeTable.Definition
