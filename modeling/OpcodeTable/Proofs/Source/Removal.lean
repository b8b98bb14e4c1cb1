import OpcodeTable.Proofs.Source.Rejections
import OpcodeTable.Proofs.Text.Removal

/-!
# Files without some of their lines

A line that is not the first one with an identifier can be removed from a file without a trace: all
other lines are accepted or rejected as before, with the same opcodes and faults. Only the indices
change, to the number of lines kept before.
-/

namespace OpcodeTable

/-- The fault when only the lines whose indices satisfy `p` are kept. -/
def LineFault.renumber (p : Nat → Prop) [DecidablePred p] : LineFault → LineFault
  | redefined ident first => redefined ident (Nat.count p first)
  | fault => fault

def Rejection.renumber (p : Nat → Prop) [DecidablePred p] (r : Rejection) : Rejection :=
  ⟨Nat.count p r.index, r.fault.renumber p⟩

def Record.renumber (p : Nat → Prop) [DecidablePred p] (r : Record) : Record :=
  ⟨Nat.count p r.index, r.line⟩

namespace Source

open Text

variable {mode : Mode} {ls : List String} {raw ident : String} {p : Nat → Prop}

/-- The first line with an identifier is always kept. -/
def KeepsDefinitions (mode : Mode) (ls : List String) (p : Nat → Prop) : Prop :=
  ∀ ident i, Defines mode ls ident i → p i

theorem KeepsDefinitions.of_concat (h : KeepsDefinitions mode (ls ++ [raw]) p) :
    KeepsDefinitions mode ls p :=
  fun ident i hi => h ident i (hi.append [raw])

variable [DecidablePred p]

theorem first?_concat : first? mode (ls ++ [raw]) ident =
    (first? mode ls ident).or
      (if Line.ident? mode raw = some ident then some ls.length else none) := by
  simp only [first?, List.findIdx?_append, List.findIdx?_cons, List.findIdx?_nil]
  split <;> simp_all

theorem first?_keep (h : KeepsDefinitions mode ls p) (ident : String) :
    first? mode (keep p ls) ident = (first? mode ls ident).map (Nat.count p) := by
  induction ls using List.reverseRecOn with
  | nil => rfl
  | append_singleton ls raw ih =>
    have ih := ih h.of_concat
    rw [keep_concat]
    by_cases hp : p ls.length
    · rw [if_pos hp, first?_concat, first?_concat, ih, length_keep]
      cases first? mode ls ident with
      | some first => rfl
      | none => by_cases hraw : Line.ident? mode raw = some ident <;> simp [hraw]
    · rw [if_neg hp, List.append_nil, ih, first?_concat]
      cases hf : first? mode ls ident with
      | some first => rfl
      | none =>
        -- A line that is left out is not the first one with its identifier.
        have hraw : Line.ident? mode raw ≠ some ident := fun hraw =>
          hp (h ident ls.length (defines_concat (first?_eq_none_iff.mp hf) hraw))
        simp [hraw]

theorem nextOpcode_keep (h : KeepsDefinitions mode ls p) :
    nextOpcode mode (keep p ls) = nextOpcode mode ls := by
  rw [nextOpcode, nextOpcode]
  congr 1
  ext ident
  rw [List.mem_toFinset, List.mem_toFinset, ← not_iff_not, ← first?_eq_none_iff,
    ← first?_eq_none_iff, first?_keep h]
  simp

theorem verdict_keep (h : KeepsDefinitions mode ls p) (raw : String) :
    verdict mode (keep p ls) raw = (verdict mode ls raw).mapError (LineFault.renumber p) := by
  rw [verdict, verdict, nextOpcode_keep h]
  cases hc : Line.classify mode (nextOpcode mode ls) raw with
  | error fault =>
    cases fault with
    | malformed => rfl
    | missingName ident => rfl
    | redefined ident first => exact absurd hc Line.classify_ne_redefined
  | ok line =>
    cases line with
    | comment text => rfl
    | blank => rfl
    | instruction inst =>
      dsimp only
      rw [first?_keep h]
      cases first? mode ls inst.ident <;> rfl

theorem verdicts_keep (h : KeepsDefinitions mode ls p) :
    verdicts mode (keep p ls) = ((verdicts mode ls).filter (p ·.1)).map fun v =>
      (Nat.count p v.1, v.2.mapError (LineFault.renumber p)) := by
  induction ls using List.reverseRecOn with
  | nil => rfl
  | append_singleton ls raw ih =>
    have ih := ih h.of_concat
    rw [keep_concat, verdicts_concat, List.filter_append, List.map_append, ← ih]
    by_cases hp : p ls.length
    · rw [if_pos hp, verdicts_concat, verdict_keep h.of_concat, length_keep]
      simp [hp]
    · simp [hp]

/-- Lines that are kept are accepted as before. -/
theorem accepted_keep (h : KeepsDefinitions mode ls p) :
    accepted mode (keep p ls) =
      ((accepted mode ls).filter (p ·.index)).map (Record.renumber p) := by
  rw [accepted, verdicts_keep h, List.filterMap_map, List.filterMap_filter, accepted,
    List.filter_filterMap, List.map_filterMap]
  refine List.filterMap_congr fun v _ => ?_
  obtain ⟨i, fault | line⟩ := v <;> by_cases hp : p i <;>
    simp [hp, Except.mapError, Record.renumber]

/-- Lines that are kept are rejected as before. -/
theorem rejected_keep (h : KeepsDefinitions mode ls p) :
    rejected mode (keep p ls) =
      ((rejected mode ls).filter (p ·.index)).map (Rejection.renumber p) := by
  rw [rejected, verdicts_keep h, List.filterMap_map, List.filterMap_filter, rejected,
    List.filter_filterMap, List.map_filterMap]
  refine List.filterMap_congr fun v _ => ?_
  obtain ⟨i, fault | line⟩ := v <;> by_cases hp : p i <;>
    simp [hp, Except.mapError, Rejection.renumber]

end Source

end OpcodeTable
