import OpcodeTable.Proofs.Definition.Modes
import OpcodeTable.Proofs.Output.Columns
import OpcodeTable.Proofs.Output.Listing
import OpcodeTable.Proofs.Output.Table

/-!
# Columns of a listing

The numbers in a row have columns of their own, which grow with their digits, and identifiers are
filled up to the length of the longest one. So the names stand in one column as long as the numbers
have few digits. The control sequences that the listing puts around its parts have no width.
-/

namespace OpcodeTable

namespace Text

/-- A part of a row, as it is or in a style. -/
inductive Span where
  | plain (s : String)
  | inStyle (style : Style) (s : String)

namespace Span

/-- The part with the control sequences of its style. -/
def text : Span → String
  | plain s => s
  | inStyle style s => styled [style] s

/-- The part without control sequences. -/
def visible : Span → String
  | plain s => s
  | inStyle _ s => s

end Span

/-! ## Numbers of digits -/

/-- Two numbers that exceed the same positive bounds are equal as widths of a column. -/
theorem max_eq_max_of_le_iff {width a b : Nat} (hwidth : 0 < width)
    (h : ∀ k, 0 < k → (a ≤ k ↔ b ≤ k)) : max width a = max width b := by
  have hle : a ≤ max width b := (h _ (by omega)).mpr (le_max_right width b)
  have hge : b ≤ max width a := (h _ (by omega)).mp (le_max_right width a)
  omega

theorem length_padLeft_hexUpper {width : Nat} (hwidth : 0 < width) (n : Nat) :
    (padLeft width '0' (hexUpper n)).length = max width (Nat.digits 16 n).length := by
  rw [length_padLeft]
  refine max_eq_max_of_le_iff hwidth fun k hk => ?_
  rw [length_hexUpper_le_iff hk, Nat.digits_length_le_iff (by decide)]

theorem length_padLeft_decimal {width : Nat} (hwidth : 0 < width) (n : Nat) :
    (padLeft width ' ' (decimal n)).length = max width (Nat.digits 10 n).length := by
  rw [length_padLeft]
  refine max_eq_max_of_le_iff hwidth fun k hk => ?_
  rw [length_decimal_le_iff hk, Nat.digits_length_le_iff (by decide)]

end Text

open Text

namespace Listing

variable {r : Record} {inst : Instruction} {m n : Nat}

/-! ## Rows -/

/-- The parts of a row. -/
def spans (m : Nat) (r : Record) : List Span :=
  let numbers := opcodeColumn r.line ++ "| " ++ numberColumn r.index
  match r.line with
  | .blank => [.plain (numbers ++ ":")]
  | .comment text => [.plain (numbers ++ ": "), .inStyle .dim text]
  | .instruction inst =>
    [.plain (numbers ++ ":   "), .inStyle .yellow (padRight m ' ' inst.ident), .plain " ",
      .inStyle .green ("\"" ++ inst.name ++ "\"")]

/-- A row as it is shown. -/
def shownRow (m : Nat) (r : Record) : String :=
  String.join ((spans m r).map Span.visible)

theorem listingRow_eq_join_spans (m : Nat) (r : Record) :
    Definition.listingRow m r = String.join ((spans m r).map Span.text) := by
  obtain ⟨index, line⟩ := r
  rw [listingRow_eq]
  cases line <;> simp [spans, body, Span.text, String.append_assoc]

/-- `NameAt m r inst n` says that in the row of an instruction, as it is shown, the opening quote of
the name stands at column `n`. -/
def NameAt (m : Nat) (r : Record) (inst : Instruction) (n : Nat) : Prop :=
  ∃ front : String, shownRow m r = front ++ ("\"" ++ inst.name ++ "\"") ∧ front.length = n

/-- The width of the two numbers in the row of an instruction: its opcode and its line. -/
def numbersWidth (r : Record) (inst : Instruction) : Nat :=
  max 4 (Nat.digits 16 inst.opcode).length + max 4 (Nat.digits 10 (r.index + 1)).length

theorem length_opcodeColumn (inst : Instruction) :
    (opcodeColumn (.instruction inst)).length = 7 + max 4 (Nat.digits 16 inst.opcode).length := by
  have hopen : "[".length = 1 := rfl
  have hclose : "]     ".length = 6 := rfl
  simp only [opcodeColumn, String.length_append, length_padLeft_hexUpper (by decide : 0 < 4)]
  omega

theorem length_numberColumn (index : Nat) :
    (numberColumn index).length = max 4 (Nat.digits 10 (index + 1)).length :=
  length_padLeft_decimal (by decide) _

/-- In front of the name stand the numbers and the identifier. -/
theorem nameAt_iff (hline : r.line = .instruction inst) (hident : inst.ident.length ≤ m) :
    NameAt m r inst n ↔ n = 14 + numbersWidth r inst + m := by
  have hshown : shownRow m r = opcodeColumn r.line ++ "| " ++ numberColumn r.index ++ ":   " ++
      padRight m ' ' inst.ident ++ " " ++ ("\"" ++ inst.name ++ "\"") := by
    simp [shownRow, spans, hline, Span.visible, String.append_assoc]
  have hlength : (opcodeColumn r.line ++ "| " ++ numberColumn r.index ++ ":   " ++
      padRight m ' ' inst.ident ++ " ").length = 14 + numbersWidth r inst + m := by
    have hbar : "| ".length = 2 := rfl
    have hcolon : ":   ".length = 4 := rfl
    have hspace : " ".length = 1 := rfl
    simp only [hline, String.length_append, length_opcodeColumn, length_numberColumn,
      length_padRight _ hident, numbersWidth]
    omega
  constructor
  · rintro ⟨front, hfront, rfl⟩
    have heq : front = opcodeColumn r.line ++ "| " ++ numberColumn r.index ++ ":   " ++
        padRight m ' ' inst.ident ++ " " := by
      rw [hshown] at hfront
      exact ((String.append_left_inj _).mp hfront).symm
    rw [heq, hlength]
  · rintro rfl
    exact ⟨_, hshown, hlength⟩

theorem standsAt_bar (m : Nat) (h : ∀ inst, r.line = .instruction inst → inst.opcode ≤ 0xFFFF) :
    StandsAt ['|'] 11 (Definition.listingRow m r).toList := by
  have hrow : (Definition.listingRow m r).toList = (opcodeColumn r.line).toList ++
      (['|'] ++ (' ' :: ((numberColumn r.index).toList ++ (body m r.line).toList))) := by
    simp [listingRow_eq]
  have hlength : (opcodeColumn r.line).toList.length = 11 := by
    cases hline : r.line with
    | comment text => simp [opcodeColumn, repeated]
    | blank => simp [opcodeColumn, repeated]
    | instruction inst =>
      have hdigits : (Nat.digits 16 inst.opcode).length ≤ 4 := by
        have := h inst hline
        rw [Nat.digits_length_le_iff (by decide)]
        omega
      have := length_opcodeColumn inst
      rw [String.length_toList]
      omega
  rw [hrow]
  exact standsAt_append (skips_of_head_notMem (bar_notMem_opcodeColumn r.line)) hlength

end Listing

namespace Definition

open Listing

variable {mode : Mode} {text : String} {d : Definition} {r r' : Record} {inst inst' : Instruction}

/-- `ListsInColumns d path out` says where the parts of the rows stand in the listing `out`. -/
structure ListsInColumns (d : Definition) (path out : String) : Prop where
  /-- The rows are put together from their parts, and only the styles of the parts are not shown. -/
  rows : out = String.join (([listingHead path] ++
    (d.records.toList.map fun r => String.join ((spans d.maxlen r).map Span.text)) ++
      [listingFoot]).map (· ++ "\n"))
  bar : ∀ r ∈ d.records.toList, (∀ inst, r.line = .instruction inst → inst.opcode ≤ 0xFFFF) →
    StandsAt ['|'] 11 (String.join ((spans d.maxlen r).map Span.text)).toList
  name : ∀ r ∈ d.records.toList, ∀ inst, r.line = .instruction inst → ∀ n,
    NameAt d.maxlen r inst n ↔ n = 14 + numbersWidth r inst + d.maxlen
  /-- Up to four digits the numbers do not move the names. -/
  aligned : d.records.size ≤ 9999 → ∀ r ∈ d.records.toList, ∀ inst, r.line = .instruction inst →
    NameAt d.maxlen r inst (22 + d.maxlen)
  outOfLine_iff : ∀ r ∈ d.records.toList, ∀ r' ∈ d.records.toList, ∀ inst inst',
    r.line = .instruction inst → r'.line = .instruction inst' → ∀ n n',
      NameAt d.maxlen r inst n → NameAt d.maxlen r' inst' n' →
        (n ≠ n' ↔ numbersWidth r inst ≠ numbersWidth r' inst')

theorem nameAt_iff_of_parse (h : parse mode text = .ok d) (hr : r ∈ d.records.toList)
    (hline : r.line = .instruction inst) {n : Nat} :
    NameAt d.maxlen r inst n ↔ n = 14 + numbersWidth r inst + d.maxlen :=
  nameAt_iff hline (length_ident_le h (mem_instructions hr hline))

theorem WellFormed.index_lt (hw : d.WellFormed) (hr : r ∈ d.records.toList) :
    r.index < d.records.size := by
  have hmem : r.index ∈ d.records.toList.map (·.index) := List.mem_map_of_mem hr
  rwa [hw.index, List.mem_range] at hmem

theorem WellFormed.count_le_size (hw : d.WellFormed) : d.count ≤ d.records.size := by
  rw [← hw.length_instructions, instructions, ← Array.length_toList]
  exact List.length_filterMap_le _ _

theorem numbersWidth_of_size_le (hw : d.WellFormed) (hsize : d.records.size ≤ 9999)
    (hr : r ∈ d.records.toList) (hline : r.line = .instruction inst) :
    numbersWidth r inst = 8 := by
  have hindex := hw.index_lt hr
  have hopcode := hw.opcode_lt (mem_instructions hr hline)
  have hcount := hw.count_le_size
  have hhex : (Nat.digits 16 inst.opcode).length ≤ 4 := by
    rw [Nat.digits_length_le_iff (by decide)]
    omega
  have hdecimal : (Nat.digits 10 (r.index + 1)).length ≤ 4 := by
    rw [Nat.digits_length_le_iff (by decide)]
    omega
  rw [numbersWidth]
  omega

/-- The columns of the listing of a parsed definition. -/
theorem listing_columns (mode : Mode) (text path : String) (d : Definition)
    (hd : parse mode text = .ok d) (hwide : d.maxlen ≤ 65535) :
    ∃ out, d.listing? path = some out ∧ ListsInColumns d path out := by
  have hw := wellFormed_of_parse hd
  obtain ⟨out, hout⟩ : ∃ out, d.listing? path = some out :=
    ⟨_, listing?_eq_some_iff.mpr ⟨.inr hwide, rfl⟩⟩
  obtain ⟨-, htext⟩ := listing?_eq_some_iff.mp hout
  refine ⟨out, hout, ⟨?_, ?_, fun r hr inst hline n => nameAt_iff_of_parse hd hr hline, ?_, ?_⟩⟩
  · rw [htext, listingRows, funext (listingRow_eq_join_spans d.maxlen)]
  · intro r _ hopcode
    rw [← listingRow_eq_join_spans]
    exact standsAt_bar d.maxlen hopcode
  · intro hsize r hr inst hline
    have hwidth := numbersWidth_of_size_le hw hsize hr hline
    rw [nameAt_iff_of_parse hd hr hline]
    omega
  · intro r hr r' hr' inst inst' hline hline' n n' hn hn'
    rw [nameAt_iff_of_parse hd hr hline] at hn
    rw [nameAt_iff_of_parse hd hr' hline'] at hn'
    omega

/-- Identifiers of two lengths, the shorter one with a character outside of ASCII, and the other one
with a quote. -/
theorem listing_columns_nonAscii : ∃ d out, parse .strict "Ä a\n// x\n\"B b" = .ok d ∧
    d.maxlen ≤ 65535 ∧ d.listing? "ins.txt" = some out ∧ ListsInColumns d "ins.txt" out := by
  obtain ⟨d, hd⟩ : ∃ d, parse .strict "Ä a\n// x\n\"B b" = .ok d := exists_parse_iff.mpr (by decide)
  have hwide : d.maxlen ≤ 65535 := by
    rw [maxlen_of_parse hd]
    decide
  obtain ⟨out, hout, hcolumns⟩ := listing_columns _ _ "ins.txt" d hd hwide
  exact ⟨d, out, hd, hwide, hout, hcolumns⟩

end Definition

end OpcodeTable
