import OpcodeTable.Output.Listing
import OpcodeTable.Proofs.Output.Readback
import OpcodeTable.Proofs.Text.Numeral

/-!
# Reading a listing

`Listing.read?` finds in a listing exactly the records of its definition. Nothing in a row is
escaped, but identifiers and names hold no space, so a row is taken apart from both of its ends,
whatever quotes and control sequences stand in it.
-/

namespace OpcodeTable

open Text

namespace Listing

/-! ## The parts of a row -/

/-- What stands in front of the bar. -/
def opcodeColumn : Line → String
  | .comment _ | .blank => repeated 11 ' '
  | .instruction inst => "[" ++ padLeft 4 '0' (hexUpper inst.opcode) ++ "]     "

/-- The column of the line number, which counts from one. -/
def numberColumn (index : Nat) : String :=
  padLeft 4 ' ' (decimal (index + 1))

/-- What stands behind the line number. -/
def body (maxlen : Nat) : Line → String
  | .blank => ":"
  | .comment text => ": " ++ styled [.dim] text
  | .instruction inst =>
    ":   " ++ styled [.yellow] (padRight maxlen ' ' inst.ident) ++ " " ++
      styled [.green] ("\"" ++ inst.name ++ "\"")

theorem listingRow_eq (maxlen : Nat) (r : Record) :
    Definition.listingRow maxlen r =
      opcodeColumn r.line ++ "| " ++ numberColumn r.index ++ body maxlen r.line := by
  obtain ⟨index, line⟩ := r
  cases line <;>
    simp [Definition.listingRow, opcodeColumn, numberColumn, body, Definition.emptyColumn,
      String.append_assoc]

theorem exists_toList_body (maxlen : Nat) (line : Line) :
    ∃ rest, (body maxlen line).toList = ':' :: rest := by
  cases line <;> simp [body]

theorem mem_opcodeColumn {c : Char} {line : Line} (h : c ∈ (opcodeColumn line).toList) :
    c ∈ [' ', '[', ']'] ∨ c ∈ hexDigits := by
  have hempty : c ∈ (repeated 11 ' ').toList → c = ' ' := by simp [repeated]
  cases line with
  | comment text => exact .inl (by simp [hempty h])
  | blank => exact .inl (by simp [hempty h])
  | instruction inst =>
    unfold opcodeColumn at h
    simp only [String.toList_append, List.mem_append] at h
    rcases h with (hopen | hdigit) | hclose
    · obtain rfl : c = '[' := by simpa using hopen
      exact .inl (by simp)
    · exact .inr (mem_padLeft_hexUpper hdigit)
    · left
      have hclose : c = ']' ∨ c = ' ' := by simpa using hclose
      rcases hclose with rfl | rfl <;> simp

theorem bar_notMem_opcodeColumn (line : Line) : '|' ∉ (opcodeColumn line).toList :=
  fun hmem => absurd (mem_opcodeColumn hmem) (by decide)

/-! ## Reading a row -/

/-- Read the opcode in front of the bar. -/
def opcode? (column : List Char) : Option Nat := do
  let cs ← column.dropPrefix? ['[']
  return numberOf hexDigits (cs.takeWhile (· ≠ ']'))

/-- Read the identifier and the name of an instruction. -/
def fields? (cs : List Char) : Option (List Char × List Char) := do
  let cs ← cs.dropPrefix? ":   \x1b[33m".toList
  let cs ← cs.dropSuffix? "\"\x1b[39m".toList
  -- The last space is the one in front of the name.
  let name ← (cs.rtakeWhile (· ≠ ' ')).dropPrefix? "\x1b[32m\"".toList
  let cs ← (cs.rdropWhile (· ≠ ' ')).dropSuffix? "\x1b[39m ".toList
  return (cs.rdropWhile (· = ' '), name)

/-- Read the text of a comment. -/
def comment? (cs : List Char) : Option (List Char) := do
  let cs ← cs.dropPrefix? ": \x1b[2m".toList
  cs.dropSuffix? "\x1b[22m".toList

/-- Read a line from what stands in front of the bar and what stands behind the line number. -/
def line? (column cs : List Char) : Option Line :=
  match opcode? column with
  | some opcode =>
    (fields? cs).map fun f => .instruction ⟨String.ofList f.1, String.ofList f.2, opcode⟩
  | none => if cs = [':'] then some .blank else (comment? cs).map (.comment <| String.ofList ·)

/-- Read a row. -/
def row? (row : List Char) : Option Record := do
  let column := row.takeWhile (· ≠ '|')
  let cs ← (row.dropWhile (· ≠ '|')).dropPrefix? "| ".toList
  let cs := cs.dropWhile (· = ' ')
  let line ← line? column (cs.dropWhile Char.isDigit)
  return ⟨numberOf decimalDigits (cs.takeWhile Char.isDigit) - 1, line⟩

/-- Read the listing of the file with the given path. -/
def read? (path listing : String) : Option (List Record) := do
  let cs ← listing.toList.dropPrefix? (Definition.listingHead path ++ "\n").toList
  let cs ← cs.dropSuffix? (Definition.listingFoot ++ "\n").toList
  (← rows? cs).mapM row?

/-- Without an instruction there is no opcode. -/
theorem opcode?_emptyColumn : opcode? (repeated 11 ' ').toList = none := by
  decide

theorem opcode?_opcodeColumn (inst : Instruction) :
    opcode? (opcodeColumn (.instruction inst)).toList = some inst.opcode := by
  have hcolumn : (opcodeColumn (.instruction inst)).toList =
      ['['] ++ ((padLeft 4 '0' (hexUpper inst.opcode)).toList ++ ']' :: "     ".toList) := by
    simp [opcodeColumn]
  have hbracket : ']' ∉ (padLeft 4 '0' (hexUpper inst.opcode)).toList :=
    fun hmem => absurd (mem_padLeft_hexUpper hmem) (by decide)
  rw [opcode?, hcolumn, dropPrefix?_append]
  simp only [Option.bind_eq_bind, Option.bind_some, Option.pure_def, Option.some.injEq]
  rw [(takeWhile_append_cons hbracket _).1, numberOf_padLeft_hexUpper]

theorem fields?_body (maxlen : Nat) {inst : Instruction} (hident : IsField inst.ident)
    (hname : IsField inst.name) :
    fields? (body maxlen (.instruction inst)).toList =
      some (inst.ident.toList, inst.name.toList) := by
  have hbody : (body maxlen (.instruction inst)).toList =
      ":   \x1b[33m".toList ++ ((inst.ident.toList ++
        List.replicate (maxlen - inst.ident.length) ' ' ++ "\x1b[39m ".toList ++
          ("\x1b[32m\"".toList ++ inst.name.toList)) ++ "\"\x1b[39m".toList) := by
    simp [body, styled, controlSequence, Style.onCode, Style.offCode, toList_padRight]
  have hquoted : ∀ c ∈ "\x1b[32m\"".toList ++ inst.name.toList, decide (c ≠ ' ') = true := by
    have hstyle : ∀ c ∈ "\x1b[32m\"".toList, decide (c ≠ ' ') = true := by simp
    intro c hc
    rcases List.mem_append.mp hc with hmem | hmem
    · exact hstyle c hmem
    · have hne : c ≠ ' ' := fun heq => hname.space_notMem (heq ▸ hmem)
      simpa using hne
  have hspace : ∀ c, (inst.ident.toList ++ List.replicate (maxlen - inst.ident.length) ' ' ++
      "\x1b[39m ".toList).getLast? = some c → decide (c ≠ ' ') = false := by
    intro c hc
    obtain rfl : ' ' = c := by simpa using hc
    decide
  rw [hbody, fields?, dropPrefix?_append]
  simp only [Option.bind_eq_bind, Option.bind_some, dropSuffix?_append,
    rtakeWhile_append hquoted hspace, rdropWhile_append hquoted hspace, dropPrefix?_append,
    Reader.rdropWhile_padding hident, Option.pure_def]

theorem line?_body (maxlen : Nat) {line : Line} (h : line.WellFormed) :
    line? (opcodeColumn line).toList (body maxlen line).toList = some line := by
  cases line with
  | comment text =>
    have hbody : (body maxlen (.comment text)).toList =
        ": \x1b[2m".toList ++ (text.toList ++ "\x1b[22m".toList) := by
      simp [body, styled, controlSequence, Style.onCode, Style.offCode]
    rw [line?, opcodeColumn, opcode?_emptyColumn, if_neg (by simp [hbody]), comment?, hbody,
      dropPrefix?_append]
    simp only [Option.bind_eq_bind, Option.bind_some, dropSuffix?_append, Option.map_some,
      String.ofList_toList]
  | blank =>
    rw [line?, opcodeColumn, opcode?_emptyColumn, if_pos (by simp [body])]
  | instruction inst =>
    obtain ⟨hident, hname⟩ := h
    rw [line?, opcode?_opcodeColumn, fields?_body maxlen hident hname]
    simp

theorem dropWhile_space_decimal (n k : Nat) (rest : List Char) :
    (List.replicate k ' ' ++ ((decimal n).toList ++ ':' :: rest)).dropWhile (· = ' ') =
      (decimal n).toList ++ ':' :: rest := by
  obtain ⟨c, cs, hdigits⟩ := List.exists_cons_of_ne_nil (numeral_decimal n).ne_nil
  have hmem : c ∈ (decimal n).toList := by simp [hdigits]
  have hne : c ≠ ' ' := by
    rintro rfl
    exact absurd (isDigit_of_mem_decimal hmem) (by decide)
  rw [List.dropWhile_append_of_pos (by simp)]
  simp [hdigits, hne]

/-- The digits of a line number end at the colon behind it. -/
theorem takeWhile_decimal (n : Nat) (rest : List Char) :
    ((decimal n).toList ++ ':' :: rest).takeWhile Char.isDigit = (decimal n).toList ∧
      ((decimal n).toList ++ ':' :: rest).dropWhile Char.isDigit = ':' :: rest := by
  have hdigit : ∀ c ∈ (decimal n).toList, c.isDigit = true := fun c => isDigit_of_mem_decimal
  have hcolon : Char.isDigit ':' = false := by decide
  rw [List.takeWhile_append_of_pos hdigit, List.dropWhile_append_of_pos hdigit]
  simp [hcolon]

theorem row?_listingRow (maxlen : Nat) {r : Record} (h : r.line.WellFormed) :
    row? (Definition.listingRow maxlen r).toList = some r := by
  obtain ⟨rest, hrest⟩ := exists_toList_body maxlen r.line
  have hrow : (Definition.listingRow maxlen r).toList =
      (opcodeColumn r.line).toList ++ '|' :: (" ".toList ++
        (List.replicate (4 - (decimal (r.index + 1)).length) ' ' ++
          ((decimal (r.index + 1)).toList ++ ':' :: rest))) := by
    simp [listingRow_eq, numberColumn, toList_padLeft, hrest]
  have hbar (cs : List Char) : ('|' :: (" ".toList ++ cs)).dropPrefix? "| ".toList = some cs :=
    dropPrefix?_append "| ".toList cs
  have hline := line?_body maxlen h
  rw [hrest] at hline
  rw [hrow, row?, (takeWhile_append_cons (bar_notMem_opcodeColumn r.line) _).1,
    (takeWhile_append_cons (bar_notMem_opcodeColumn r.line) _).2, hbar]
  simp only [Option.bind_eq_bind, Option.bind_some, dropWhile_space_decimal,
    (takeWhile_decimal _ _).1, (takeWhile_decimal _ _).2, hline, (numeral_decimal _).value,
    Option.pure_def, Nat.add_sub_cancel]

/-! ## Reading a listing -/

/-- `Shows r row` says that a row shows the number of a line, and the opcode of an instruction. Line
numbers count from one, and opcodes have capital letters. -/
structure Shows (r : Record) (row : String) : Prop where
  number : ∃ front digits rest : String,
    row = front ++ "| " ++ padLeft 4 ' ' digits ++ ":" ++ rest ∧ '|' ∉ front.toList ∧
      Numeral decimalDigits digits.toList (r.index + 1)
  opcode : ∀ inst, r.line = .instruction inst → ∃ digits rest : String,
    row = "[" ++ padLeft 4 '0' digits ++ "]" ++ rest ∧ Numeral hexDigits digits.toList inst.opcode

theorem shows_listingRow (maxlen : Nat) (r : Record) :
    Shows r (Definition.listingRow maxlen r) := by
  refine ⟨?_, fun inst hline => ?_⟩
  · obtain ⟨rest, hrest⟩ := exists_toList_body maxlen r.line
    refine ⟨_, _, String.ofList rest, ?_, bar_notMem_opcodeColumn r.line, numeral_decimal _⟩
    rw [← String.toList_inj, listingRow_eq]
    simp [numberColumn, hrest]
  · refine ⟨_, "     | " ++ numberColumn r.index ++ body maxlen r.line, ?_, numeral_hexUpper _⟩
    rw [← String.toList_inj, listingRow_eq, hline]
    simp [opcodeColumn]

theorem lf_notMem_opcodeColumn (line : Line) : '\n' ∉ (opcodeColumn line).toList :=
  fun hmem => absurd (mem_opcodeColumn hmem) (by decide)

theorem lf_notMem_numberColumn (index : Nat) : '\n' ∉ (numberColumn index).toList := by
  intro hmem
  rcases mem_padLeft_decimal hmem with hfill | hdigit
  · exact absurd hfill (by decide)
  · exact absurd hdigit (by decide)

theorem lf_notMem_body (maxlen : Nat) {line : Line} (h : line.WellFormed) :
    '\n' ∉ (body maxlen line).toList := by
  cases line with
  | comment text => simp [body, styled, controlSequence, Style.onCode, Style.offCode, h.2]
  | blank => simp [body]
  | instruction inst =>
    obtain ⟨hident, hname⟩ := h
    simp [body, styled, controlSequence, Style.onCode, Style.offCode, toList_padRight,
      hident.lf_notMem, hname.lf_notMem]

theorem lf_notMem_listingRow (maxlen : Nat) {r : Record} (h : r.line.WellFormed) :
    '\n' ∉ (Definition.listingRow maxlen r).toList := by
  rw [listingRow_eq]
  simp [lf_notMem_opcodeColumn, lf_notMem_numberColumn, lf_notMem_body maxlen h]

end Listing

namespace Definition

variable {mode : Mode} {text path : String} {d : Definition} {out : String}

theorem listing?_eq_some_iff :
    d.listing? path = some out ↔ (d.instructions = [] ∨ d.maxlen ≤ 65535) ∧
      out = String.join ((d.listingRows path).map (· ++ "\n")) := by
  simp only [listing?, widthLimit]
  grind

theorem read?_listing (hw : d.WellFormed) (h : d.listing? path = some out) :
    Listing.read? path out = some d.records.toList := by
  obtain ⟨-, rfl⟩ := listing?_eq_some_iff.mp h
  have hrows : ∀ row ∈ d.records.toList.map fun r => (listingRow d.maxlen r).toList,
      '\n' ∉ row := by
    intro row hrow
    obtain ⟨r, hr, rfl⟩ := List.mem_map.mp hrow
    exact Listing.lf_notMem_listingRow d.maxlen (hw.line r hr)
  have hlisting : (String.join ((d.listingRows path).map (· ++ "\n"))).toList =
      (listingHead path ++ "\n").toList ++
        (joinRows (d.records.toList.map fun r => (listingRow d.maxlen r).toList) ++
          (listingFoot ++ "\n").toList) := by
    simp [listingRows, joinRows, List.flatMap_map]
  have hread : (d.records.toList.map fun r => (listingRow d.maxlen r).toList).mapM Listing.row? =
      some (d.records.toList.map id) :=
    Reader.mapM_eq_some_map fun r hr => Listing.row?_listingRow d.maxlen (hw.line r hr)
  rw [Listing.read?, hlisting, dropPrefix?_append]
  simp only [Option.bind_eq_bind, Option.bind_some, dropSuffix?_append, rows?_joinRows hrows,
    hread, List.map_id]

/-- `ListsFaithfully d path out` says that the listing `out` shows the definition row by row, and
that no other records have it. -/
structure ListsFaithfully (d : Definition) (path out : String) : Prop where
  /-- Between the first and the last row every source line has one, in the order of the source. -/
  rows : ∃ rows : List String,
    out = String.join (([listingHead path] ++ rows ++ [listingFoot]).map (· ++ "\n")) ∧
    (∀ row ∈ [listingHead path] ++ rows ++ [listingFoot], '\n' ∉ row.toList) ∧
    rows.length = d.records.size ∧
    ∀ k r, d.records[k]? = some r → r.index = k ∧ ∃ row, rows[k]? = some row ∧ Listing.Shows r row
  read : Listing.read? path out = some d.records.toList
  injective : ∀ mode' text' d', parse mode' text' = .ok d' → d'.listing? path = some out →
    d'.records = d.records

/-- A definition whose columns are not too wide has a listing, and the listing shows all that the
definition says. -/
theorem listing_faithful (mode : Mode) (text path : String) (d : Definition)
    (hd : parse mode text = .ok d) (hpath : '\n' ∉ path.toList)
    (hwide : d.instructions = [] ∨ d.maxlen ≤ 65535) :
    ∃ out, d.listing? path = some out ∧ ListsFaithfully d path out := by
  have hw := wellFormed_of_parse hd
  obtain ⟨out, hout⟩ : ∃ out, d.listing? path = some out :=
    ⟨_, listing?_eq_some_iff.mpr ⟨hwide, rfl⟩⟩
  obtain ⟨-, htext⟩ := listing?_eq_some_iff.mp hout
  refine ⟨out, hout, ⟨⟨d.records.toList.map (listingRow d.maxlen), htext, ?_, by simp, ?_⟩,
    read?_listing hw hout, ?_⟩⟩
  · intro row hrow
    simp only [List.mem_append, List.mem_singleton, List.mem_map] at hrow
    rcases hrow with (rfl | ⟨r, hr, rfl⟩) | rfl
    · simp [listingHead, repeated, hpath]
    · exact Listing.lf_notMem_listingRow d.maxlen (hw.line r hr)
    · simp [listingFoot, repeated]
  · intro k r hr
    refine ⟨?_, _, ?_, Listing.shows_listingRow d.maxlen r⟩
    · have hindex := congrArg (·[k]?) hw.index
      obtain ⟨hk, rfl⟩ := Array.getElem?_eq_some_iff.mp hr
      simpa [hk] using hindex
    · simp [hr]
  · intro mode' text' d' hd' hout'
    have hread := read?_listing (wellFormed_of_parse hd') hout'
    rw [read?_listing hw hout, Option.some.injEq] at hread
    exact Array.toList_inj.mp hread.symm

/-- Fields and a comment that hold the quotes and the control sequences of the listing itself. -/
theorem listing_faithful_quoted : ∃ d out, parse .strict "//\x1b[22m\n\n\"A\x1b[39m \"b" = .ok d ∧
    '\n' ∉ "ins.txt".toList ∧ (d.instructions = [] ∨ d.maxlen ≤ 65535) ∧
    d.listing? "ins.txt" = some out ∧ ListsFaithfully d "ins.txt" out := by
  obtain ⟨d, hd⟩ : ∃ d, parse .strict "//\x1b[22m\n\n\"A\x1b[39m \"b" = .ok d :=
    exists_parse_iff.mpr (by decide)
  have hpath : '\n' ∉ "ins.txt".toList := by decide
  have hwide : d.maxlen ≤ 65535 := by
    rw [maxlen_of_parse hd]
    decide
  obtain ⟨out, hout, hlists⟩ := listing_faithful _ _ "ins.txt" d hd hpath (.inr hwide)
  exact ⟨d, out, hd, hpath, .inr hwide, hout, hlists⟩

end Definition

end OpcodeTable
