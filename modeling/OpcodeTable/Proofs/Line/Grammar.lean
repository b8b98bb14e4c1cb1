import OpcodeTable.Proofs.Source.Modes

/-!
# The grammar of lines

What the classifier makes of a line, said without cutting the line. A statement is an instruction
when it consists of an identifier and a name, apart from what its mode reads over, and it lacks a
name when it has an identifier only. All other statements are malformed, and no statement can be
read in two ways.
-/

namespace OpcodeTable

open Text

namespace Mode

variable {mode : Mode} {cs ident name ident' name' : List Char}

/-- Whether a character cannot be part of a field. -/
def separates : Mode → Char → Bool
  | strict, c => c = ' '
  | lenient, c => isBlank c

/-- A text that can stand as one field of a statement. -/
structure IsToken (mode : Mode) (cs : List Char) : Prop where
  ne_nil : cs ≠ []
  notSeparated : ∀ c ∈ cs, mode.separates c = false

/-- `mode.HasFields cs ident name` says that a statement consists of an identifier and a name. -/
inductive HasFields : Mode → List Char → List Char → List Char → Prop where
  /-- One space stands between the two, and there is nothing else. -/
  | strict {ident name : List Char} (hident : IsToken .strict ident)
      (hname : IsToken .strict name) : HasFields .strict (ident ++ ' ' :: name) ident name
  /-- Blanks may stand in front and must stand in between. The name ends at a blank or with the
  line, and what follows is not read. -/
  | lenient {front ident gap name rest : List Char} (hfront : ∀ c ∈ front, isBlank c = true)
      (hident : IsToken .lenient ident) (hgap : ∀ c ∈ gap, isBlank c = true) (hne : gap ≠ [])
      (hname : IsToken .lenient name) (hrest : ∀ c ∈ rest.head?, isBlank c = true) :
      HasFields .lenient (front ++ (ident ++ (gap ++ (name ++ rest)))) ident name

/-- `mode.LacksName cs ident` says that a statement consists of an identifier only. -/
inductive LacksName : Mode → List Char → List Char → Prop where
  | strict {ident : List Char} (hident : IsToken .strict ident) : LacksName .strict ident ident
  /-- Blanks may stand on both sides. -/
  | lenient {front ident rest : List Char} (hfront : ∀ c ∈ front, isBlank c = true)
      (hident : IsToken .lenient ident) (hrest : ∀ c ∈ rest, isBlank c = true) :
      LacksName .lenient (front ++ (ident ++ rest)) ident

theorem isToken_strict_iff : IsToken .strict cs ↔ cs ≠ [] ∧ ' ' ∉ cs := by
  constructor
  · rintro ⟨hne, hspace⟩
    refine ⟨hne, fun hmem => ?_⟩
    simpa [separates] using hspace ' ' hmem
  · rintro ⟨hne, hspace⟩
    refine ⟨hne, fun c hc => ?_⟩
    have : c ≠ ' ' := fun heq => hspace (heq ▸ hc)
    simpa [separates] using this

/-! ## Fields of strict statements -/

theorem hasFields_strict_iff :
    HasFields .strict cs ident name ↔
      cs = ident ++ ' ' :: name ∧ IsToken .strict ident ∧ IsToken .strict name := by
  constructor
  · rintro ⟨hident, hname⟩
    exact ⟨rfl, hident, hname⟩
  · rintro ⟨rfl, hident, hname⟩
    exact .strict hident hname

theorem lacksName_strict_iff : LacksName .strict cs ident ↔ cs = ident ∧ IsToken .strict ident := by
  constructor
  · rintro ⟨hident⟩
    exact ⟨rfl, hident⟩
  · rintro ⟨rfl, hident⟩
    exact .strict hident

/-! ## Fields of lenient statements -/

/-- The first word of a text is found by what stands around it. -/
theorem firstWord_eq_iff {w rest : List Char} :
    firstWord cs = w ∧ afterFirstWord cs = rest ∧ w ≠ [] ↔
      ∃ gap, cs = gap ++ (w ++ rest) ∧ (∀ c ∈ gap, isBlank c = true) ∧ IsToken .lenient w ∧
        ∀ c ∈ rest.head?, isBlank c = true := by
  constructor
  · rintro ⟨rfl, rfl, hne⟩
    obtain ⟨gap, hgap, hcs⟩ := exists_gap_append cs
    exact ⟨gap, hcs, hgap, ⟨hne, fun c => isBlank_of_mem_firstWord⟩,
      fun c => isBlank_of_head?_afterFirstWord⟩
  · rintro ⟨gap, rfl, hgap, hw, hrest⟩
    obtain ⟨hfirst, hafter⟩ := firstWord_gap_append hgap hw.ne_nil hw.notSeparated hrest
    exact ⟨hfirst, hafter, hw.ne_nil⟩

theorem fields_lenient_eq_pair_iff :
    fields .lenient cs = [ident, name] ↔
      firstWord cs = ident ∧ ident ≠ [] ∧ firstWord (afterFirstWord cs) = name ∧ name ≠ [] := by
  rw [fields, take_two_words]
  grind

theorem fields_lenient_eq_singleton_iff :
    fields .lenient cs = [ident] ↔
      firstWord cs = ident ∧ ident ≠ [] ∧ firstWord (afterFirstWord cs) = [] := by
  rw [fields, take_two_words]
  grind

theorem fields_lenient_eq_nil_iff :
    fields .lenient cs = [] ↔ ∀ c ∈ cs, isBlank c = true := by
  rw [fields, take_two_words, ← firstWord_eq_nil_iff]
  grind

theorem hasFields_lenient_iff :
    HasFields .lenient cs ident name ↔ fields .lenient cs = [ident, name] := by
  rw [fields_lenient_eq_pair_iff]
  constructor
  · intro h
    cases h with
    | @lenient front _ gap _ rest hfront hident hgap hne hname hrest =>
      obtain ⟨d, gap, rfl⟩ := List.exists_cons_of_ne_nil hne
      have hd : ∀ c ∈ (d :: gap ++ (name ++ rest)).head?, isBlank c = true := by
        simpa using hgap d (by simp)
      obtain ⟨hfirst, hafter, -⟩ := firstWord_eq_iff.mpr ⟨front, rfl, hfront, hident, hd⟩
      obtain ⟨hsecond, -, -⟩ := firstWord_eq_iff.mpr ⟨d :: gap, rfl, hgap, hname, hrest⟩
      exact ⟨hfirst, hident.ne_nil, by rwa [hafter], hname.ne_nil⟩
  · rintro ⟨hfirst, hi, hsecond, hn⟩
    obtain ⟨front, hcs, hfront, hident, hhead⟩ := firstWord_eq_iff.mp ⟨hfirst, rfl, hi⟩
    obtain ⟨gap, hafter, hgap, hname, hrest⟩ := firstWord_eq_iff.mp ⟨hsecond, rfl, hn⟩
    rw [hafter] at hcs hhead
    rw [hcs]
    refine .lenient hfront hident hgap ?_ hname hrest
    -- without blanks in between, the identifier would go on with the name
    rintro rfl
    obtain ⟨c, name, rfl⟩ := List.exists_cons_of_ne_nil hn
    have hblank : isBlank c = true := hhead c rfl
    have hword : isBlank c = false := hname.notSeparated c List.mem_cons_self
    simp [hblank] at hword

theorem lacksName_lenient_iff :
    LacksName .lenient cs ident ↔ fields .lenient cs = [ident] := by
  rw [fields_lenient_eq_singleton_iff]
  constructor
  · intro h
    cases h with
    | @lenient front _ rest hfront hident hrest =>
      have hhead : ∀ c ∈ rest.head?, isBlank c = true :=
        fun c hc => hrest c (List.mem_of_head? hc)
      obtain ⟨hfirst, hafter, -⟩ := firstWord_eq_iff.mpr ⟨front, rfl, hfront, hident, hhead⟩
      exact ⟨hfirst, hident.ne_nil, by rwa [hafter, firstWord_eq_nil_iff]⟩
  · rintro ⟨hfirst, hi, hsecond⟩
    obtain ⟨front, hcs, hfront, hident, -⟩ := firstWord_eq_iff.mp ⟨hfirst, rfl, hi⟩
    rw [hcs]
    exact .lenient hfront hident (firstWord_eq_nil_iff.mp hsecond)

/-! ## Both modes -/

/-- The grammar finds the fields that cutting the line gives. -/
theorem hasFields_iff :
    mode.HasFields cs ident name ↔ mode.fields cs = [ident, name] ∧ ident ≠ [] ∧ name ≠ [] := by
  cases mode with
  | strict =>
    rw [hasFields_strict_iff, fields, Text.fields_eq_pair_iff, isToken_strict_iff,
      isToken_strict_iff]
    tauto
  | lenient =>
    rw [hasFields_lenient_iff, fields_lenient_eq_pair_iff]
    tauto

theorem lacksName_iff (hne : cs ≠ []) : mode.LacksName cs ident ↔ mode.fields cs = [ident] := by
  cases mode with
  | strict =>
    rw [lacksName_strict_iff, fields, Text.fields_eq_singleton_iff, isToken_strict_iff]
    constructor
    · rintro ⟨rfl, -, hspace⟩
      exact ⟨rfl, hspace⟩
    · rintro ⟨rfl, hspace⟩
      exact ⟨rfl, hne, hspace⟩
  | lenient => exact lacksName_lenient_iff

/-- Two fields with a space in between are read in both modes. -/
theorem hasFields_append_space (hident : mode.IsToken ident) (hname : mode.IsToken name) :
    mode.HasFields (ident ++ ' ' :: name) ident name := by
  cases mode with
  | strict => exact .strict hident hname
  | lenient =>
    have hgap : ∀ c ∈ [' '], isBlank c = true := List.forall_mem_singleton.mpr rfl
    have hnone : ∀ c ∈ ([] : List Char), isBlank c = true := by simp
    have hend : ∀ c ∈ ([] : List Char).head?, isBlank c = true := by simp
    have hfields := HasFields.lenient hnone hident hgap (by simp) hname hend
    simpa only [List.nil_append, List.append_nil, List.singleton_append] using hfields

theorem HasFields.isToken (h : mode.HasFields cs ident name) :
    mode.IsToken ident ∧ mode.IsToken name := by
  cases h with
  | strict hident hname => exact ⟨hident, hname⟩
  | lenient _ hident _ _ hname _ => exact ⟨hident, hname⟩

theorem LacksName.isToken (h : mode.LacksName cs ident) : mode.IsToken ident := by
  cases h with
  | strict hident => exact hident
  | lenient _ hident _ => exact hident

/-- A line is an identifier and a name in one way only. -/
theorem HasFields.unique (h : mode.HasFields cs ident name)
    (h' : mode.HasFields cs ident' name') : ident = ident' ∧ name = name' := by
  have hfields := (hasFields_iff.mp h).1.symm.trans (hasFields_iff.mp h').1
  simpa using hfields

end Mode

namespace Line

variable {mode : Mode} {opcode : Nat} {raw ident : String} {inst : Instruction}

theorem classify_eq_comment_iff {text : String} :
    classify mode opcode raw = .ok (comment text) ↔
      text = raw ∧ commentMarker <+: raw.toList := by
  constructor
  · intro h
    rcases classify_eq_ok h with ⟨h, hmarker⟩ | h | ⟨ident, name, -, -, -, h⟩
    · exact ⟨Line.comment.inj h, hmarker⟩
    · cases h
    · cases h
  · rintro ⟨rfl, hmarker⟩
    exact classify_of_commentMarker hmarker mode opcode

theorem classify_eq_blank_iff : classify mode opcode raw = .ok blank ↔ raw = "" := by
  constructor
  · intro h
    by_contra hne
    by_cases hmarker : commentMarker <+: raw.toList
    · cases eq_comment_of_classify hmarker h
    · have hraw : isStatement raw = true := isStatement_iff.mpr ⟨by simpa using hne, hmarker⟩
      obtain ⟨inst, hinst⟩ := exists_instruction_of_classify hraw h
      cases hinst
  · rintro rfl
    cases mode <;> rfl

theorem classify_eq_instruction_iff (h : isStatement raw = true) :
    classify mode opcode raw = .ok (instruction inst) ↔
      inst.opcode = opcode ∧ mode.HasFields raw.toList inst.ident.toList inst.name.toList := by
  rw [Mode.hasFields_iff]
  constructor
  · intro hinst
    exact ⟨opcode_of_classify hinst, fields_of_classify hinst⟩
  · rintro ⟨rfl, hfields, hident, hname⟩
    rw [classify_of_isStatement h, hfields]
    simp [hident, hname]

theorem classify_eq_missingName_iff (h : isStatement raw = true) :
    classify mode opcode raw = .error (.missingName ident) ↔
      mode.LacksName raw.toList ident.toList := by
  rw [Mode.lacksName_iff (isStatement_iff.mp h).1, classify_of_isStatement h]
  constructor
  · intro hmissing
    split at hmissing
    · split at hmissing <;> cases hmissing
    · next field hfields =>
      obtain rfl : String.ofList field = ident := by simpa using hmissing
      rw [hfields, String.toList_ofList]
    · cases hmissing
  · intro hfields
    simp [hfields]

/-- A statement is malformed when it has neither form. -/
theorem classify_eq_malformed_iff (h : isStatement raw = true) :
    classify mode opcode raw = .error .malformed ↔
      (∀ ident name, ¬mode.HasFields raw.toList ident name) ∧
        ∀ ident, ¬mode.LacksName raw.toList ident := by
  cases hc : classify mode opcode raw with
  | ok line =>
    obtain ⟨inst, rfl⟩ := exists_instruction_of_classify h hc
    obtain ⟨-, hfields⟩ := (classify_eq_instruction_iff h).mp hc
    exact iff_of_false (by simp) fun hnone => hnone.1 _ _ hfields
  | error fault =>
    cases fault with
    | malformed =>
      refine iff_of_true rfl ⟨fun ident name hfields => ?_, fun ident hlacks => ?_⟩
      · have hinst : classify mode opcode raw =
            .ok (instruction ⟨String.ofList ident, String.ofList name, opcode⟩) :=
          (classify_eq_instruction_iff h).mpr ⟨rfl, by simpa using hfields⟩
        simp [hc] at hinst
      · have hmissing : classify mode opcode raw = .error (.missingName (String.ofList ident)) :=
          (classify_eq_missingName_iff h).mpr (by simpa using hlacks)
        simp [hc] at hmissing
    | missingName ident =>
      have hlacks := (classify_eq_missingName_iff h).mp hc
      exact iff_of_false (by simp) fun hnone => hnone.2 _ hlacks
    | redefined ident first => exact absurd hc classify_ne_redefined

/-- A lenient statement is malformed when it has no word. -/
theorem classify_lenient_eq_malformed_iff (h : isStatement raw = true) :
    classify .lenient opcode raw = .error .malformed ↔ ∀ c ∈ raw.toList, isBlank c = true := by
  rw [classify_of_isStatement h, ← Mode.fields_lenient_eq_nil_iff, Mode.fields, take_two_words]
  split_ifs with hfirst hsecond
  · simp
  · simp
  · simp [hfirst, hsecond]

/-- `FollowsGrammar opcode raw` says that the classifier reads the line by the grammar: comments and
empty lines first, and all other lines by the two forms that their mode gives to a statement. -/
structure FollowsGrammar (opcode : Nat) (raw : String) : Prop where
  comment_iff : ∀ mode text, classify mode opcode raw = .ok (comment text) ↔
    text = raw ∧ commentMarker <+: raw.toList
  blank_iff : ∀ mode, classify mode opcode raw = .ok blank ↔ raw = ""
  instruction_iff : isStatement raw = true → ∀ mode inst,
    classify mode opcode raw = .ok (instruction inst) ↔
      inst.opcode = opcode ∧ mode.HasFields raw.toList inst.ident.toList inst.name.toList
  missingName_iff : isStatement raw = true → ∀ mode ident,
    classify mode opcode raw = .error (.missingName ident) ↔
      mode.LacksName raw.toList ident.toList
  malformed_iff : isStatement raw = true → ∀ mode,
    classify mode opcode raw = .error .malformed ↔
      (∀ ident name, ¬mode.HasFields raw.toList ident name) ∧
        ∀ ident, ¬mode.LacksName raw.toList ident
  malformed_lenient_iff : isStatement raw = true →
    (classify .lenient opcode raw = .error .malformed ↔ ∀ c ∈ raw.toList, isBlank c = true)
  /-- The answers above are all there are: one line alone repeats no definition. -/
  ne_redefined : ∀ mode ident first, classify mode opcode raw ≠ .error (.redefined ident first)
  unique : ∀ (mode : Mode) ident name ident' name', mode.HasFields raw.toList ident name →
    mode.HasFields raw.toList ident' name' → ident = ident' ∧ name = name'
  /-- Strict reading keeps the whole line. -/
  recovered : ∀ inst, classify .strict opcode raw = .ok (instruction inst) →
    raw = inst.ident ++ " " ++ inst.name
  ident_ne : ∀ mode inst, classify mode opcode raw = .ok (instruction inst) →
    inst.ident ≠ "" ∧ inst.name ≠ ""
  missing_ne : ∀ mode ident, classify mode opcode raw = .error (.missingName ident) → ident ≠ ""

theorem eq_append_space_of_classify
    (h : classify .strict opcode raw = .ok (instruction inst)) :
    raw = inst.ident ++ " " ++ inst.name := by
  obtain ⟨hfields, -, -⟩ := fields_of_classify h
  rw [← String.toList_inj, eq_append_space_of_fields hfields]
  simp

/-- A missing name is reported with the identifier that is there. -/
theorem ident_ne_empty_of_missingName
    (h : classify mode opcode raw = .error (.missingName ident)) : ident ≠ "" := by
  have hraw : isStatement raw = true := isStatement_of_classify_error h
  have hident := ((classify_eq_missingName_iff hraw).mp h).isToken
  simpa using hident.ne_nil

/-- The classifier accepts exactly what the grammar describes, and says exactly what is missing in
the rest. -/
theorem classify_followsGrammar (opcode : Nat) (raw : String) : FollowsGrammar opcode raw := by
  refine ⟨fun mode text => classify_eq_comment_iff, fun mode => classify_eq_blank_iff,
    fun h mode inst => classify_eq_instruction_iff h,
    fun h mode ident => classify_eq_missingName_iff h,
    fun h mode => classify_eq_malformed_iff h, classify_lenient_eq_malformed_iff,
    fun mode ident first => classify_ne_redefined, ?_, fun inst => eq_append_space_of_classify,
    ?_, fun mode ident => ident_ne_empty_of_missingName⟩
  · intro mode ident name ident' name' h h'
    exact h.unique h'
  · intro mode inst h
    obtain ⟨-, hident, hname⟩ := fields_of_classify h
    exact ⟨by simpa using hident, by simpa using hname⟩

example : classify .lenient 3 "\tA  b c" = .ok (instruction ⟨"A", "b", 3⟩) := by decide

end Line

end OpcodeTable
