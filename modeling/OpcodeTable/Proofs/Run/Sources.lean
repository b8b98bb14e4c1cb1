import Mathlib
import OpcodeTable.Proofs.Files
import OpcodeTable.Proofs.Run.Stage

/-!
# What a run reads

A run reads a settings file, if it is given one, and a definition file. What they give it is told
by the entries that the paths lead to and by the bytes in them, and so is what can be wrong with
them. It is shown that either there is something to read or there is a reason why not, and that a
run comes to exactly this.
-/

namespace OpcodeTable

variable {o : Options} {lookup : Lookup} {path source : String} {content : ByteArray}
  {cause : FileFault} {fault : Fault} {s : Settings}

section Outcomes

variable {α γ ε : Type} {x : Except ε α} {p : α → Prop} {q : γ → Prop} {f : γ → ε}
  (h : (∃ a, p a) ∨ ∃ c, q c) (hok : ∀ {a}, p a → x = .ok a)
  (herror : ∀ {c}, q c → x = .error (f c))

include h hok herror

theorem eq_error_iff_of_cases {e : ε} : x = .error e ↔ ∃ c, q c ∧ e = f c := by
  constructor
  · intro hx
    obtain ⟨b, hb⟩ | ⟨c, hc⟩ := h
    · cases hx.symm.trans (hok hb)
    · exact ⟨c, hc, Except.error.inj (hx.symm.trans (herror hc))⟩
  · rintro ⟨c, hc, rfl⟩
    exact herror hc

end Outcomes

/-- The path leads to an entry with these bytes. -/
def Contains (lookup : Lookup) (path : String) (content : ByteArray) : Prop :=
  ∃ entry, lookup path = .ok entry ∧ entry.Holds content

theorem contains_of_file (h : lookup path = .ok (.file content)) : Contains lookup path content :=
  ⟨_, h, .file content⟩

/-- A path leads to nothing, to a directory, or to bytes. -/
theorem lookup_cases (lookup : Lookup) (path : String) :
    (∃ cause, lookup path = .error cause) ∨ lookup path = .ok .directory ∨
      ∃ content, Contains lookup path content := by
  cases h : lookup path with
  | error cause => exact .inl ⟨cause, rfl⟩
  | ok entry =>
    cases entry with
    | directory => exact .inr (.inl rfl)
    | file content => exact .inr (.inr ⟨_, _, h, .file content⟩)
    | sink => exact .inr (.inr ⟨_, _, h, .sink⟩)
    | full => exact .inr (.inr ⟨_, _, h, .full⟩)

/-! ## Definition files -/

/-- Why a path leads to no text. -/
inductive Unreadable (lookup : Lookup) (path : String) : FileFault → Prop where
  | missing {cause : FileFault} (h : lookup path = .error cause) : Unreadable lookup path cause
  | directory (h : lookup path = .ok .directory) : Unreadable lookup path .isDirectory
  | notText {content : ByteArray} (h : Contains lookup path content)
      (hcontent : ∀ text : String, content ≠ text.toUTF8) : Unreadable lookup path .notText

theorem contains_or_unreadable (lookup : Lookup) (path : String) :
    (∃ source : String, Contains lookup path source.toUTF8) ∨
      ∃ cause, Unreadable lookup path cause := by
  obtain ⟨cause, h⟩ | h | ⟨content, h⟩ := lookup_cases lookup path
  · exact .inr ⟨cause, .missing h⟩
  · exact .inr ⟨_, .directory h⟩
  · by_cases htext : ∃ source : String, content = source.toUTF8
    · obtain ⟨source, rfl⟩ := htext
      exact .inl ⟨source, h⟩
    · exact .inr ⟨_, .notText h (not_exists.mp htext)⟩

theorem readSource_of_contains (h : Contains lookup path content) :
    readSource lookup path = (Files.text content).mapError (.unreadable path) := by
  obtain ⟨entry, hlookup, hentry⟩ := h
  simp only [readSource, hlookup, Entry.read_eq_ok_iff.mpr hentry, bind, Except.bind]

theorem Contains.readSource_eq (h : Contains lookup path source.toUTF8) :
    readSource lookup path = .ok source := by
  rw [readSource_of_contains h, Files.text_eq_ok_iff.mpr rfl, Except.mapError]

theorem Unreadable.readSource_eq (h : Unreadable lookup path cause) :
    readSource lookup path = .error (.unreadable path cause) := by
  cases h with
  | missing h => rw [readSource, h]; rfl
  | directory h => rw [readSource, h]; rfl
  | notText h hcontent =>
    rw [readSource_of_contains h, Files.text_eq_error_iff.mpr ⟨rfl, hcontent⟩, Except.mapError]

/-- The fault says why no text is read. -/
theorem readSource_eq_error_iff :
    readSource lookup path = .error fault ↔
      ∃ cause, Unreadable lookup path cause ∧ fault = .unreadable path cause :=
  eq_error_iff_of_cases (contains_or_unreadable lookup path) Contains.readSource_eq
    Unreadable.readSource_eq

/-- The bytes under a path are those of one text at most. -/
theorem Contains.source_unique {other : String} (h : Contains lookup path source.toUTF8)
    (hother : Contains lookup path other.toUTF8) : source = other :=
  Except.ok.inj (h.readSource_eq.symm.trans hother.readSource_eq)

/-! ## Settings files -/

/-- Why a path leads to no settings. -/
inductive Unloadable (lookup : Lookup) (path : String) : Fault → Prop where
  | missing {cause : FileFault} (h : lookup path = .error cause) :
    Unloadable lookup path (.unreadable path cause)
  | directory (h : lookup path = .ok .directory) :
    Unloadable lookup path (.badSettings path (.unreadable .isDirectory))
  | mismatch {content : ByteArray} {mismatch : Settings.FileMismatch}
      (h : Contains lookup path content) (hcontent : Settings.ofBytes content = .error mismatch) :
    Unloadable lookup path (.badSettings path mismatch)

theorem loadSettings_of_contains (h : Contains lookup path content) :
    loadSettings lookup path = (Settings.ofBytes content).mapError (.badSettings path) := by
  obtain ⟨entry, hlookup, hentry⟩ := h
  simp only [loadSettings, hlookup, Entry.read_eq_ok_iff.mpr hentry]

theorem Unloadable.loadSettings_eq (h : Unloadable lookup path fault) :
    loadSettings lookup path = .error fault := by
  cases h with
  | missing h => rw [loadSettings, h]
  | directory h => rw [loadSettings, h]; rfl
  | mismatch h hcontent => rw [loadSettings_of_contains h, hcontent, Except.mapError]

namespace Options

/-- The settings that a run starts from: the defaults, or those of its settings file. -/
inductive StartsFrom (o : Options) (lookup : Lookup) : Settings → Prop where
  | defaults (ho : o.settings = none) : StartsFrom o lookup {}
  | file {path : String} {content : ByteArray} {s : Settings} (ho : o.settings = some path)
      (h : Contains lookup path content) (hcontent : Settings.ofBytes content = .ok s) :
    StartsFrom o lookup s

/-- These are the settings of the run: those that it starts from, with the opcode type of the
options in the place of their own if there is one. -/
def Configures (o : Options) (lookup : Lookup) (s : Settings) : Prop :=
  ∃ base, o.StartsFrom lookup base ∧
    s = { base with opcodeType := o.opcodeType.getD base.opcodeType }

/-- The options name a settings file that leads to no settings. -/
def Misconfigures (o : Options) (lookup : Lookup) (fault : Fault) : Prop :=
  ∃ path, o.settings = some path ∧ Unloadable lookup path fault

theorem configures_or_misconfigures (o : Options) (lookup : Lookup) :
    (∃ s, o.Configures lookup s) ∨ ∃ fault, o.Misconfigures lookup fault := by
  cases ho : o.settings with
  | none => exact .inl ⟨_, _, .defaults ho, rfl⟩
  | some path =>
    obtain ⟨cause, h⟩ | h | ⟨content, h⟩ := lookup_cases lookup path
    · exact .inr ⟨_, path, ho, .missing h⟩
    · exact .inr ⟨_, path, ho, .directory h⟩
    · cases hcontent : Settings.ofBytes content with
      | ok base => exact .inl ⟨_, _, .file ho h hcontent, rfl⟩
      | error mismatch => exact .inr ⟨_, path, ho, .mismatch h hcontent⟩

theorem Configures.effectiveSettings_eq (h : o.Configures lookup s) :
    o.effectiveSettings lookup = .ok s := by
  obtain ⟨base, hbase, rfl⟩ := h
  cases hbase with
  | defaults ho => rw [effectiveSettings, ho, Except.map]
  | file ho h hcontent =>
    rw [effectiveSettings, ho]
    dsimp only
    rw [loadSettings_of_contains h, hcontent, Except.mapError, Except.map]

theorem Misconfigures.effectiveSettings_eq (h : o.Misconfigures lookup fault) :
    o.effectiveSettings lookup = .error fault := by
  obtain ⟨path, ho, h⟩ := h
  rw [effectiveSettings, ho]
  dsimp only
  rw [h.loadSettings_eq, Except.map]

theorem effectiveSettings_eq_error_iff :
    o.effectiveSettings lookup = .error fault ↔ o.Misconfigures lookup fault := by
  rw [eq_error_iff_of_cases (o.configures_or_misconfigures lookup)
    Configures.effectiveSettings_eq Misconfigures.effectiveSettings_eq]
  simp

end Options

end OpcodeTable
