import Mathlib
import OpcodeTable.Files

/-!
# Laws of the tree of files

An entry is read as the bytes that it holds, and bytes as the one text that they encode, if any.
Writing to a path changes the entry at one place. Every other path leads where it led before, and
the path that was written to leads to a file with exactly the new content.
-/

namespace OpcodeTable

/-- `entry.Holds content` says that these are the bytes of the entry. A device gives none, and a
directory has none to give. -/
inductive Entry.Holds : Entry → ByteArray → Prop where
  | file (content : ByteArray) : Holds (.file content) content
  | sink : Holds .sink .empty
  | full : Holds .full .empty

theorem Entry.read_eq_ok_iff {entry : Entry} {content : ByteArray} :
    entry.read = .ok content ↔ entry.Holds content := by
  constructor
  · intro h
    cases entry with
    | file bytes => exact Except.ok.inj h ▸ .file bytes
    | directory => cases h
    | sink => exact Except.ok.inj h ▸ .sink
    | full => exact Except.ok.inj h ▸ .full
  · rintro (_ | _ | _) <;> rfl

theorem Entry.read_eq_error_iff {entry : Entry} {cause : FileFault} :
    entry.read = .error cause ↔ entry = .directory ∧ cause = .isDirectory := by
  cases entry <;> simp [read, eq_comm]

namespace Files

variable {fs fs' : Files} {path : String} {place : Location} {content : ByteArray}

/-- The trees have the same directories, and paths start in the same of them. -/
structure SameDirectories (fs fs' : Files) : Prop where
  workDir : fs'.workDir = fs.workDir
  directory_iff : ∀ place, fs'.entry? place = some .directory ↔ fs.entry? place = some .directory

theorem SameDirectories.symm (h : SameDirectories fs fs') : SameDirectories fs' fs :=
  ⟨h.workDir.symm, fun place => (h.directory_iff place).symm⟩

theorem isDirectory_of_follow {here there : Location} {name : String}
    (h : fs.follow here name = .ok there) : fs.entry? here = some .directory := by
  unfold follow at h
  split at h <;> simp_all

theorem SameDirectories.follow (h : SameDirectories fs fs') {here there : Location} {name : String}
    (hfollow : fs.follow here name = .ok there) : fs'.follow here name = .ok there := by
  have hhere := isDirectory_of_follow hfollow
  rw [← hfollow, Files.follow, Files.follow, hhere, (h.directory_iff here).mpr hhere]

theorem SameDirectories.foldlM_follow (h : SameDirectories fs fs') {names : List String}
    {here there : Location} (hfold : names.foldlM fs.follow here = .ok there) :
    names.foldlM fs'.follow here = .ok there := by
  -- the place that has been reached changes from name to name
  induction names generalizing here with
  | nil => exact hfold
  | cons name names ih =>
    rw [List.foldlM_cons] at hfold ⊢
    cases hfollow : fs.follow here name with
    | error fault => simp [hfollow, bind, Except.bind] at hfold
    | ok next =>
      rw [hfollow] at hfold
      rw [h.follow hfollow]
      exact ih hfold

theorem SameDirectories.locate (h : SameDirectories fs fs') (hlocate : fs.locate path = .ok place) :
    fs'.locate path = .ok place := by
  unfold Files.locate at hlocate ⊢
  split at hlocate
  · simp at hlocate
  · split at hlocate
    · simp at hlocate
    · split at hlocate
      · simp at hlocate
      · simp only [*, if_false, h.workDir]
        exact h.foldlM_follow hlocate

theorem toUTF8_eq_iff {bytes : ByteArray} {s : String} :
    bytes = s.toUTF8 ↔ String.fromUTF8? bytes = some s := by
  constructor
  · rintro rfl
    exact dif_pos s.isValidUTF8
  · intro h
    unfold String.fromUTF8? at h
    split at h
    · rw [← Option.some.inj h]
      rfl
    · cases h

/-- Bytes are read as the text that they encode. -/
theorem text_eq_ok_iff {bytes : ByteArray} {s : String} :
    text bytes = .ok s ↔ bytes = s.toUTF8 := by
  rw [toUTF8_eq_iff, text]
  cases String.fromUTF8? bytes <;> simp

/-- The only other bytes are those that encode no text. -/
theorem text_eq_error_iff {bytes : ByteArray} {cause : FileFault} :
    text bytes = .error cause ↔ cause = .notText ∧ ∀ s : String, bytes ≠ s.toUTF8 := by
  simp only [ne_eq, toUTF8_eq_iff, text]
  cases String.fromUTF8? bytes <;> simp [eq_comm]

/-! ## Writing -/

/-- `Written before path content after` says that the content was written to a path of the tree
`before`, and nothing else has happened. -/
structure Written (before : Files) (path : String) (content : ByteArray) (after : Files) :
    Prop where
  /-- The path now leads to the content, unless it leads to a device that keeps nothing. -/
  content : (after.lookup path).bind Entry.read = .ok content ∨
    before.lookup path = .ok .sink ∧ after = before
  /-- Only the entry at one place is new. -/
  elsewhere : ∃ place, before.locate path = .ok place ∧
    ∀ other, other ≠ place → after.entry? other = before.entry? other
  /-- All paths that lead to another place lead to the same entry as before. -/
  lookup : ∀ other, before.locate other ≠ before.locate path →
    ∀ entry, after.lookup other = .ok entry ↔ before.lookup other = .ok entry

theorem Written.refl (hlocate : fs.locate path = .ok place)
    (hcontent : (fs.lookup path).bind Entry.read = .ok content ∨ fs.lookup path = .ok .sink) :
    Written fs path content fs :=
  ⟨hcontent.imp_right fun h => ⟨h, rfl⟩, ⟨place, hlocate, fun _ _ => rfl⟩, fun _ _ _ => .rfl⟩

end Files

end OpcodeTable
