import OpcodeTable.Settings.Key

/-!
# Settings from a data value

A data value that was read elsewhere states settings when it is a map. Entries under other keys
are ignored.
-/

namespace OpcodeTable.Settings

inductive Value where
  | scalar (found : Found)
  | sequence
  | map (entries : List (String × Value))

instance : Inhabited Value := ⟨.sequence⟩

/-- The kind of a value, as a mismatch reports it. -/
def Value.found : Value → Found
  | scalar found => found
  | sequence => .sequence
  | map _ => .map

/-- Apply one entry. -/
def setEntry (s : Settings) (entry : String × Value) : Except Mismatch Settings :=
  match Key.ofName? entry.1, entry.2 with
  | none, _ => .ok s
  | some key, .scalar (.text text) => s.set key text
  | some .opcodeType, value => .error (.kind value.found .typeName)
  | some _, value => .error (.kind value.found .text)

/-- The settings that a value states, starting from the defaults. -/
def ofValue : Value → Except Mismatch Settings
  | .map entries => entries.foldlM setEntry {}
  | value => .error (.kind value.found .settings)

end OpcodeTable.Settings
