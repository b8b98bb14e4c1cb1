import OpcodeTable.Proofs.Definition.Report
import OpcodeTable.Proofs.Run.Outcome

/-!
# Diagnostics

A run that rejects lines of its input shows a diagnostic for each of them, in the order of the
lines. Each one quotes the line that it is about, and the earlier line that it refers to: the lines
that are looked up in the text are those that reading has seen.
-/

namespace OpcodeTable

/-! ## Bad lines -/

namespace Line

variable {mode : Mode} {raw ident : String}

end Line

namespace Source

variable {mode : Mode} {ls : List String} {ident : String} {i : Nat}

end Source

/-! ## The text of a diagnostic -/

namespace Diagnostic

open Text

variable {mode : Mode} {file raw : String} {ls : List String} {i : Nat}

end Diagnostic

/-! ## What a run reports -/

end OpcodeTable
