import OpcodeTable.Definition

/-!
# Changing a definition in place

A line can also be accepted by changing a definition in place, one part after the other: first the
map, then the length of the longest identifier, then the records. A refusal then leaves behind what
was changed before it. It comes before the first change, so a line is accepted or refused as by
`push`, and reading in place goes through the same states.
-/

namespace OpcodeTable.Definition

/-- A change that can be refused. What was changed before the refusal stays. -/
abbrev Change := ExceptT LineFault (StateM Definition)

namespace Change

/-- Add a pair to the map if both its halves are new, and say whether they were. -/
def addPair (ident : String) (opcode : Nat) : Change Bool := do
  let d ← get
  if h : d.map.Fresh ident opcode then
    set { d with map := d.map.insert ident opcode h }
    return true
  else
    return false

/-- Make the longest identifier at least as long as the given one. -/
def widen (ident : String) : Change Unit :=
  modify fun d => { d with maxlen := max d.maxlen ident.length }

def addRecord (index : Nat) (line : Line) : Change Unit :=
  modify fun d => { d with records := d.records.push ⟨index, line⟩ }

/-- Accept a line. -/
def accept (index : Nat) (line : Line) : Change Unit := do
  if let .instruction inst := line then
    unless ← addPair inst.ident inst.opcode do
      -- the line is looked up in what the failed addition has left
      let d ← get
      throw (.redefined inst.ident (((d.opcode? inst.ident).bind d.lineOf?).getD index))
    widen inst.ident
  addRecord index line

variable {d d' : Definition} {α β : Type} {ident : String} {opcode : Nat}

/-- What comes second starts where the first has come to. -/
theorem run_bind_of_ok {x : Change α} {a : α} (hx : x.run d = (.ok a, d')) (f : α → Change β) :
    (x >>= f).run d = (f a).run d' := by
  change ExceptT.bindCont f (x.run d).1 (x.run d).2 = _
  rw [hx]
  rfl

theorem run_addPair_of_fresh (h : d.map.Fresh ident opcode) :
    (addPair ident opcode).run d = (.ok true, { d with map := d.map.insert ident opcode h }) := by
  change (if h : d.map.Fresh ident opcode then _ else _ : Change Bool).run d = _
  rw [dif_pos h]
  rfl

theorem run_addPair_of_not_fresh (h : ¬d.map.Fresh ident opcode) :
    (addPair ident opcode).run d = (.ok false, d) := by
  change (if h : d.map.Fresh ident opcode then _ else _ : Change Bool).run d = _
  rw [dif_neg h]
  rfl

/-- Accepting in place is `push`, and a refusal comes before the first change. -/
theorem run_accept (index : Nat) (line : Line) (d : Definition) :
    (accept index line).run d =
      match d.push index line with
      | .ok d' => (.ok (), d')
      | .error fault => (.error fault, d) := by
  cases line with
  | comment text => rfl
  | blank => rfl
  | instruction inst =>
    -- whether the pair is new decides alone what follows it
    by_cases h : d.map.Fresh inst.ident inst.opcode
    · rw [accept, run_bind_of_ok (run_addPair_of_fresh h), push, dif_pos h]
      rfl
    · rw [accept, run_bind_of_ok (run_addPair_of_not_fresh h), push, dif_neg h]
      rfl

end Change

/-- Read one more line in place, and go on with whatever a refused line has left. -/
def Progress.stepInPlace (mode : Mode) (p : Progress) (line : String × Nat) : Progress :=
  match Line.classify mode p.definition.count line.1 with
  | .error fault => p.reject line.2 fault
  | .ok record =>
    match (Change.accept line.2 record).run p.definition with
    | (.ok (), definition) => { p with definition }
    | (.error fault, definition) => { p with definition }.reject line.2 fault

theorem Progress.stepInPlace_eq (mode : Mode) (p : Progress) (line : String × Nat) :
    p.stepInPlace mode line = p.step mode line := by
  rw [stepInPlace, step]
  cases Line.classify mode p.definition.count line.1 with
  | error fault => rfl
  | ok record =>
    simp only [Change.run_accept]
    cases p.definition.push line.2 record <;> rfl

end OpcodeTable.Definition
