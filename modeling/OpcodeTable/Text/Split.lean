import OpcodeTable.Text.Blank

/-!
# Splitting characters into fields

`splitWhere p` cuts a list of characters at every character that satisfies `p` and keeps empty
pieces. The strict fields of a line are its pieces between spaces; its words are the pieces
between blank characters that are not empty.
-/

namespace OpcodeTable.Text

/-- Put a character in front of the first piece. -/
def consHead (c : Char) : List (List Char) → List (List Char)
  | [] => [[c]]
  | l :: ls => (c :: l) :: ls

/-- The pieces between the characters that satisfy `p`, empty pieces included. -/
def splitWhere (p : Char → Bool) (cs : List Char) : List (List Char) :=
  cs.foldr (fun c pieces => if p c then [] :: pieces else consHead c pieces) [[]]

@[simp] theorem splitWhere_nil (p : Char → Bool) : splitWhere p [] = [[]] := rfl

theorem splitWhere_cons (p : Char → Bool) (c : Char) (cs : List Char) :
    splitWhere p (c :: cs) =
      if p c then [] :: splitWhere p cs else consHead c (splitWhere p cs) := rfl

theorem splitWhere_ne_nil (p : Char → Bool) (cs : List Char) : splitWhere p cs ≠ [] := by
  cases cs with
  | nil => simp
  | cons c cs =>
    rw [splitWhere_cons]
    split
    · simp
    · unfold consHead
      split <;> simp

/-- The pieces between spaces; two spaces in a row have an empty piece between them. -/
def fields (cs : List Char) : List (List Char) :=
  splitWhere (· = ' ') cs

/-- The maximal runs of characters that are not blank. -/
def words (cs : List Char) : List (List Char) :=
  (splitWhere isBlank cs).filter (!·.isEmpty)

example : fields "a  b".toList = [['a'], [], ['b']] := by decide
example : words " a\t b ".toList = [['a'], ['b']] := by decide

end OpcodeTable.Text
