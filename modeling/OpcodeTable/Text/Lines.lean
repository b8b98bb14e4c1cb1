import OpcodeTable.Text.Split

/-!
# The lines of a text

A line feed ends a line, together with one carriage return directly before it. What follows the
last line feed is a line of its own unless it is empty, and keeps its carriage returns.
-/

namespace OpcodeTable.Text

/-- Remove one carriage return at the end. -/
def dropFinalReturn (cs : List Char) : List Char :=
  if cs.getLast? = some '\r' then cs.dropLast else cs

/-- The contents of the lines, without their terminators. -/
def linesOf (cs : List Char) : List (List Char) :=
  let pieces := splitWhere (· = '\n') cs
  pieces.dropLast.map dropFinalReturn ++ pieces.getLast?.toList.filter (!·.isEmpty)

/-- The lines of a text, without their terminators. -/
def lines (text : String) : List String :=
  (linesOf text.toList).map String.ofList

@[simp] theorem linesOf_nil : linesOf [] = [] := rfl

example : linesOf "a\r\n\nb\r".toList = [['a'], [], ['b', '\r']] := by decide
example : linesOf "a\r\r\n".toList = [['a', '\r']] := by decide

end OpcodeTable.Text
