/-!
# Terminal styles

A style is switched on by one control sequence and off by another. Several styles on one text
are switched on in the given order and off in the same order.
-/

namespace OpcodeTable.Text

inductive Style where
  | red
  | green
  | yellow
  | blue
  | bold
  | dim
  | underline
  deriving DecidableEq, Repr

namespace Style

/-- The parameter that switches the style on. -/
def onCode : Style → String
  | red => "31"
  | green => "32"
  | yellow => "33"
  | blue => "34"
  | bold => "1"
  | dim => "2"
  | underline => "4"

/-- The parameter that switches the style off. -/
def offCode : Style → String
  | red | green | yellow | blue => "39"
  | bold | dim => "22"
  | underline => "24"

end Style

/-- The control sequence with the given parameter. -/
def controlSequence (code : String) : String :=
  "\x1b[" ++ code ++ "m"

/-- The text between the sequences of its styles; the text itself is not looked into. -/
def styled (styles : List Style) (text : String) : String :=
  String.join (styles.map (controlSequence ·.onCode)) ++ text ++
    String.join (styles.map (controlSequence ·.offCode))

end OpcodeTable.Text
