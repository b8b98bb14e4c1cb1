import OpcodeTable.Text.Quoted

/-!
# Values that do not fit

The settings file and other sources of settings hold values of many kinds. A mismatch says which
kind was found where another one was expected.
-/

namespace OpcodeTable.Settings

/-- What was found in the place of the expected value. -/
inductive Found where
  | null
  | emptyValue
  | boolean (value : Bool)
  | integer (value : Int)
  /-- An integer beyond 64 bits, with the name of the type that holds it. -/
  | wideInteger (value : Int) (type : String)
  /-- A floating point number by its text. -/
  | float (digits : String)
  | text (value : String)
  | sequence
  | map
  deriving DecidableEq, Repr

def Found.describe : Found → String
  | null => "null"
  | emptyValue => "unit value"
  | boolean value => "boolean `" ++ toString value ++ "`"
  | integer value => "integer `" ++ toString value ++ "`"
  | wideInteger value type => "integer `" ++ toString value ++ "` as " ++ type
  | float digits => "floating point `" ++ digits ++ "`"
  | text value => "string " ++ Text.quoted value
  | sequence => "sequence"
  | map => "map"

/-- What was expected. -/
inductive Expected where
  | text
  | settings
  | settingName
  /-- The name of an opcode type, where any value may stand. -/
  | typeName
  /-- The name of an opcode type, where a tag can name it too. -/
  | typeTag
  | boolean
  | integer
  | float
  | null
  /-- Nothing, where a tag says everything. -/
  | nothing
  deriving DecidableEq, Repr

def Expected.describe : Expected → String
  | text => "a string"
  | settings => "struct EmitConfig"
  | settingName => "field identifier"
  | typeName => "string or map"
  | typeTag => "a YAML tag starting with '!'"
  | boolean => "a boolean"
  | integer => "an integer"
  | float => "a float"
  | null => "null"
  | nothing => "unit"

inductive Mismatch where
  | kind (found : Found) (expected : Expected)
  /-- A text that does not denote a value of the type that its tag names. -/
  | value (text : String) (expected : Expected)
  | unknownType (name : String)
  | repeatedSetting (key : String)
  deriving DecidableEq, Repr

def Mismatch.message : Mismatch → String
  | kind found expected =>
    "invalid type: " ++ found.describe ++ ", expected " ++ expected.describe
  | value text expected =>
    "invalid value: string " ++ Text.quoted text ++ ", expected " ++ expected.describe
  | unknownType name => "unknown variant `" ++ name ++ "`, expected `u8` or `u16`"
  | repeatedSetting key => "duplicate field `" ++ key ++ "`"

end OpcodeTable.Settings
