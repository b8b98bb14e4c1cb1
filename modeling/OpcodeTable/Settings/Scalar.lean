import OpcodeTable.Decimal.Shortest
import OpcodeTable.Settings.Mismatch

/-!
# What a plain scalar denotes

A scalar without quotes may denote nothing, a truth value, an integer or a floating point number.
All other scalars are texts. Digits after a leading zero do not make a number.
-/

namespace OpcodeTable.Settings

def isNull (text : String) : Bool :=
  ["null", "Null", "NULL", "~"].contains text

def boolean? (text : String) : Option Bool :=
  if ["true", "True", "TRUE"].contains text then some true
  else if ["false", "False", "FALSE"].contains text then some false
  else none

/-! ## Integers -/

/-- The value of a digit in a base of at most sixteen. -/
def digit? (base : Nat) (c : Char) : Option Nat :=
  let n :=
    if c.isDigit then c.toNat - '0'.toNat
    else if 'a' ≤ c && c ≤ 'f' then c.toNat - 'a'.toNat + 10
    else if 'A' ≤ c && c ≤ 'F' then c.toNat - 'A'.toNat + 10
    else base
  if n < base then some n else none

/-- The number that digits denote; there has to be one. -/
def digits? (base : Nat) (cs : List Char) : Option Nat :=
  if cs.isEmpty then none else cs.foldlM (fun n c => (digit? base c).map (n * base + ·)) 0

/-- Leave out a sign. -/
def unsigned : List Char → List Char
  | '+' :: cs => cs
  | '-' :: cs => cs
  | cs => cs

/-- Digits that do not denote a number because of a leading zero. -/
def hasLeadingZero (cs : List Char) : Bool :=
  match unsigned cs with
  | '0' :: c :: rest => (c :: rest).all Char.isDigit
  | _ => false

/-- A natural number, with the base that its first characters name. -/
def natural? : List Char → Option Nat
  | '0' :: 'x' :: cs => digits? 16 cs
  | '0' :: 'o' :: cs => digits? 8 cs
  | '0' :: 'b' :: cs => digits? 2 cs
  | cs => if hasLeadingZero cs then none else digits? 10 cs

def integer? (cs : List Char) : Option Int :=
  match cs with
  | '-' :: cs => (natural? cs).map fun n => -(n : Int)
  | '+' :: cs => (natural? cs).map fun n => (n : Int)
  | cs => (natural? cs).map fun n => (n : Int)

/-- Whether an integer can be held in a number of bits, without a sign or with one. -/
def fitsBits (bits : Nat) (n : Int) : Bool :=
  match n with
  | .ofNat m => m < Nat.pow 2 bits
  | .negSucc m => m < Nat.pow 2 (bits - 1)

/-- An integer, unless it takes more than 128 bits. -/
def Found.ofInteger? (n : Int) : Option Found :=
  if fitsBits 64 n then some (.integer n)
  else if fitsBits 128 n then some (.wideInteger n (if 0 ≤ n then "u128" else "i128"))
  else none

/-! ## Floating point numbers -/

/-- The parts of a decimal number, which is `digits * 10 ^ exponent`. -/
structure Scientific where
  digits : Nat
  exponent : Int

/-- The exponent behind the digits, if there is one. -/
def exponent? : List Char → Option Int
  | [] => some 0
  | c :: cs =>
    if c == 'e' || c == 'E' then
      match cs with
      | '-' :: cs => (digits? 10 cs).map fun n => -(n : Int)
      | '+' :: cs => (digits? 10 cs).map fun n => (n : Int)
      | cs => (digits? 10 cs).map fun n => (n : Int)
    else
      none

/-- A decimal number without a sign. -/
def scientific? (cs : List Char) : Option Scientific :=
  let whole := cs.takeWhile Char.isDigit
  let rest := cs.dropWhile Char.isDigit
  let (fraction, rest) :=
    match rest with
    | '.' :: rest => (rest.takeWhile Char.isDigit, rest.dropWhile Char.isDigit)
    | rest => ([], rest)
  match digits? 10 (whole ++ fraction), exponent? rest with
  | some digits, some exponent => some ⟨digits, exponent - fraction.length⟩
  | _, _ => none

/-- A decimal exponent beyond which every number is zero or infinite. -/
def exponentLimit : Int := 400

/-- The nearest floating point number, if it is finite. -/
def Scientific.toFloat? (s : Scientific) : Option Float :=
  let size : Int := s.exponent + (Nat.toDigits 10 s.digits).length
  if s.digits = 0 || size < -exponentLimit then
    some 0
  else if exponentLimit < size then
    none
  else
    let x :=
      if 0 ≤ s.exponent then Float.ofScientific s.digits false s.exponent.toNat
      else Float.ofScientific s.digits true (-s.exponent).toNat
    if x.isFinite then some x else none

/-- The text of the floating point number that a scalar denotes. -/
def float? (text : String) : Option String :=
  if [".inf", ".Inf", ".INF", "+.inf", "+.Inf", "+.INF"].contains text then some "inf"
  else if ["-.inf", "-.Inf", "-.INF"].contains text then some "-inf"
  else if [".nan", ".NaN", ".NAN"].contains text then some "NaN"
  else
    let cs := text.toList
    let value := (scientific? (unsigned cs)).bind Scientific.toFloat?
    value.map fun x => Decimal.ofFloat (if cs.head? = some '-' then -x else x)

/-! ## Scalars -/

/-- What a scalar without quotes and without a tag of its own denotes. -/
def Found.ofPlain (text : String) : Found :=
  if text.isEmpty || isNull text then
    .emptyValue
  else
    let number := (integer? text.toList).bind Found.ofInteger?
    match boolean? text, number with
    | some value, _ => .boolean value
    | none, some found => found
    | none, none =>
      match if hasLeadingZero text.toList then none else float? text with
      | some digits => .float digits
      | none => .text text

/-- The tag of a standard type. -/
def standardTag (name : String) : String :=
  "tag:yaml.org,2002:" ++ name

/-- The mismatch of a scalar that stands where something else is expected. -/
def Mismatch.ofScalar (text : String) (isPlain : Bool) (tag : Option String)
    (expected : Expected) : Mismatch :=
  if tag = some (standardTag "bool") then
    match boolean? text with
    | some truth => .kind (.boolean truth) expected
    | none => .value text .boolean
  else if tag = some (standardTag "int") then
    match (integer? text.toList).bind Found.ofInteger? with
    | some found => .kind found expected
    | none => .value text .integer
  else if tag = some (standardTag "float") then
    match float? text with
    | some digits => .kind (.float digits) expected
    | none => .value text .float
  else if tag = some (standardTag "null") then
    if isNull text then .kind .emptyValue expected else .value text .null
  else if isPlain && (tag.all fun t => t.toList.head? == some '!') then
    .kind (Found.ofPlain text) expected
  else
    .kind (.text text) expected

end OpcodeTable.Settings
