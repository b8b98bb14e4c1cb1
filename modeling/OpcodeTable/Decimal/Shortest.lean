import OpcodeTable.Text.Numeral

/-!
# Shortest decimals

The text of a floating point number has the fewest digits that read back as the number, and of
those the nearest. It is written without an exponent and always has a decimal point.
-/

namespace OpcodeTable.Decimal

/-- A power of a base; a negative exponent counts as zero. -/
def scale (base : Nat) (exponent : Int) : Nat :=
  Nat.pow base exponent.toNat

/-- A positive number and the bounds of the reals that round to it, over one denominator. -/
structure Neighbourhood where
  low : Nat
  value : Nat
  high : Nat
  denominator : Nat
  /-- Whether the bounds themselves round to the number. -/
  closed : Bool

namespace Neighbourhood

/-- The neighbourhood of `mantissa * 2 ^ exponent`. The gap below a power of two is half as wide
as the gap above it. -/
def ofBinary (mantissa : Nat) (exponent : Int) (narrow : Bool) : Neighbourhood where
  low := (4 * mantissa - if narrow then 1 else 2) * scale 2 (exponent - 2)
  value := 4 * mantissa * scale 2 (exponent - 2)
  high := (4 * mantissa + 2) * scale 2 (exponent - 2)
  denominator := scale 2 (2 - exponent)
  closed := mantissa % 2 == 0

/-- The neighbourhood of a positive finite number of 64 bits, by the exponent field and the fraction
field of its bits. -/
def ofFields (field fraction : Nat) : Neighbourhood :=
  if field = 0 then
    ofBinary fraction (-1074) false
  else
    ofBinary (scale 2 52 + fraction) ((field : Int) - 1075) (fraction == 0 && 1 < field)

/-- Whether `digits * 10 ^ -places` rounds to the number. -/
def holds (n : Neighbourhood) (digits : Nat) (places : Int) : Bool :=
  let d := digits * n.denominator * scale 10 (-places)
  let low := n.low * scale 10 places
  let high := n.high * scale 10 places
  (low < d && d < high) || (n.closed && (d == low || d == high))

/-- The exponent of the power of ten at or below the number. -/
def magnitude (n : Neighbourhood) : Int :=
  if n.denominator ≤ n.value then
    ((Nat.toDigits 10 (n.value / n.denominator)).length : Int) - 1
  else
    -(((List.range 400).find? fun (k : Nat) => n.denominator ≤ n.value * scale 10 k).getD 0 : Nat)

/-- The nearest decimal with this many places among the two neighbours of the number that rounds
to it; of two at the same distance the greater. -/
def atPlaces? (n : Neighbourhood) (places : Int) : Option (Nat × Int) :=
  let value := n.value * scale 10 places
  let unit := n.denominator * scale 10 (-places)
  let below := value / unit
  match n.holds below places, n.holds (below + 1) places with
  | true, true => some (if 2 * (value % unit) < unit then below else below + 1, places)
  | true, false => some (below, places)
  | false, true => some (below + 1, places)
  | false, false => none

/-- The shortest decimal `digits * 10 ^ -places` that rounds to the number. Its last digit is not
zero: the number just below a power of ten may have that power as its shortest decimal. One of the
grids of at most seventeen digits always has such a decimal. -/
def shortest (n : Neighbourhood) : Nat × Int :=
  let top := n.magnitude
  let (digits, places) :=
    ((List.range 17).findSome? fun (i : Nat) => n.atPlaces? (i - top)).getD (0, 0)
  if digits % 10 = 0 then (digits / 10, places - 1) else (digits, places)

end Neighbourhood

/-- Write `digits * 10 ^ -places` without an exponent and with a decimal point. -/
def positional (digits : Nat) (places : Int) : String :=
  let text := Text.decimal (digits * scale 10 (-places))
  let k := places.toNat
  let padded := (Text.padLeft (k + 1) '0' text).toList
  let fraction := padded.drop (padded.length - k)
  String.ofList (padded.take (padded.length - k)) ++ "." ++
    if fraction.isEmpty then "0" else String.ofList fraction

/-- The text of a 64-bit floating point number. -/
def ofFloat (x : Float) : String :=
  let bits := x.toBits.toNat
  let sign := if bits / scale 2 63 = 1 then "-" else ""
  let field := bits / scale 2 52 % 2048
  let fraction := bits % scale 2 52
  if field = 2047 then
    if fraction = 0 then sign ++ "inf" else "NaN"
  else if field = 0 && fraction = 0 then
    sign ++ "0.0"
  else
    let (digits, places) := (Neighbourhood.ofFields field fraction).shortest
    sign ++ positional digits places

end OpcodeTable.Decimal
