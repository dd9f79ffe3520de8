/-!
# Binary floating point

A float is held by its bit pattern. This module reads a pattern as a sign, a whole mantissa and a
power of two, and rounds a dyadic number to the nearest pattern, ties to the even mantissa. All of
it is arithmetic on whole numbers.
-/

namespace TensorEmit.Number

/-- A binary format: the widths of the exponent field and of the fraction field. -/
structure BinaryFormat where
  exponentBits : Nat
  fractionBits : Nat
  deriving DecidableEq, Repr

/-- The format of 32 bits. -/
def single : BinaryFormat := ⟨8, 23⟩

/-- The format of 64 bits. -/
def double : BinaryFormat := ⟨11, 52⟩

/-- What a bit pattern stands for; `finite` is `mantissa * 2 ^ exponent` with a sign. -/
inductive Reading where
  | nan (negative : Bool) (payload : Nat)
  | infinite (negative : Bool)
  | finite (negative : Bool) (mantissa : Nat) (exponent : Int)
  deriving DecidableEq, Repr

namespace BinaryFormat

variable (fmt : BinaryFormat)

/-- The number that is added to the exponent of a normal float in its exponent field. -/
def bias : Nat := Nat.pow 2 (fmt.exponentBits - 1) - 1

/-- The exponent field of infinities and of patterns that are no number. -/
def topField : Nat := Nat.pow 2 fmt.exponentBits - 1

/-- The bits of positive infinity. -/
def infinity : Nat := fmt.topField * Nat.pow 2 fmt.fractionBits

/-- The bits of negative zero, which is the sign bit alone. -/
def signBit : Nat := Nat.pow 2 (fmt.exponentBits + fmt.fractionBits)

/-- The exponent of the last place of the smallest floats. -/
def leastExponent : Int := 1 - (fmt.bias : Int) - (fmt.fractionBits : Int)

/-- The exponent field of a pattern. -/
def field (bits : Nat) : Nat := bits / Nat.pow 2 fmt.fractionBits % Nat.pow 2 fmt.exponentBits

/-- The fraction field of a pattern. -/
def fraction (bits : Nat) : Nat := bits % Nat.pow 2 fmt.fractionBits

/-- Whether the sign bit of a pattern is set. -/
def negative (bits : Nat) : Bool := bits / fmt.signBit % 2 == 1

/-- Reads a bit pattern. -/
def read (bits : Nat) : Reading :=
  let e := fmt.field bits
  let f := fmt.fraction bits
  if e = fmt.topField then
    if f = 0 then .infinite (fmt.negative bits) else .nan (fmt.negative bits) f
  else if e = 0 then .finite (fmt.negative bits) f fmt.leastExponent
  else
    .finite (fmt.negative bits) (f + Nat.pow 2 fmt.fractionBits) (fmt.leastExponent + (e : Int) - 1)

/-- Puts a sign in front of a pattern without one. -/
def withSign (negative : Bool) (magnitude : Nat) : Nat :=
  if negative then fmt.signBit + magnitude else magnitude

/-- `m` divided by `2 ^ k`, rounded to the nearest whole number and in a tie to the even one. -/
def shiftRightToEven (m k : Nat) : Nat :=
  let d := Nat.pow 2 k
  let q := m / d
  let r := m % d
  if 2 * r < d then q else if d < 2 * r then q + 1 else if q % 2 = 0 then q else q + 1

/--
The pattern nearest to `mantissa * 2 ^ exponent`. A carry out of the mantissa raises the exponent
field by itself, because the two fields are added as one number; what passes the largest float is
infinite.
-/
def round (negative : Bool) (mantissa : Nat) (exponent : Int) : Nat :=
  if mantissa = 0 then fmt.withSign negative 0
  else
    let top := exponent + (mantissa.log2 : Int)
    let place := max (top - (fmt.fractionBits : Int)) fmt.leastExponent
    let rounded :=
      if place ≤ exponent then mantissa * Nat.pow 2 (exponent - place).toNat
      else shiftRightToEven mantissa (place - exponent).toNat
    let magnitude := (place - fmt.leastExponent).toNat * Nat.pow 2 fmt.fractionBits + rounded
    fmt.withSign negative (min magnitude fmt.infinity)

/-- The pattern nearest to a whole number. -/
def ofInt (n : Int) : Nat := fmt.round (decide (n < 0)) n.natAbs 0

/-- Whether a pattern is a zero of either sign. -/
def isZero (bits : Nat) : Bool := bits % fmt.signBit == 0

end BinaryFormat

/--
A float of one format in another. A pattern that is no number keeps its sign and the leading bits
of its payload and is made quiet.
-/
def convertFloat (src dst : BinaryFormat) (bits : Nat) : Nat :=
  match src.read bits with
  | .finite neg m e => dst.round neg m e
  | .infinite neg => dst.withSign neg dst.infinity
  | .nan neg payload =>
    let moved :=
      if src.fractionBits ≤ dst.fractionBits then
        payload * Nat.pow 2 (dst.fractionBits - src.fractionBits)
      else payload / Nat.pow 2 (src.fractionBits - dst.fractionBits)
    let quiet := Nat.pow 2 (dst.fractionBits - 1)
    let payload' := if moved / quiet % 2 = 1 then moved else moved + quiet
    dst.withSign neg (dst.infinity + payload')

/-- The whole part of a float, toward zero; `none` if it has none. -/
def truncateFloat? (fmt : BinaryFormat) (bits : Nat) : Option Int :=
  match fmt.read bits with
  | .finite neg m e =>
    let n : Int :=
      if 0 ≤ e then (m * Nat.pow 2 e.toNat : Nat) else (m / Nat.pow 2 (-e).toNat : Nat)
    some (if neg then -n else n)
  | _ => none

end TensorEmit.Number
