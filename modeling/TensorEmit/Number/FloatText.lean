import TensorEmit.Number.Shortest

/-!
# The text of a float

A float is written with its shortest digits. From `10 ^ -4` to below `10 ^ 16` the point stands in
its place and a whole number keeps one zero after it; elsewhere one digit stands before the point
and an exponent with a sign and at least two digits follows.
-/

namespace TensorEmit.Number

/-- The decisions on how a float is written. -/
structure FloatStyle where
  /-- Values from this power of ten on have the point in its place. -/
  leastPlain : Int
  /-- Values below this power of ten have the point in its place. -/
  plainBound : Int
  /-- The least number of digits of an exponent. -/
  exponentWidth : Nat

/-- The style of generated code and of messages. -/
def FloatStyle.standard : FloatStyle := ⟨-4, 16, 2⟩

/-- The fraction `10 ^ e`. -/
def Ratio.powerOfTen (e : Int) : Ratio :=
  if 0 ≤ e then ⟨Nat.pow 10 e.toNat, 1⟩ else ⟨1, Nat.pow 10 (-e).toNat⟩

/-- The digits of a number without the zeros at its end. -/
def significantDigits (n : Nat) : List Char :=
  let ds := ((Nat.toDigits 10 n).reverse.dropWhile (· = '0')).reverse
  if ds.isEmpty then ['0'] else ds

/-- Digits with the point after the first `place` of them, filled with zeros on either side. -/
def plainDigits (ds : List Char) (place : Int) : List Char :=
  if place ≤ 0 then '0' :: '.' :: (List.replicate (-place).toNat '0' ++ ds)
  else
    let whole := (ds ++ List.replicate (place.toNat - ds.length) '0').take place.toNat
    let rest := ds.drop place.toNat
    whole ++ '.' :: (if rest.isEmpty then ['0'] else rest)

/-- Digits with an exponent; the value is `0.ds * 10 ^ place`. -/
def exponentDigits (style : FloatStyle) (ds : List Char) (place : Int) : List Char :=
  let e := place - 1
  let es := Nat.toDigits 10 e.natAbs
  let mantissa := match ds with
    | [] => ['0']
    | [d] => [d]
    | d :: rest => d :: '.' :: rest
  mantissa ++ 'e' :: (if e < 0 then '-' else '+') ::
    (List.replicate (style.exponentWidth - es.length) '0' ++ es)

/-- The text of a positive finite float. -/
def positiveText (style : FloatStyle) (fmt : BinaryFormat) (m : Nat) (e : Int) : List Char :=
  let v := Ratio.ofDyadic m e
  let d := shortest fmt m e
  let place := d.exponent + ((Nat.toDigits 10 d.digits).length : Int)
  let ds := significantDigits d.digits
  if (Ratio.powerOfTen style.leastPlain).le v && v.lt (Ratio.powerOfTen style.plainBound) then
    plainDigits ds place
  else exponentDigits style ds place

/-- The text of a float. -/
def floatText (fmt : BinaryFormat) (bits : Nat) : String :=
  match fmt.read bits with
  | .nan _ _ => "nan"
  | .infinite neg => if neg then "-inf" else "inf"
  | .finite neg m e =>
    let body := if m = 0 then ['0', '.', '0'] else positiveText .standard fmt m e
    String.ofList (if neg then '-' :: body else body)

end TensorEmit.Number
