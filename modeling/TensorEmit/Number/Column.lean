import TensorEmit.Number.FloatText

/-!
# Floats in a column

The floats of an array are written to one width, so that their points stand below each other. A
float keeps at most eight digits after the point. If the floats are far apart, very large or very
small, all of them have an exponent, and then as many digits after the point and in the exponent as
the longest of them needs.
-/

namespace TensorEmit.Number

/-- The greatest number of digits after the point. -/
def columnPlaces : Nat := 8

/-- The decimal on the grid `10 ^ exponent` nearest to a fraction, in a tie the even one. -/
def nearestDecimal (v : Ratio) (exponent : Int) : Decimal :=
  let s := v.scale exponent
  let c := s.num / s.den
  let twice := 2 * (s.num % s.den)
  ⟨if twice < s.den then c else if s.den < twice then c + 1 else if c % 2 = 0 then c else c + 1,
    exponent⟩

/-- The shortest decimal of a positive float if its last digit has at least the place `lowest`,
otherwise the nearest decimal that ends there. -/
def decimalDownTo (fmt : BinaryFormat) (m : Nat) (e : Int) (lowest : Int) : Decimal :=
  let d := shortest fmt m e
  if lowest ≤ d.exponent then d else nearestDecimal (Ratio.ofDyadic m e) lowest

/-! ## When exponents are needed -/

/-- The absolute values of the finite floats other than zero. -/
def magnitudes (fmt : BinaryFormat) (bits : List Nat) : List Ratio :=
  bits.filterMap fun b =>
    match fmt.read b with
    | .finite _ m e => if m = 0 then none else some (Ratio.ofDyadic m e)
    | _ => none

/-- Whether a quotient is above 1000 once it is rounded to the format. -/
def quotientAbove (fmt : BinaryFormat) (a b : Ratio) : Bool :=
  let unit := Nat.pow 2 (fmt.fractionBits - 8)
  decide (b.num * a.den * (1000 * unit + 1) < a.num * b.den * unit)

/-- Whether the floats of a column have exponents: one is at least `10 ^ 8`, one is below `10 ^ -4`,
or the largest is more than 1000 times the smallest. -/
def needsExponent (fmt : BinaryFormat) (bits : List Nat) : Bool :=
  match magnitudes fmt bits with
  | [] => false
  | v :: vs =>
    let high := vs.foldl (fun a b => if a.lt b then b else a) v
    let low := vs.foldl (fun a b => if b.lt a then b else a) v
    (Ratio.powerOfTen 8).le high || low.lt (Ratio.powerOfTen (-4)) || quotientAbove fmt high low

/-! ## The parts of a number -/

/-- A number as it is written: what stands before the point, the digits after it, and the exponent
with its sign. -/
structure NumberParts where
  whole : List Char
  places : List Char
  exponent : Option (Char × List Char)
  deriving Repr

/-- The digits of a decimal without the zeros at its end, and the place of the point in them. -/
def Decimal.digitsAndPlace (d : Decimal) : List Char × Int :=
  if d.digits = 0 then ([], 1)
  else
    let ds := Nat.toDigits 10 d.digits
    ((ds.reverse.dropWhile (· = '0')).reverse, d.exponent + (ds.length : Int))

/-- A finite float with its point in its place. -/
def plainParts (fmt : BinaryFormat) (neg : Bool) (m : Nat) (e : Int) : NumberParts :=
  let (ds, place) :=
    if m = 0 then ([], 1) else (decimalDownTo fmt m e (-(columnPlaces : Int))).digitsAndPlace
  let n := place.toNat
  let whole := (ds ++ List.replicate (n - ds.length) '0').take n
  let whole := if whole.isEmpty then ['0'] else whole
  let places := if place < 0 then List.replicate (-place).toNat '0' ++ ds else ds.drop n
  ⟨if neg then '-' :: whole else whole, places, none⟩

/-- A finite float with an exponent. -/
def exponentParts (fmt : BinaryFormat) (neg : Bool) (m : Nat) (e : Int) : NumberParts :=
  let (ds, place) :=
    if m = 0 then ([], 1)
    else
      let top := (Ratio.ofDyadic m e).pointPlace
      (decimalDownTo fmt m e (top - 1 - (columnPlaces : Int))).digitsAndPlace
  let whole := [ds.headD '0']
  let x := place - 1
  let xs := Nat.toDigits 10 x.natAbs
  ⟨if neg then '-' :: whole else whole, ds.tail,
    some (if x < 0 then '-' else '+', List.replicate (2 - xs.length) '0' ++ xs)⟩

/-! ## Words of one width -/

/-- The greatest of some lengths. -/
def greatest (ns : List Nat) : Nat := ns.foldl max 0

/-- Characters with blanks before them up to a width. -/
def padLeft (width : Nat) (cs : List Char) : List Char :=
  List.replicate (width - cs.length) ' ' ++ cs

/-- The widths of a column: before the point, after it, and of the exponents if there are any. -/
structure ColumnWidths where
  whole : Nat
  places : Nat
  exponent : Option Nat

/-- The number of characters from the point on. -/
def ColumnWidths.tail (w : ColumnWidths) : Nat :=
  match w.exponent with
  | some x => w.places + 2 + x + 1
  | none => w.places + 1

/-- The widths that some numbers need. -/
def ColumnWidths.of (withExponent : Bool) (ps : List NumberParts) : ColumnWidths :=
  ⟨greatest (ps.map fun p => p.whole.length), greatest (ps.map fun p => p.places.length),
    if withExponent then
      some (greatest (ps.map fun p => (p.exponent.map fun x => x.2.length).getD 0))
    else none⟩

/-- A number in a column: with exponents zeros fill up the places, otherwise blanks do. -/
def NumberParts.word (w : ColumnWidths) (p : NumberParts) : List Char :=
  padLeft w.whole p.whole ++ '.' :: p.places ++
    match w.exponent, p.exponent with
    | some x, some (sign, ds) =>
      List.replicate (w.places - p.places.length) '0' ++ 'e' :: sign ::
        (List.replicate (x - ds.length) '0' ++ ds)
    | _, _ => List.replicate (w.places - p.places.length) ' '

/-- The parts of a float that is finite. -/
def partsOf (withExponent : Bool) (fmt : BinaryFormat) (bits : Nat) : Option NumberParts :=
  match fmt.read bits with
  | .finite neg m e =>
    some (if withExponent then exponentParts fmt neg m e else plainParts fmt neg m e)
  | _ => none

/-- A float that is not finite. -/
def specialText (fmt : BinaryFormat) (bits : Nat) : List Char := (floatText fmt bits).toList

/-- The words for the floats of a column. A float that is not finite may widen the column. -/
def columnWords (fmt : BinaryFormat) (bits : List Nat) : List String :=
  let withExponent := needsExponent fmt bits
  let finite := bits.filterMap (partsOf withExponent fmt)
  let special := bits.filter fun b => (partsOf withExponent fmt b).isNone
  let w := if finite.isEmpty then ⟨0, 0, none⟩ else ColumnWidths.of withExponent finite
  let room := if special.any fun b => specialText fmt b = ['-', 'i', 'n', 'f'] then 4 else 3
  let w := if special.isEmpty then w else { w with whole := max w.whole (room - w.tail) }
  bits.map fun b =>
    String.ofList <|
      match partsOf withExponent fmt b with
      | some p => p.word w
      | none => padLeft (w.whole + w.tail) (specialText fmt b)

end TensorEmit.Number
