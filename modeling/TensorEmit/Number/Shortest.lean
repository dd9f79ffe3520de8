import TensorEmit.Number.Binary

/-!
# Shortest decimal digits

The shortest decimal that reads back as a given float. The reals that round to a float form an
interval around it, whose ends belong to it when the mantissa is even. On the grid of decimals with
one digit, then two, and so on, the two neighbours of the float are tried: the first grid on which
one of them lies in the interval gives the digits. Of two the nearer is taken, and in a tie the one
with the even last digit.
-/

namespace TensorEmit.Number

/-- A decimal number `digits * 10 ^ exponent`. -/
structure Decimal where
  digits : Nat
  exponent : Int
  deriving DecidableEq, Repr

/-- A positive fraction of whole numbers. -/
structure Ratio where
  num : Nat
  den : Nat
  deriving Repr

/-- The fraction `m * 2 ^ e`. -/
def Ratio.ofDyadic (m : Nat) (e : Int) : Ratio :=
  if 0 ≤ e then ⟨m * Nat.pow 2 e.toNat, 1⟩ else ⟨m, Nat.pow 2 (-e).toNat⟩

/-- The fraction divided by `10 ^ e`. -/
def Ratio.scale (r : Ratio) (e : Int) : Ratio :=
  if 0 ≤ e then ⟨r.num, r.den * Nat.pow 10 e.toNat⟩
  else ⟨r.num * Nat.pow 10 (-e).toNat, r.den⟩

/-- Whether the first fraction is less than the second. -/
def Ratio.lt (a b : Ratio) : Bool := decide (a.num * b.den < b.num * a.den)

/-- Whether the first fraction is at most the second. -/
def Ratio.le (a b : Ratio) : Bool := decide (a.num * b.den ≤ b.num * a.den)

/--
The number of digits before the point of a positive fraction: the least `k` with `r < 10 ^ k`, which
is zero or less for a fraction below one. The search passes all exponents a float can have.
-/
def Ratio.pointPlace (r : Ratio) : Int :=
  if r.den ≤ r.num then ((Nat.toDigits 10 (r.num / r.den)).length : Int)
  else
    match (List.range 400).find? (fun k => decide (r.den ≤ r.num * Nat.pow 10 k)) with
    | some k => 1 - (k : Int)
    | none => -400

/-- The reals that round to a float; the ends count when `closed` is set. -/
structure RoundingInterval where
  low : Ratio
  high : Ratio
  closed : Bool

/-- The interval of a finite float. Below a power of two the lower neighbour is half as far. -/
def BinaryFormat.interval (fmt : BinaryFormat) (m : Nat) (e : Int) : RoundingInterval :=
  let power := m == Nat.pow 2 fmt.fractionBits && decide (fmt.leastExponent < e)
  let low :=
    if power then Ratio.ofDyadic (4 * m - 1) (e - 2) else Ratio.ofDyadic (2 * m - 1) (e - 1)
  ⟨low, Ratio.ofDyadic (2 * m + 1) (e - 1), m % 2 == 0⟩

/-- Whether the interval holds a decimal. -/
def RoundingInterval.holds (i : RoundingInterval) (d : Decimal) : Bool :=
  let low := i.low.scale d.exponent
  let high := i.high.scale d.exponent
  let v : Ratio := ⟨d.digits, 1⟩
  if i.closed then low.le v && v.le high else low.lt v && v.lt high

/-- The decimal on the grid `10 ^ exponent` that stands for `v`, if a neighbour of `v` is held. -/
def neighbour? (i : RoundingInterval) (v : Ratio) (exponent : Int) : Option Decimal :=
  let s := v.scale exponent
  let c := s.num / s.den
  let below : Decimal := ⟨c, exponent⟩
  let above : Decimal := ⟨c + 1, exponent⟩
  match i.holds below, i.holds above with
  | false, false => none
  | true, false => some below
  | false, true => some above
  | true, true =>
    let twice := 2 * (s.num % s.den)
    if twice < s.den then some below
    else if s.den < twice then some above
    else if c % 2 = 0 then some below else some above

/-- The shortest decimal that reads back as the positive float `m * 2 ^ e`. -/
def shortest (fmt : BinaryFormat) (m : Nat) (e : Int) : Decimal :=
  let v := Ratio.ofDyadic m e
  let i := fmt.interval m e
  let place := v.pointPlace
  match (List.range 17).findSome? (fun (n : Nat) => neighbour? i v (place - (n : Int) - 1)) with
  | some d => d
  | none => ⟨0, 0⟩

end TensorEmit.Number
