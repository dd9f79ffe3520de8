import TensorEmit.Text.Classes

/-!
# Reading whole numbers

A number may stand between blanks, may have one sign, and may have single low lines between its
digits. Digits of every script count. More than `maxDigits` digits are refused.
-/

namespace TensorEmit.Text

/-- The greatest number of digits a written number may have. -/
def maxDigits : Nat := 4300

/--
The value and the number of the digits of `cs`, after `count` digits of value `acc`. A low line has
to follow a digit, which `afterDigit` tells, and the text has to end with a digit.
-/
def readDigits : (cs : List Char) → (acc count : Nat) → (afterDigit : Bool) → Option (Nat × Nat)
  | [], acc, count, afterDigit => if afterDigit then some (acc, count) else none
  | c :: cs, acc, count, afterDigit =>
    if c = '_' then
      if afterDigit then readDigits cs acc count false else none
    else
      match digitValue? c with
      | some d => readDigits cs (10 * acc + d) (count + 1) true
      | none => none

/-- An unsigned number without blanks. -/
def readNat? (cs : List Char) : Option Nat :=
  match readDigits cs 0 0 false with
  | some (n, count) => if count ≤ maxDigits then some n else none
  | none => none

/-- The characters without the blanks at both ends. -/
def trimBlanks (cs : List Char) : List Char :=
  ((cs.dropWhile isBlank).reverse.dropWhile isBlank).reverse

/-- Reads a whole number. -/
def readInt? (s : String) : Option Int :=
  match trimBlanks s.toList with
  | '-' :: cs => (readNat? cs).map fun n => -(n : Int)
  | '+' :: cs => (readNat? cs).map fun n => (n : Int)
  | cs => (readNat? cs).map fun n => (n : Int)

end TensorEmit.Text
