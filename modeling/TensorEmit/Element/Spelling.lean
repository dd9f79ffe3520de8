import TensorEmit.Element

/-!
# Spellings of element types

A text can name an element type in several ways: by a name, by one letter, or by the letter of a
family with the number of bytes. A mark in front of a letter tells the order of the bytes; names
have no mark.
-/

namespace TensorEmit.ElementType

/-- The names of element types. -/
def names : List (ElementType × List String) :=
  [(bool, ["bool", "bool_", "bool8"]), (int8, ["int8", "byte"]), (int16, ["int16", "short"]),
   (int32, ["int32", "intc"]),
   (int64, ["int64", "int", "int_", "int0", "long", "longlong", "intp"]),
   (uint8, ["uint8", "ubyte"]), (uint16, ["uint16", "ushort"]), (float32, ["float32", "single"]),
   (float64, ["float64", "double", "float", "float_"])]

/-- The type that one letter stands for. -/
def ofLetter? : Char → Option ElementType
  | '?' => some bool
  | 'b' => some int8
  | 'h' => some int16
  | 'i' => some int32
  | 'l' | 'q' | 'p' => some int64
  | 'B' => some uint8
  | 'H' => some uint16
  | 'f' => some float32
  | 'd' => some float64
  | _ => none

/-- The type of a family with a number of bytes. -/
def ofFamily? : Char → Nat → Option ElementType
  | 'b', 1 => some bool
  | 'i', 1 => some int8
  | 'i', 2 => some int16
  | 'i', 4 => some int32
  | 'i', 8 => some int64
  | 'u', 1 => some uint8
  | 'u', 2 => some uint16
  | 'f', 4 => some float32
  | 'f', 8 => some float64
  | _, _ => none

/-- A blank before a number. -/
def isGap (c : Char) : Bool := c = ' ' || (9 ≤ c.toNat && c.toNat ≤ 13)

/-- A number of bytes, before which blanks and a plus sign may stand. -/
def byteCount? (cs : List Char) : Option Nat :=
  let ds := match cs.dropWhile isGap with
    | '+' :: ds => ds
    | ds => ds
  if !ds.isEmpty && ds.all Char.isDigit then
    some (ds.foldl (fun n d => 10 * n + (d.toNat - 48)) 0)
  else none

/-- The type of a letter, alone or with a number of bytes. -/
def ofCode? : List Char → Option ElementType
  | [] => none
  | [c] => ofLetter? c
  | c :: cs => (byteCount? cs).bind (ofFamily? c)

/-- The same elements with the high byte first, which only elements of several bytes have. -/
def highFirst? (t : ElementType) : Option ElementType :=
  if t.width = 1 then some t
  else
    match t with
    | float32 => some float32High
    | int32 => some int32High
    | _ => none

/-- The type of a code that may have a mark for the order of the bytes in front. -/
def ofMarkedCode? : List Char → Option ElementType
  | '>' :: cs => (ofCode? cs).bind highFirst?
  | '<' :: cs | '=' :: cs | '|' :: cs => ofCode? cs
  | cs => ofCode? cs

/-- The element type that a text spells. -/
def ofSpelling? (s : String) : Option ElementType :=
  match ofMarkedCode? s.toList with
  | some t => some t
  | none => (names.find? fun e => e.2.contains s).map Prod.fst

end TensorEmit.ElementType
