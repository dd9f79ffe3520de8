import TensorEmit.Entries
import TensorEmit.Fault
import TensorEmit.Text.Classes
import TensorEmit.Text.Search

/-!
# Scoped options

An option may be meant for one reader only: its key is then the reader's scope, two low lines and
the option's name. A reader sees its own options first and the shared ones behind them.

A scope is a simple pattern: a point in it stands for any character but a line break, and a bar
divides alternatives, of which only the last is followed by an option name. A key that fits another
alternative is an own option without a name.
-/

namespace TensorEmit

/-- What is left of the characters after a pattern in which a point fits all but a line break. -/
def matchPattern : (pattern cs : List Char) → Option (List Char)
  | [], cs => some cs
  | _ :: _, [] => none
  | p :: ps, c :: cs =>
    if p = c ∨ (p = '.' ∧ c ≠ '\n') then matchPattern ps cs else none

/-- The identifier at the start of the characters. -/
def leadingIdent? : List Char → Option String
  | [] => none
  | c :: cs =>
    if Text.isIdentStart c then some (String.ofList (c :: cs.takeWhile Text.isWordChar)) else none

/-- The option name behind two low lines. -/
def optionName? : List Char → Option String
  | '_' :: '_' :: cs => leadingIdent? cs
  | _ => none

/-- The place of a key: shared, or own with the option name if it has one. -/
inductive OptionPlace where
  | shared
  | own (name : Option String)
  deriving DecidableEq, Repr

/-- The place of a key among the alternatives of a scope, the first that fits deciding. -/
def placeAmong (key : List Char) : List String → OptionPlace
  | [] => .shared
  | [last] =>
    match matchPattern last.toList key with
    | some rest =>
      match optionName? rest with
      | some name => .own (some name)
      | none => .shared
    | none => .shared
  | p :: rest =>
    match matchPattern p.toList key with
    | some _ => .own none
    | none => placeAmong key rest

/-- The place of a key in a scope. -/
def optionPlace (scope key : String) : OptionPlace :=
  placeAmong key.toList (Text.splitAt "|" scope)

/-- The options as the reader of one scope sees them. -/
structure Options where
  scope : String
  own : Entries (Option String) Value
  shared : Entries String Value

namespace Options

/-- Files one option. -/
def file (o : Options) (key : String) (v : Value) : Options :=
  match optionPlace o.scope key with
  | .shared => { o with shared := o.shared.set key v }
  | .own name => { o with own := o.own.set name v }

/-- The options of a scope. -/
def ofEntries (scope : String) (es : Entries String Value) : Options :=
  es.foldl (fun o e => o.file e.1 e.2) ⟨scope, [], []⟩

/-- The value of an option: the reader's own, or else the shared one. -/
def get? (o : Options) (name : String) : Option Value :=
  match o.own.get? (some name) with
  | some v => some v
  | none => o.shared.get? name

/-- The value of an option, or a default. -/
def getD (o : Options) (name : String) (default : Value) : Value := (o.get? name).getD default

/-- The value of an option that has to be there. -/
def get (o : Options) (name : String) : Except Fault Value :=
  match o.get? name with
  | some v => .ok v
  | none => .error (.missing name)

/-- All options the reader sees, its own first. -/
def toEntries (o : Options) : Entries (Option String) Value :=
  o.own ++ (o.shared.filter fun e => !o.own.has (some e.1)).map fun e => (some e.1, e.2)

/-- The full key of an own option. -/
def fullKey (o : Options) (name : Option String) : String :=
  o.scope ++ "__" ++ name.getD "None"

/-- The text that shows the scope and the reader's own options. -/
def describe (o : Options) : String :=
  let own := o.own.foldl (fun acc e => Entries.set acc (o.fullKey e.1) e.2) []
  "KWArgsParser(" ++ o.scope ++ ", " ++ (Value.ofFields own).quoted ++ ")"

end Options

/-! ## List arguments -/

/-- One signed entry of a list argument put into effect on the list so far. -/
def amendList (names : List String) (entry : String) : List String :=
  match entry.toList with
  | '+' :: cs => names ++ [String.ofList cs]
  | '-' :: cs => names.erase (String.ofList cs)
  | _ => names

/-- Whether an entry of a list argument adds to the default or takes from it. -/
def isSigned (entry : String) : Bool :=
  match entry.toList with
  | '+' :: _ => true
  | '-' :: _ => true
  | _ => false

/--
Reads a list argument. If an entry has a sign, the signed entries amend the default list and the
others are dropped; without a sign the entries are the list.
-/
def readListArgument (sep : String) (default? : Option String) (value : Value) :
    Except Fault (List String) := do
  if sep = "" then throw .emptySeparator
  let entries := Text.splitAt sep value.plain
  if entries.any (· = "") then throw .outOfRange
  let signed := entries.filter isSigned
  if signed.isEmpty then return entries
  match default? with
  | none => throw .noPart
  | some d => return signed.foldl amendList (Text.splitAt sep d)

end TensorEmit
