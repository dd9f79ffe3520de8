import TensorEmit.Options
import TensorEmit.Text.Quoted
import TensorEmit.Text.Similar

/-!
# Arguments of a command

A command has options, which have names that start with a dash, and positional arguments. An option
takes the next argument as its value, whatever that looks like; the value can also stand behind an
equals sign, or directly behind a name of one letter. Options of one letter that take no value can
share a dash. All that follows two dashes is positional.
-/

namespace TensorEmit.Command

/-- An option: what it sets, its names, and whether it takes a value. -/
structure OptionSpec (κ : Type) where
  key : κ
  names : List String
  takesValue : Bool

/-- What is wrong with the arguments of a command. -/
inductive UsageFault where
  | missingCommand
  | noCommand (name : String)
  /-- There is no such option, but there are similar ones. -/
  | noOption (name : String) (similar : List String)
  | needsValue (name : String)
  | takesNoValue (name : String)
  | missingOption (name : String)
  | missingArgument (name : String)
  | extraArguments (args : List String)
  deriving DecidableEq, Repr

/-- The wording of a usage fault. -/
def UsageFault.message : UsageFault → String
  | missingCommand => "Missing command."
  | noCommand name => "No such command " ++ Text.quoted name ++ "."
  | noOption name [] => "No such option: " ++ name
  | noOption name [s] => "No such option: " ++ name ++ " Did you mean " ++ s ++ "?"
  | noOption name similar =>
    "No such option: " ++ name ++ " (Possible options: " ++ ", ".intercalate similar ++ ")"
  | needsValue name => "Option " ++ Text.quoted name ++ " requires an argument."
  | takesNoValue name => "Option " ++ Text.quoted name ++ " does not take a value."
  | missingOption name => "Missing option " ++ Text.quoted name ++ "."
  | missingArgument name => "Missing argument " ++ Text.quoted name ++ "."
  | extraArguments [a] => "Got unexpected extra argument (" ++ a ++ ")"
  | extraArguments args => "Got unexpected extra arguments (" ++ " ".intercalate args ++ ")"

/-! ## One argument -/

/-- What one argument is. -/
inductive Reading (κ : Type) where
  | positional
  /-- Options with their values; a flag has none. -/
  | options (given : List (κ × String))
  /-- Options, and one more whose value is the next argument. -/
  | needsNext (given : List (κ × String)) (key : κ) (name : String)
  | refused (f : UsageFault)

/-- Whether an argument has the form of an option. -/
def isOption (arg : String) : Bool := arg.length > 1 && arg.toList.head? = some '-'

/-- Whether an argument starts with two dashes. -/
def isLong (arg : String) : Bool := arg.toList.take 2 = ['-', '-']

/-- A name and the value behind an equals sign. -/
def splitValue (arg : String) : String × Option String :=
  match arg.toList.dropWhile (· ≠ '=') with
  | [] => (arg, none)
  | _ :: value => (Text.before '=' arg, some (String.ofList value))

section

variable {κ : Type}

/-- The option of a name. -/
def findOption (specs : List (OptionSpec κ)) (name : String) : Option (OptionSpec κ) :=
  specs.find? fun s => s.names.contains name

/-- The names of options that start with two dashes. -/
def longNames (specs : List (OptionSpec κ)) : List String :=
  (specs.flatMap OptionSpec.names).filter isLong

/-- Reads an option whose name starts with two dashes. -/
def readLong (specs : List (OptionSpec κ)) (arg : String) : Reading κ :=
  let (name, value) := splitValue arg
  match findOption specs name, value with
  | none, _ => .refused (.noOption name (Text.similarWords name (longNames specs)))
  | some s, none => if s.takesValue then .needsNext [] s.key name else .options [(s.key, "")]
  | some s, some v =>
    if s.takesValue then .options [(s.key, v)] else .refused (.takesNoValue name)

/-- Reads options of one letter that share a dash, behind those read before. The first that takes a
value takes the other letters, if there are any. -/
def readLetters (specs : List (OptionSpec κ)) : List (κ × String) → List Char → Reading κ
  | given, [] => .options given
  | given, c :: rest =>
    let name := String.ofList ['-', c]
    match findOption specs name with
    | none => .refused (.noOption name [])
    | some s =>
      if !s.takesValue then readLetters specs (given ++ [(s.key, "")]) rest
      else if rest.isEmpty then .needsNext given s.key name
      else .options (given ++ [(s.key, String.ofList rest)])

/-- Reads one argument. -/
def readArgument (specs : List (OptionSpec κ)) (arg : String) : Reading κ :=
  if !isOption arg then .positional
  else if isLong arg then readLong specs arg
  else readLetters specs [] (arg.toList.drop 1)

/-! ## All arguments -/

/-- The options that were given, in order and with their values, and the positional arguments. -/
structure Given (κ : Type) where
  options : List (κ × String)
  positional : List String

/-- Nothing given. -/
def Given.none : Given κ := ⟨[], []⟩

/-- Adds options. -/
def Given.addOptions (g : Given κ) (options : List (κ × String)) : Given κ :=
  { g with options := g.options ++ options }

/-- Adds positional arguments. -/
def Given.addPositional (g : Given κ) (args : List String) : Given κ :=
  { g with positional := g.positional ++ args }

/-- Reads arguments and adds them to what was given before. If options and positional arguments may
not be mixed, all that follows a positional argument is positional. -/
def readAll (specs : List (OptionSpec κ)) (mixed : Bool) :
    Given κ → List String → Except UsageFault (Given κ)
  | g, [] => .ok g
  | g, arg :: rest =>
    if arg = "--" then .ok (g.addPositional rest)
    else
      match readArgument specs arg with
      | .positional =>
        if mixed then readAll specs mixed (g.addPositional [arg]) rest
        else .ok (g.addPositional (arg :: rest))
      | .options given => readAll specs mixed (g.addOptions given) rest
      | .refused f => .error f
      | .needsNext given key name =>
        match rest with
        | [] => .error (.needsValue name)
        | value :: rest' => readAll specs mixed (g.addOptions (given ++ [(key, value)])) rest'

variable [DecidableEq κ]

/-- The value of an option; the last one counts. -/
def Given.value? (g : Given κ) (key : κ) : Option String :=
  (g.options.reverse.find? fun e => e.1 = key).map Prod.snd

/-- Whether an option was given. -/
def Given.has (g : Given κ) (key : κ) : Bool := g.options.any fun e => e.1 = key

end

end TensorEmit.Command
