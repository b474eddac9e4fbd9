import IntScript.CallStack
import IntScript.Diagnostic.Terminal

/-!
The options of a command.
-/

namespace IntScript

/-- What follows the name of a command: one path, and settings in any order around it. -/
structure Options where
  path : String
  /-- How many calls may nest; unlimited if there is none. -/
  maxDepth : Option Nat
  color : ColorMode
deriving DecidableEq

inductive OptionError where
  | missingPath
  | unexpectedArgument (argument : String)
  | unknownOption (argument : String)
  | invalidValue (option value : String)
deriving DecidableEq

namespace OptionError

def message : OptionError → String
  | missingPath => "missing file path"
  | unexpectedArgument argument => s!"unexpected argument '{argument}'"
  | unknownOption argument => s!"unknown option '{argument}'"
  | invalidValue option value => s!"invalid value '{value}' for {option}"

end OptionError

namespace Options

/-- The rest of a text after a lead, if the text starts with it. -/
def after? (lead text : String) : Option String :=
  if lead.toList.isPrefixOf text.toList then
    some (String.ofList (text.toList.drop lead.toList.length))
  else
    none

def largestDepth : Nat := 18446744073709551615

/-- The number that a text denotes: digits, with one plus sign in front if wanted. -/
def decimal? (text : String) : Option Nat :=
  let digits :=
    match text.toList with
    | '+' :: digits => digits
    | digits => digits
  if digits.isEmpty || !digits.all Char.isDigit then
    none
  else
    let value := digits.foldl (fun value digit => value * 10 + (digit.toNat - '0'.toNat)) 0
    if value ≤ largestDepth then some value else none

/-- The limit on nested calls that a text denotes: a positive number, or the word for no limit. -/
def depth? (text : String) : Option (Option Nat) :=
  if text = "unlimited" then
    some none
  else
    match decimal? text with
    | some 0 | none => none
    | some depth => some (some depth)

/-- What the arguments read so far say. The path may still be missing. -/
structure Draft where
  path : Option String
  maxDepth : Option Nat
  color : ColorMode

def defaults : Draft :=
  { path := none, maxDepth := some CallStack.defaultLimit, color := .auto }

/-- Take account of one argument. A setting given again replaces the earlier one; a second path is an
error. -/
def step (options : Draft) (argument : String) : Except OptionError Draft :=
  match after? "--max-depth=" argument with
  | some value =>
      match depth? value with
      | some maxDepth => .ok { options with maxDepth }
      | none => .error (.invalidValue "--max-depth" value)
  | none =>
      match after? "--color=" argument with
      | some value =>
          match ColorMode.ofText? value with
          | some color => .ok { options with color }
          | none => .error (.invalidValue "--color" value)
      | none =>
          if argument.toList.head? = some '-' then
            .error (.unknownOption argument)
          else
            match options.path with
            | none => .ok { options with path := some argument }
            | some _ => .error (.unexpectedArgument argument)

/-- The options that arguments give. The first argument that cannot be understood decides the error;
a missing path is noticed last. -/
def ofArguments (arguments : List String) : Except OptionError Options := do
  let options ← arguments.foldlM step defaults
  match options.path with
  | some path => .ok { path, maxDepth := options.maxDepth, color := options.color }
  | none => .error .missingPath

end Options

end IntScript
