import IntScript.Name
import IntScript.Text.Quoted

/-!
The functions that the host lends to a program.

A builtin answers an integer, may write a text, and changes nothing of the program. Every call is kept
in the history of a run: a builtin may answer by what was called before, and the output of a run is
read off from its history. So a run with given builtins is determined by the program alone.
-/

namespace IntScript

structure HostCall where
  function : String
  arguments : List Int32
  output : String
deriving DecidableEq

/-- The calls of builtins so far, the latest first. -/
abbrev History := List HostCall

/-- A function of the host. Its answer depends on the arguments and on the calls before this one, and
what it writes on the arguments; it takes any number of them. -/
structure Builtin where
  name : String
  answer : History → List Int32 → Int32
  output : List Int32 → String

namespace Builtin

/-- A builtin that writes nothing and answers by its arguments only. -/
def ofFunction (name : String) (f : List Int32 → Int32) : Builtin :=
  ⟨name, fun _ arguments => f arguments, fun _ => ""⟩

def printlnName : String := "println"

/-- The output function. It writes its arguments on one line, separated by spaces, and answers
zero. -/
def println : Builtin :=
  ⟨printlnName, fun _ _ => 0, fun arguments => " ".intercalate (arguments.map toString) ++ "\n"⟩

def record (builtin : Builtin) (arguments : List Int32) : HostCall :=
  ⟨builtin.name, arguments, builtin.output arguments⟩

end Builtin

/-- The builtins of an interpreter, in the order in which their names were first registered. -/
structure Builtins where
  entries : List Builtin

namespace Builtins

def none : Builtins := ⟨[]⟩

/-- Put a builtin in the place of the entry that has its name, or at the end if there is none. -/
def place (builtin : Builtin) : List Builtin → List Builtin
  | [] => [builtin]
  | entry :: entries =>
      if entry.name = builtin.name then builtin :: entries else entry :: place builtin entries

/-- Register a builtin. An entry of the same name is replaced and keeps its place. -/
def insert (builtins : Builtins) (builtin : Builtin) : Builtins :=
  ⟨place builtin builtins.entries⟩

def standard : Builtins :=
  none.insert Builtin.println

def size (builtins : Builtins) : Nat :=
  builtins.entries.length

def names (builtins : Builtins) : List String :=
  builtins.entries.map (·.name)

/-- The names in quotes, for someone who inspects the registry. -/
def inspect (builtins : Builtins) : String :=
  "[" ++ ", ".intercalate (builtins.names.map Text.quote) ++ "]"

end Builtins

namespace History

/-- The arguments of the calls of the named builtin, the earliest call first. -/
def callsOf (name : String) (history : History) : List (List Int32) :=
  (history.reverse.filter (fun call => call.function == name)).map (·.arguments)

def output (history : History) : String :=
  String.join (history.reverse.map (·.output))

end History

structure PrintBuffer where
  text : String

namespace PrintBuffer

def empty : PrintBuffer := ⟨""⟩

def write (buffer : PrintBuffer) (text : String) : PrintBuffer :=
  ⟨buffer.text ++ text⟩

def println (buffer : PrintBuffer) (line : String) : PrintBuffer :=
  (buffer.write line).write "\n"

end PrintBuffer

end IntScript
