import IntScript.Diagnostic

/-!
Runtime errors.

A `Fault` says what went wrong, a `Failure` adds the functions that were running. Both speak of
names of a type of their own choice: the machine raises them with `Name`s, and what is shown to a
person holds the texts.
-/

namespace IntScript

inductive Fault (ν : Type) where
  /-- The scope declares the variable already. -/
  | duplicateVariable (name : ν)
  /-- The scope declares the function already. -/
  | duplicateFunction (name : ν)
  /-- No scope in reach declares the variable. -/
  | undefinedVariable (name : ν)
  /-- No scope in reach declares the function. -/
  | undefinedFunction (name : ν)
  /-- A call brings another number of arguments than the function has parameters. -/
  | arityMismatch (name : ν) (expected got : Nat)
  | divisionByZero
  | moduloByZero
  /-- One more call would exceed the limit on nested calls. -/
  | callDepthExceeded (limit : Nat)
deriving DecidableEq

namespace Fault

def map {ν μ : Type} (f : ν → μ) : Fault ν → Fault μ
  | duplicateVariable name => duplicateVariable (f name)
  | duplicateFunction name => duplicateFunction (f name)
  | undefinedVariable name => undefinedVariable (f name)
  | undefinedFunction name => undefinedFunction (f name)
  | arityMismatch name expected got => arityMismatch (f name) expected got
  | divisionByZero => divisionByZero
  | moduloByZero => moduloByZero
  | callDepthExceeded limit => callDepthExceeded limit

def code {ν : Type} : Fault ν → ErrorCode
  | duplicateVariable _ => .duplicateVariable
  | duplicateFunction _ => .duplicateFunction
  | undefinedVariable _ => .undefinedVariable
  | undefinedFunction _ => .undefinedFunction
  | arityMismatch _ _ _ => .argumentCount
  | divisionByZero => .divisionByZero
  | moduloByZero => .moduloByZero
  | callDepthExceeded _ => .callDepth

def message : Fault String → String
  | duplicateVariable name => s!"variable `{name}` is already declared in this scope"
  | duplicateFunction name => s!"function `{name}` is already declared in this scope"
  | undefinedVariable name => s!"undefined variable `{name}`"
  | undefinedFunction name => s!"undefined function `{name}`"
  | arityMismatch name expected got =>
      let noun := if expected = 1 then "argument" else "arguments"
      s!"function `{name}` takes {expected} {noun}, got {got}"
  | divisionByZero => "division by zero"
  | moduloByZero => "modulo by zero"
  | callDepthExceeded limit => s!"call depth limit of {limit} exceeded"

def help : Fault String → List String
  | undefinedVariable name => [s!"declare it before use with `var {name} = ...`"]
  | duplicateVariable name => [s!"use `{name} = ...` to assign to the existing variable"]
  | callDepthExceeded _ => ["raise the limit with `--max-depth=N` or `--max-depth=unlimited`"]
  | _ => []

end Fault

/-- The functions that were running when a fault arose, the innermost first. -/
abbrev Backtrace (ν : Type) := List ν

namespace Backtrace

/-- The frames, one a line, numbered from the innermost. -/
def text (frames : Backtrace String) : String :=
  "\n".intercalate (frames.mapIdx (fun i frame => s!"  {i}: {frame}"))

/-- How many frames are named in a report before the rest is only counted. -/
def shownFrames : Nat := 8

/-- The notes a report carries: the innermost calls by name, and the number of the others. -/
def notes (frames : Backtrace String) : List String :=
  let shown := (frames.take shownFrames).map (fun frame => s!"in call to `{frame}`")
  if frames.length > shownFrames then
    shown ++ [s!"... and {frames.length - shownFrames} more calls"]
  else
    shown

end Backtrace

/-- A fault that ended a run, with the calls it ended. -/
structure Failure (ν : Type) where
  fault : Fault ν
  backtrace : Backtrace ν
deriving DecidableEq

namespace Failure

def map {ν μ : Type} (f : ν → μ) (failure : Failure ν) : Failure μ :=
  ⟨failure.fault.map f, failure.backtrace.map f⟩

/-- The report of a failure. It has no labels, for a running program knows no spans. -/
def diagnostic (failure : Failure String) : Diagnostic :=
  { code := failure.fault.code
    message := failure.fault.message
    labels := []
    notes := Backtrace.notes failure.backtrace
    help := failure.fault.help }

end Failure

end IntScript
