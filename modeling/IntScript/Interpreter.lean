import IntScript.Machine
import IntScript.Program.Source

/-!
Running programs.

An interpreter has builtins and a stack of calls. Each run starts with a new root scope that binds
the builtins and nothing else, so nothing that a program declares outlives its run.
-/

namespace IntScript

structure Interpreter where
  builtins : Builtins
  calls : CallStack

/-- What came of a run: success or the failure that ended it, and the calls of builtins it made. -/
structure RunResult where
  outcome : Except (Failure String) Unit
  history : History

namespace Interpreter

def new (builtins : Builtins) (limit : Option Nat) : Interpreter :=
  ⟨builtins, CallStack.empty limit⟩

def usual : Interpreter :=
  ⟨Builtins.standard, CallStack.usual⟩

/-- Declare builtins in a scope, numbering their names in order. -/
def declareBuiltins (store : Store) (scope : ScopeId) : List Builtin → Interner →
    (Except ScopeError Unit × Store) × Interner
  | [], names => ((.ok (), store), names)
  | builtin :: builtins, names =>
      let (name, names) := names.intern builtin.name
      match store.declareFunction scope name (.builtin builtin) with
      | (.ok (), store) => declareBuiltins store scope builtins names
      | (.error error, store) => ((.error error, store), names)

def start (interpreter : Interpreter) (program : Block) (store : Store) (root : ScopeId) :
    Machine.State :=
  { control := .execute program root .halt
    store
    calls := interpreter.calls
    history := [] }

/-- What a run came to, from the state in which its machine rests. A value returned by the program
itself is dropped. -/
def finish (interpreter : Interpreter) (state : Machine.State) (names : Interner) :
    RunResult × Interpreter :=
  let outcome :=
    match state.result? with
    | some (.error failure) => .error (failure.map names.lookup)
    | _ => .ok ()
  (⟨outcome, state.history⟩, { interpreter with calls := state.calls })

/-- Run a program, if it ends within a number of steps. The names of the builtins are numbered before
it starts. -/
def runWithin (steps : Nat) (interpreter : Interpreter) (program : Block) (names : Interner) :
    Option (RunResult × Interpreter) × Interner :=
  let (root, store) := Store.empty.root
  match declareBuiltins store root interpreter.builtins.entries names with
  | ((.error error, _), names) =>
      let failure := (interpreter.calls.failure error.fault).map names.lookup
      (some (⟨.error failure, []⟩, interpreter), names)
  | ((.ok (), store), names) =>
      let state := Machine.run steps (interpreter.start program store root)
      (state.map (fun state => interpreter.finish state names), names)

end Interpreter

inductive RunError where
  /-- It is no program. -/
  | refused (error : SourceError)
  /-- It is a program, and a fault ended it. -/
  | failed (failure : Failure String)

namespace RunError

def diagnostic (names : Interner) : RunError → Diagnostic
  | refused error => error.diagnostic names
  | failed failure => failure.diagnostic

end RunError

end IntScript
