import IntScript.Interpreter

/-! The machine without scopes for arguments: the arguments of a call are evaluated in the scope of the
call. -/
namespace IntScript

namespace Machine.InPlace

/-- One step. It differs where a call makes its scope for arguments and where that is given up, when the
arguments are evaluated or one of them fails. -/
def step : State → State
  | ⟨.evaluate (.call callee arguments) scope next, store, calls, history⟩ =>
      match store.getFunction scope callee with
      | .ok callable => { control := .apply callable [] arguments scope next, store, calls, history }
      | .error error =>
          { control := .value (.error (calls.failure error.fault)) next, store, calls, history }
  | ⟨.apply callee known [] _ next, store, calls, history⟩ =>
      call callee known.reverse next store calls history
  | ⟨.value (.error failure) (.argument _ _ _ _ next), store, calls, history⟩ =>
      { control := .value (.error failure) next, store, calls, history }
  | state => Machine.step state

def after : (steps : Nat) → State → State
  | 0, state => state
  | steps + 1, state => after steps (step state)

/-- The state in which the machine comes to rest, if it does so within a number of steps. -/
def run : (steps : Nat) → State → Option State
  | 0, state => if state.result?.isSome then some state else none
  | steps + 1, state => if state.result?.isSome then some state else run steps (step state)

end Machine.InPlace

/-- Run a program on the machine without scopes for arguments, if it ends within a number of steps. -/
def Interpreter.runInPlace (steps : Nat) (interpreter : Interpreter) (program : Block)
    (names : Interner) : Option (RunResult × Interpreter) × Interner :=
  let (root, store) := Store.empty.root
  match declareBuiltins store root interpreter.builtins.entries names with
  | ((.error error, _), names) =>
      let failure := (interpreter.calls.failure error.fault).map names.lookup
      (some (⟨.error failure, []⟩, interpreter), names)
  | ((.ok (), store), names) =>
      let state := Machine.InPlace.run steps (interpreter.start program store root)
      (state.map (fun state => interpreter.finish state names), names)

end IntScript
