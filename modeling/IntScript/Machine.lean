import IntScript.CallStack
import IntScript.Operator.Evaluation
import IntScript.Scope.Store

/-!
The machine that runs programs.

A state says what is being done now, what is to be done afterwards, and what the scopes, the running
functions and the calls of builtins so far are. What is to be done afterwards is data, so a program
may nest calls and blocks as deeply as memory allows. There are two kinds of it, for one waits for
the value of an expression and the other for the completion of a block; a state where a value meets
what waits for a completion cannot be written down, so the machine never gets stuck.

A failure travels like a result: it is handed on from one pending piece of work to the next, and each
gives up the scope and the call it stands for, until nothing is pending.
-/

namespace IntScript

namespace ScopeError

/-- The fault that a program commits when an operation on a scope fails. -/
def fault : ScopeError → Fault Name
  | duplicateVariable name => .duplicateVariable name
  | duplicateFunction name => .duplicateFunction name
  | undefinedVariable name => .undefinedVariable name
  | undefinedFunction name => .undefinedFunction name

end ScopeError

namespace Machine

mutual

/-- What waits for the value of an expression. -/
inductive AfterValue where
  /-- The value is a left operand; the right one comes next. -/
  | rightOperand (op : BinaryOp) (right : Expr) (scope : ScopeId) (next : AfterValue)
  /-- The value is a right operand; the left one is known. -/
  | operator (op : BinaryOp) (left : Int32) (next : AfterValue)
  /-- The value is an argument. Those before it are known, the last of them first, and those after
  it are to be evaluated in the scope made for the arguments. -/
  | argument (callee : Callable) (known : List Int32) (pending : List Expr) (inner : ScopeId)
      (next : AfterValue)
  /-- The value is that of a new variable. -/
  | declare (name : Name) (scope : ScopeId) (next : AfterBlock)
  /-- The value is the new one of an existing variable. -/
  | assign (name : Name) (scope : ScopeId) (next : AfterBlock)
  /-- The value is returned. -/
  | yield (next : AfterBlock)
  /-- The value is not needed. -/
  | discard (next : AfterBlock)
  /-- The value decides between two blocks. -/
  | branch (positive negative : Block) (scope : ScopeId) (next : AfterBlock)
  /-- The value decides whether a loop goes on. -/
  | test (condition : Expr) (body : Block) (scope : ScopeId) (next : AfterBlock)

/-- What waits for the completion of a statement or a block. -/
inductive AfterBlock where
  /-- Nothing: the program is completed. -/
  | halt
  /-- The other statements of a block. -/
  | sequence (others : Block) (scope : ScopeId) (next : AfterBlock)
  /-- The end of the scope made for a block. -/
  | leave (scope : ScopeId) (next : AfterBlock)
  /-- The next round of a loop. -/
  | again (condition : Expr) (body : Block) (scope : ScopeId) (next : AfterBlock)
  /-- The end of a call, with the scope made for it. -/
  | finish (activation : ScopeId) (next : AfterValue)

end

abbrev Result (α : Type) := Except (Failure Name) α

/-- How a block was completed: with the value of a `return`, or by reaching its end. -/
abbrev Completion := Option Int32

inductive Control where
  /-- Evaluate an expression. -/
  | evaluate (expr : Expr) (scope : ScopeId) (next : AfterValue)
  /-- Evaluate the pending arguments of a call, and then call. -/
  | apply (callee : Callable) (known : List Int32) (pending : List Expr) (inner : ScopeId)
      (next : AfterValue)
  /-- Hand over the value of an expression. -/
  | value (result : Result Int32) (next : AfterValue)
  /-- Execute the statements of a block in a scope. -/
  | execute (block : Block) (scope : ScopeId) (next : AfterBlock)
  /-- Hand over the completion of a block. -/
  | completed (result : Result Completion) (next : AfterBlock)

structure State where
  control : Control
  store : Store
  calls : CallStack
  history : History

/-- Declare the parameters of a function with the arguments of a call, in order. -/
def bindParameters (store : Store) (scope : ScopeId) : List Name → List Int32 →
    Except ScopeError Unit × Store
  | parameter :: parameters, argument :: arguments =>
      match store.declareVariable scope parameter argument with
      | (.ok (), store) => bindParameters store scope parameters arguments
      | (.error error, store) => (.error error, store)
  | _, _ => (.ok (), store)

/-- Call a function with evaluated arguments. A function of the program checks their number, is
entered on the stack of calls, and runs in a new child of the scope it was declared in. -/
def call (callee : Callable) (arguments : List Int32) (next : AfterValue) (store : Store)
    (calls : CallStack) (history : History) : State :=
  match callee with
  | .builtin builtin =>
      { control := .value (.ok (builtin.answer history arguments)) next
        store, calls
        history := builtin.record arguments :: history }
  | .user function home =>
      if arguments.length ≠ function.arity then
        let fault := .arityMismatch function.name function.arity arguments.length
        { control := .value (.error (calls.failure fault)) next, store, calls, history }
      else if !store.isLive home then
        let fault := .undefinedFunction function.name
        { control := .value (.error (calls.failure fault)) next, store, calls, history }
      else
        match calls.push function.name with
        | (.error fault, calls) =>
            { control := .value (.error (calls.failure fault)) next, store, calls, history }
        | (.ok (), calls) =>
            let (activation, store) := store.child home
            match bindParameters store activation function.parameters arguments with
            | (.error error, store) =>
                let failure := calls.failure error.fault
                { control := .completed (.error failure) (.finish activation next)
                  store, calls, history }
            | (.ok (), store) =>
                { control := .execute function.body activation (.finish activation next)
                  store, calls, history }

/-- Begin to evaluate an expression. The function of a call is looked up before its arguments are
evaluated, and the arguments get a scope of their own. -/
def evaluate (expr : Expr) (scope : ScopeId) (next : AfterValue) (store : Store)
    (calls : CallStack) (history : History) : State :=
  match expr with
  | .literal value => { control := .value (.ok value) next, store, calls, history }
  | .reference name =>
      match store.getVariable scope name with
      | .ok value => { control := .value (.ok value) next, store, calls, history }
      | .error error =>
          { control := .value (.error (calls.failure error.fault)) next, store, calls, history }
  | .call callee arguments =>
      match store.getFunction scope callee with
      | .ok callable =>
          let (inner, store) := store.child scope
          { control := .apply callable [] arguments inner next, store, calls, history }
      | .error error =>
          { control := .value (.error (calls.failure error.fault)) next, store, calls, history }
  | .binary op left right =>
      { control := .evaluate left scope (.rightOperand op right scope next)
        store, calls, history }

def execute (stmt : Stmt) (scope : ScopeId) (next : AfterBlock) (store : Store)
    (calls : CallStack) (history : History) : State :=
  match stmt with
  | .function name parameters body =>
      match store.declareFunction scope name (.user ⟨name, parameters, body⟩ scope) with
      | (.ok (), store) => { control := .completed (.ok none) next, store, calls, history }
      | (.error error, store) =>
          { control := .completed (.error (calls.failure error.fault)) next, store, calls, history }
  | .declare name value =>
      { control := .evaluate value scope (.declare name scope next), store, calls, history }
  | .loop condition body =>
      { control := .evaluate condition scope (.test condition body scope next)
        store, calls, history }
  | .branch condition positive negative =>
      { control := .evaluate condition scope (.branch positive negative scope next)
        store, calls, history }
  | .assign name value =>
      { control := .evaluate value scope (.assign name scope next), store, calls, history }
  | .yield value => { control := .evaluate value scope (.yield next), store, calls, history }
  | .evaluate value => { control := .evaluate value scope (.discard next), store, calls, history }

/-- Execute a block in a new child of a scope, which ends with the block. -/
def enter (block : Block) (scope : ScopeId) (next : AfterBlock) (store : Store)
    (calls : CallStack) (history : History) : State :=
  let (inner, store) := store.child scope
  { control := .execute block inner (.leave inner next), store, calls, history }

/-- Hand a value to what waits for it. -/
def deliver (value : Int32) (next : AfterValue) (store : Store) (calls : CallStack)
    (history : History) : State :=
  match next with
  | .rightOperand op right scope next =>
      { control := .evaluate right scope (.operator op value next), store, calls, history }
  | .operator op left next =>
      match op.evaluate left value with
      | .ok value => { control := .value (.ok value) next, store, calls, history }
      | .error fault =>
          { control := .value (.error (calls.failure fault)) next, store, calls, history }
  | .argument callee known pending inner next =>
      { control := .apply callee (value :: known) pending inner next, store, calls, history }
  | .declare name scope next =>
      match store.declareVariable scope name value with
      | (.ok (), store) => { control := .completed (.ok none) next, store, calls, history }
      | (.error error, store) =>
          { control := .completed (.error (calls.failure error.fault)) next, store, calls, history }
  | .assign name scope next =>
      match store.setVariable scope name value with
      | (.ok (), store) => { control := .completed (.ok none) next, store, calls, history }
      | (.error error, store) =>
          { control := .completed (.error (calls.failure error.fault)) next, store, calls, history }
  | .yield next => { control := .completed (.ok (some value)) next, store, calls, history }
  | .discard next => { control := .completed (.ok none) next, store, calls, history }
  | .branch positive negative scope next =>
      enter (if value ≠ 0 then positive else negative) scope next store calls history
  | .test condition body scope next =>
      if value ≠ 0 then
        enter body scope (.again condition body scope next) store calls history
      else
        { control := .completed (.ok none) next, store, calls, history }

/-- Hand a failure to what waits for a value. Nothing is done with it but to give up the scope that
was made for arguments. -/
def abandon (failure : Failure Name) (next : AfterValue) (store : Store) (calls : CallStack)
    (history : History) : State :=
  match next with
  | .rightOperand _ _ _ next | .operator _ _ next =>
      { control := .value (.error failure) next, store, calls, history }
  | .argument _ _ _ inner next =>
      { control := .value (.error failure) next, store := store.release inner, calls, history }
  | .declare _ _ next | .assign _ _ next | .yield next | .discard next | .branch _ _ _ next
  | .test _ _ _ next =>
      { control := .completed (.error failure) next, store, calls, history }

/-- Hand the completion of a block, or a failure in it, to what waits for it. Only a block that
reached its end is followed by what comes after it; a call whose body did so has the value zero.
Where nothing waits, the machine rests. -/
def resume (result : Result Completion) (next : AfterBlock) (store : Store) (calls : CallStack)
    (history : History) : State :=
  match next with
  | .halt => { control := .completed result .halt, store, calls, history }
  | .sequence others scope next =>
      match result with
      | .ok none => { control := .execute others scope next, store, calls, history }
      | result => { control := .completed result next, store, calls, history }
  | .leave scope next =>
      { control := .completed result next, store := store.release scope, calls, history }
  | .again condition body scope next =>
      match result with
      | .ok none =>
          { control := .evaluate condition scope (.test condition body scope next)
            store, calls, history }
      | result => { control := .completed result next, store, calls, history }
  | .finish activation next =>
      let value := result.map (fun completion => completion.getD 0)
      { control := .value value next
        store := store.release activation
        calls := calls.pop
        history }

/-- One step of the machine. A machine at rest stays as it is. -/
def step : State → State
  | ⟨control, store, calls, history⟩ =>
      match control with
      | .evaluate expr scope next => evaluate expr scope next store calls history
      | .apply callee known (argument :: pending) inner next =>
          { control := .evaluate argument inner (.argument callee known pending inner next)
            store, calls, history }
      | .apply callee known [] inner next =>
          call callee known.reverse next (store.release inner) calls history
      | .value (.ok value) next => deliver value next store calls history
      | .value (.error failure) next => abandon failure next store calls history
      | .execute [] _ next => { control := .completed (.ok none) next, store, calls, history }
      | .execute (stmt :: others) scope next =>
          execute stmt scope (.sequence others scope next) store calls history
      | .completed result next => resume result next store calls history

def State.result? (state : State) : Option (Result Completion) :=
  match state.control with
  | .completed result .halt => some result
  | _ => none

/-- The state in which the machine comes to rest, if it does so within a number of steps. -/
def run : (steps : Nat) → State → Option State
  | 0, state => if state.result?.isSome then some state else none
  | steps + 1, state => if state.result?.isSome then some state else run steps (step state)

end Machine

end IntScript
