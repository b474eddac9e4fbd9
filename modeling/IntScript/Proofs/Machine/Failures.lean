import IntScript.Proofs.Machine.Calls

/-! Where failures come from. One step raises a failure, for one of the reasons listed in `Raises`; every
later step hands it on and does nothing else that the program could notice. -/
namespace IntScript

namespace Store

/-- A look-up can fail in one way only, and that is about the name that was looked for. -/
theorem getVariable_error {store : Store} {id : ScopeId} {name : Name} {error : ScopeError}
    (h : store.getVariable id name = .error error) : error = .undefinedVariable name := by
  rw [getVariable] at h
  split at h
  next => exact (Except.error.inj h).symm
  next => cases h

theorem getFunction_error {store : Store} {id : ScopeId} {name : Name} {error : ScopeError}
    (h : store.getFunction id name = .error error) : error = .undefinedFunction name := by
  rw [getFunction] at h
  split at h
  next => exact (Except.error.inj h).symm
  next => cases h

/-- Declaring fails for one reason, a name that is taken, and never because of a scope around it. -/
theorem declareVariable_error {store later : Store} {id : ScopeId} {name : Name} {value : Int32}
    {error : ScopeError} (h : store.declareVariable id name value = (.error error, later)) :
    error = .duplicateVariable name := by
  rw [declareVariable] at h
  split at h
  next => exact (Except.error.inj (congrArg Prod.fst h)).symm
  next => cases h

theorem declareFunction_error {store later : Store} {id : ScopeId} {name : Name} {callable : Callable}
    {error : ScopeError} (h : store.declareFunction id name callable = (.error error, later)) :
    error = .duplicateFunction name := by
  rw [declareFunction] at h
  split at h
  next => exact (Except.error.inj (congrArg Prod.fst h)).symm
  next => cases h

theorem setVariable_error {store later : Store} {id : ScopeId} {name : Name} {value : Int32}
    {error : ScopeError} (h : store.setVariable id name value = (.error error, later)) :
    error = .undefinedVariable name := by
  rw [setVariable] at h
  split at h
  next => exact (Except.error.inj (congrArg Prod.fst h)).symm
  next => cases h

end Store

namespace BinaryOp

/-- Only a zero divisor is refused. -/
theorem evaluate_error {op : BinaryOp} {left right : Int32} {fault : Fault Name}
    (h : op.evaluate left right = .error fault) : fault = .divisionByZero ∨ fault = .moduloByZero := by
  cases op <;> simp only [evaluate, reduceCtorEq] at h
  all_goals
    split at h
    next => simp_all
    next => cases h

end BinaryOp

namespace Machine

/-- Parameters fail only if one is given twice. -/
theorem bindParameters_error {store later : Store} {scope : ScopeId} {parameters : List Name}
    {arguments : List Int32} {error : ScopeError}
    (h : bindParameters store scope parameters arguments = (.error error, later)) :
    ∃ name ∈ parameters, error = .duplicateVariable name := by
  induction parameters generalizing store arguments with
  | nil => cases h
  | cons parameter parameters ih =>
      cases arguments with
      | nil => cases h
      | cons argument arguments =>
          rw [bindParameters] at h
          split at h
          next middle _ =>
            obtain ⟨name, hName, rfl⟩ := ih h
            exact ⟨name, List.mem_cons_of_mem parameter hName, rfl⟩
          next found middle hDeclared =>
            cases h
            exact ⟨parameter, List.mem_cons_self, Store.declareVariable_error hDeclared⟩

/-- The step from this state raises the fault: a look-up or a declaration fails, an operator refuses its
operands, or a call is refused, for the number of its arguments, because the scope of its function is
gone, because the limit on nested calls is reached, or for a parameter that is given twice. -/
inductive Raises : State → Fault Name → Prop where
  | reference {name : Name} {scope : ScopeId} {next : AfterValue} {store : Store} {calls : CallStack}
      {history : History} {error : ScopeError} (unbound : store.getVariable scope name = .error error) :
      Raises ⟨.evaluate (.reference name) scope next, store, calls, history⟩ error.fault
  | callee {name : Name} {arguments : List Expr} {scope : ScopeId} {next : AfterValue} {store : Store}
      {calls : CallStack} {history : History} {error : ScopeError}
      (unbound : store.getFunction scope name = .error error) :
      Raises ⟨.evaluate (.call name arguments) scope next, store, calls, history⟩ error.fault
  | operator {op : BinaryOp} {left right : Int32} {next : AfterValue} {store : Store}
      {calls : CallStack} {history : History} {fault : Fault Name}
      (refused : op.evaluate left right = .error fault) :
      Raises ⟨.value (.ok right) (.operator op left next), store, calls, history⟩ fault
  | declare {name : Name} {value : Int32} {scope : ScopeId} {next : AfterBlock} {store later : Store}
      {calls : CallStack} {history : History} {error : ScopeError}
      (bound : store.declareVariable scope name value = (.error error, later)) :
      Raises ⟨.value (.ok value) (.declare name scope next), store, calls, history⟩ error.fault
  | assign {name : Name} {value : Int32} {scope : ScopeId} {next : AfterBlock} {store later : Store}
      {calls : CallStack} {history : History} {error : ScopeError}
      (unbound : store.setVariable scope name value = (.error error, later)) :
      Raises ⟨.value (.ok value) (.assign name scope next), store, calls, history⟩ error.fault
  | function {name : Name} {parameters : List Name} {body others : Block} {scope : ScopeId}
      {next : AfterBlock} {store later : Store} {calls : CallStack} {history : History}
      {error : ScopeError}
      (bound : store.declareFunction scope name (.user ⟨name, parameters, body⟩ scope) =
        (.error error, later)) :
      Raises ⟨.execute (.function name parameters body :: others) scope next, store, calls, history⟩
        error.fault
  | arity {function : Function} {home : ScopeId} {known : List Int32} {inner : ScopeId}
      {next : AfterValue} {store : Store} {calls : CallStack} {history : History}
      (mismatch : known.reverse.length ≠ function.arity) :
      Raises ⟨.apply (.user function home) known [] inner next, store, calls, history⟩
        (.arityMismatch function.name function.arity known.reverse.length)
  | released {function : Function} {home : ScopeId} {known : List Int32} {inner : ScopeId}
      {next : AfterValue} {store : Store} {calls : CallStack} {history : History}
      (matching : known.reverse.length = function.arity)
      (gone : (store.release inner).isLive home = false) :
      Raises ⟨.apply (.user function home) known [] inner next, store, calls, history⟩
        (.undefinedFunction function.name)
  | depth {function : Function} {home : ScopeId} {known : List Int32} {inner : ScopeId}
      {next : AfterValue} {store : Store} {calls : CallStack} {history : History}
      (matching : known.reverse.length = function.arity)
      (live : (store.release inner).isLive home = true) (full : calls.isFull = true) :
      Raises ⟨.apply (.user function home) known [] inner next, store, calls, history⟩
        (.callDepthExceeded (calls.limit.getD 0))
  | parameter {function : Function} {home : ScopeId} {known : List Int32} {inner : ScopeId}
      {next : AfterValue} {store later : Store} {calls : CallStack} {history : History}
      {error : ScopeError} (matching : known.reverse.length = function.arity)
      (live : (store.release inner).isLive home = true) (free : calls.isFull = false)
      (twice : bindParameters ((store.release inner).child home).2 ((store.release inner).child home).1
        function.parameters known.reverse = (.error error, later)) :
      Raises ⟨.apply (.user function home) known [] inner next, store, calls, history⟩ error.fault

section

variable {store : Store} {calls : CallStack} {history : History} {failure : Failure Name}

/-- Only a look-up fails here, and before anything else is done. -/
theorem raises_evaluate {expr : Expr} {scope : ScopeId} {next : AfterValue}
    (h : (evaluate expr scope next store calls history).control.failure? = some failure) :
    ∃ fault, Raises ⟨.evaluate expr scope next, store, calls, history⟩ fault ∧
      failure = (evaluate expr scope next store calls history).calls.failure fault := by
  cases expr with
  | literal value | binary op left right => cases h
  | reference name =>
      rw [evaluate] at h ⊢
      split at h
      next => cases h
      next error hError =>
        cases h
        exact ⟨_, Raises.reference hError, rfl⟩
  | call callee arguments =>
      rw [evaluate] at h ⊢
      split at h
      next => cases h
      next error hError =>
        cases h
        exact ⟨_, Raises.callee hError, rfl⟩

/-- Each check of a call is made in its order, and the first that fails is the fault. -/
theorem raises_call {callee : Callable} {known : List Int32} {inner : ScopeId} {next : AfterValue}
    (h : (call callee known.reverse next (store.release inner) calls history).control.failure? =
      some failure) :
    ∃ fault, Raises ⟨.apply callee known [] inner next, store, calls, history⟩ fault ∧
      failure = (call callee known.reverse next (store.release inner) calls history).calls.failure
        fault := by
  cases callee with
  | builtin builtin => cases h
  | user function home =>
      rw [call] at h ⊢
      split at h
      next hMismatch =>
        cases h
        rw [if_pos hMismatch]
        exact ⟨_, Raises.arity hMismatch, rfl⟩
      next hEqual =>
        rw [if_neg hEqual]
        have hMatching : known.reverse.length = function.arity := Decidable.of_not_not hEqual
        split at h
        next hGone =>
          cases h
          rw [if_pos hGone]
          exact ⟨_, Raises.released hMatching (by simpa using hGone), rfl⟩
        next hKept =>
          rw [if_neg hKept]
          have hLive : (store.release inner).isLive home = true := by simpa using hKept
          cases hFull : calls.isFull with
          | true =>
              rw [CallStack.push_of_full hFull] at h ⊢
              cases h
              exact ⟨_, Raises.depth hMatching hLive hFull, rfl⟩
          | false =>
              rw [CallStack.push_of_free hFull] at h ⊢
              simp only at h ⊢
              split at h
              next error later hTwice =>
                cases h
                exact ⟨_, Raises.parameter hMatching hLive hFull hTwice, rfl⟩
              next => cases h

/-- Executing fails for a function whose name is taken; all else goes on with an expression or a
block. -/
theorem raises_execute {stmt : Stmt} {others : Block} {scope : ScopeId} {next : AfterBlock}
    (h : (execute stmt scope (.sequence others scope next) store calls history).control.failure? =
      some failure) :
    ∃ fault, Raises ⟨.execute (stmt :: others) scope next, store, calls, history⟩ fault ∧
      failure = (execute stmt scope (.sequence others scope next) store calls history).calls.failure
        fault := by
  cases stmt with
  | function name parameters body =>
      rw [execute] at h ⊢
      split at h
      next => cases h
      next error later hBound =>
        cases h
        exact ⟨_, Raises.function hBound, rfl⟩
  | declare name value | loop condition body | branch condition positive negative
  | assign name value | yield value | evaluate value => cases h

/-- A value leads to a fault in an operator, in a declaration or in an assignment. -/
theorem raises_deliver {value : Int32} {next : AfterValue}
    (h : (deliver value next store calls history).control.failure? = some failure) :
    ∃ fault, Raises ⟨.value (.ok value) next, store, calls, history⟩ fault ∧
      failure = (deliver value next store calls history).calls.failure fault := by
  cases next with
  | rightOperand op right scope next | argument callee known pending inner next | yield next
  | discard next | branch positive negative scope next => cases h
  | operator op left next =>
      rw [deliver] at h ⊢
      split at h
      next => cases h
      next fault hRefused =>
        cases h
        exact ⟨_, Raises.operator hRefused, rfl⟩
  | declare name scope next =>
      rw [deliver] at h ⊢
      split at h
      next => cases h
      next error later hBound =>
        cases h
        exact ⟨_, Raises.declare hBound, rfl⟩
  | assign name scope next =>
      rw [deliver] at h ⊢
      split at h
      next => cases h
      next error later hUnbound =>
        cases h
        exact ⟨_, Raises.assign hUnbound, rfl⟩
  | test condition body scope next =>
      rw [deliver] at h
      split at h <;> cases h

/-- The end of a block is never a fault of its own. -/
theorem failure?_resume {completion : Completion} {next : AfterBlock} :
    (resume (.ok completion) next store calls history).control.failure? = none := by
  cases next with
  | sequence others scope next | again condition body scope next =>
      cases completion <;> rfl
  | halt | leave scope next | finish activation next => rfl

end

/-- A failure that is there after a step and was not before is raised by the step, and names the
functions that are running after it. -/
theorem State.raises {state : State} {failure : Failure Name}
    (hBefore : state.control.failure? = none)
    (hAfter : (step state).control.failure? = some failure) :
    ∃ fault, Raises state fault ∧ failure = (step state).calls.failure fault := by
  obtain ⟨control, store, calls, history⟩ := state
  cases control with
  | evaluate expr scope next => exact raises_evaluate hAfter
  | apply callee known pending inner next =>
      cases pending with
      | nil => exact raises_call hAfter
      | cons argument pending => cases hAfter
  | value result next =>
      cases result with
      | ok value => exact raises_deliver hAfter
      | error failure => cases hBefore
  | execute block scope next =>
      cases block with
      | nil => cases hAfter
      | cons stmt others => exact raises_execute hAfter
  | completed result next =>
      cases result with
      | ok completion =>
          rw [step, failure?_resume] at hAfter
          cases hAfter
      | error failure => cases hBefore

/-- A failure is handed on as it is, and no builtin is called meanwhile. -/
theorem State.step_of_failure {state : State} {failure : Failure Name}
    (h : state.control.failure? = some failure) :
    (step state).control.failure? = some failure ∧ (step state).history = state.history := by
  obtain ⟨control, store, calls, history⟩ := state
  cases control with
  | evaluate expr scope next | apply callee known pending inner next | execute block scope next =>
      cases h
  | value result next =>
      cases result with
      | ok value => cases h
      | error failure =>
          cases h
          cases next <;> exact ⟨rfl, rfl⟩
  | completed result next =>
      cases result with
      | ok completion => cases h
      | error failure =>
          cases h
          cases next <;> exact ⟨rfl, rfl⟩

/-- A failure in a run that began without one was raised by one of its steps. -/
theorem exists_raises {start : State} (hStart : start.control.failure? = none) {steps : Nat}
    {failure : Failure Name} (h : (after steps start).control.failure? = some failure) :
    ∃ earlier, earlier < steps ∧ (after earlier start).control.failure? = none ∧
      Raises (after earlier start) failure.fault ∧
      failure = (after (earlier + 1) start).calls.failure failure.fault ∧
      (after (earlier + 1) start).control.failure? = some failure := by
  induction steps with
  | zero =>
      rw [after, hStart] at h
      cases h
  | succ steps ih =>
      have hLast : after (steps + 1) start = step (after steps start) := after_add steps 1 start
      cases hBefore : (after steps start).control.failure? with
      | some earlier =>
          rw [hLast, (State.step_of_failure hBefore).1] at h
          cases h
          obtain ⟨earlier, hEarlier, hRest⟩ := ih hBefore
          exact ⟨earlier, Nat.lt_succ_of_lt hEarlier, hRest⟩
      | none =>
          obtain ⟨fault, hRaises, hFailure⟩ := State.raises hBefore (hLast ▸ h)
          obtain rfl : fault = failure.fault := by rw [hFailure]; rfl
          exact ⟨steps, Nat.lt_succ_self steps, hBefore, hRaises, hLast ▸ hFailure, h⟩

/-- A failure stays as it is, however long the run goes on. -/
theorem failure?_after {start : State} {moment later : Nat} {failure : Failure Name}
    (h : (after moment start).control.failure? = some failure) (hLater : moment ≤ later) :
    (after later start).control.failure? = some failure := by
  induction hLater with
  | refl => exact h
  | @step later _ ih =>
      rw [Nat.succ_eq_add_one, after_add]
      exact (State.step_of_failure ih).1

end Machine

end IntScript
