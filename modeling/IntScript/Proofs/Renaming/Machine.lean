import IntScript.Proofs.Machine.Failures
import IntScript.Proofs.Renaming.Scopes

/-! States that differ in how names are numbered. The machine does the same in both. -/
namespace IntScript

section

variable {ν μ : Type} (pairs : ν → μ → Prop)

inductive Fault.Like : Fault ν → Fault μ → Prop where
  | duplicateVariable {first : ν} {second : μ} (paired : pairs first second) :
      Like (.duplicateVariable first) (.duplicateVariable second)
  | duplicateFunction {first : ν} {second : μ} (paired : pairs first second) :
      Like (.duplicateFunction first) (.duplicateFunction second)
  | undefinedVariable {first : ν} {second : μ} (paired : pairs first second) :
      Like (.undefinedVariable first) (.undefinedVariable second)
  | undefinedFunction {first : ν} {second : μ} (paired : pairs first second) :
      Like (.undefinedFunction first) (.undefinedFunction second)
  | arityMismatch {first : ν} {second : μ} (paired : pairs first second) (expected got : Nat) :
      Like (.arityMismatch first expected got) (.arityMismatch second expected got)
  | divisionByZero : Like .divisionByZero .divisionByZero
  | moduloByZero : Like .moduloByZero .moduloByZero
  | callDepthExceeded (limit : Nat) : Like (.callDepthExceeded limit) (.callDepthExceeded limit)

structure Failure.Like (first : Failure ν) (second : Failure μ) : Prop where
  fault : first.fault.Like pairs second.fault
  backtrace : List.Forall₂ pairs first.backtrace second.backtrace

end

variable {pairs : Name → Name → Prop}

/-- The name in the error is the only thing that differs. -/
theorem ScopeError.Like.fault {first second : ScopeError} (h : first.Like pairs second) :
    first.fault.Like pairs second.fault := by
  cases h with
  | duplicateVariable paired => exact .duplicateVariable paired
  | duplicateFunction paired => exact .duplicateFunction paired
  | undefinedVariable paired => exact .undefinedVariable paired
  | undefinedFunction paired => exact .undefinedFunction paired

/-- The faults of operators name nothing. -/
theorem BinaryOp.fault_like {op : BinaryOp} {left right : Int32} {fault : Fault Name}
    (h : op.evaluate left right = .error fault) : fault.Like pairs fault := by
  rcases BinaryOp.evaluate_error h with rfl | rfl
  · exact .divisionByZero
  · exact .moduloByZero

namespace CallStack

structure Like (pairs : Name → Name → Prop) (first second : CallStack) : Prop where
  backtrace : List.Forall₂ pairs first.backtrace second.backtrace
  limit : first.limit = second.limit

namespace Like

variable {first second : CallStack} (h : first.Like pairs second)

include h

/-- The backtrace is paired like the names of the functions. -/
theorem failure {fault other : Fault Name} (hFault : fault.Like pairs other) :
    (first.failure fault).Like pairs (second.failure other) :=
  ⟨hFault, h.backtrace⟩

theorem isFull : first.isFull = second.isFull := by
  rw [CallStack.isFull, CallStack.isFull, h.limit, ← length_backtrace, ← length_backtrace,
    h.backtrace.length_eq]

theorem enter {name partner : Name} (hName : pairs name partner) :
    Like pairs ⟨first.frames.push name, first.limit⟩ ⟨second.frames.push partner, second.limit⟩ := by
  refine ⟨?_, h.limit⟩
  rw [backtrace_enter, backtrace_enter]
  exact .cons hName h.backtrace

theorem pop : first.pop.Like pairs second.pop := by
  refine ⟨?_, h.limit⟩
  rw [backtrace_pop, backtrace_pop]
  have hFrames := h.backtrace
  generalize first.backtrace = frames at hFrames ⊢
  generalize second.backtrace = frames' at hFrames ⊢
  cases hFrames with
  | nil => exact .nil
  | cons _ hOuter => exact hOuter

end Like

end CallStack

namespace Machine

section

variable (pairs : Name → Name → Prop)

mutual

inductive AfterValue.Like : AfterValue → AfterValue → Prop where
  | rightOperand (op : BinaryOp) {right right' : Expr} (sameRight : right.Like pairs right')
      (scope : ScopeId) {next next' : AfterValue} (sameNext : AfterValue.Like next next') :
      AfterValue.Like (.rightOperand op right scope next) (.rightOperand op right' scope next')
  | operator (op : BinaryOp) (left : Int32) {next next' : AfterValue}
      (sameNext : AfterValue.Like next next') :
      AfterValue.Like (.operator op left next) (.operator op left next')
  | argument {callee callee' : Callable} (sameCallee : callee.Like pairs callee')
      (known : List Int32) {pending pending' : List Expr}
      (samePending : List.Forall₂ (Expr.Like pairs) pending pending') (inner : ScopeId)
      {next next' : AfterValue} (sameNext : AfterValue.Like next next') :
      AfterValue.Like (.argument callee known pending inner next)
        (.argument callee' known pending' inner next')
  | declare {name name' : Name} (paired : pairs name name') (scope : ScopeId)
      {next next' : AfterBlock} (sameNext : AfterBlock.Like next next') :
      AfterValue.Like (.declare name scope next) (.declare name' scope next')
  | assign {name name' : Name} (paired : pairs name name') (scope : ScopeId)
      {next next' : AfterBlock} (sameNext : AfterBlock.Like next next') :
      AfterValue.Like (.assign name scope next) (.assign name' scope next')
  | yield {next next' : AfterBlock} (sameNext : AfterBlock.Like next next') :
      AfterValue.Like (.yield next) (.yield next')
  | discard {next next' : AfterBlock} (sameNext : AfterBlock.Like next next') :
      AfterValue.Like (.discard next) (.discard next')
  | branch {positive positive' negative negative' : Block}
      (samePositive : Block.Like pairs positive positive')
      (sameNegative : Block.Like pairs negative negative') (scope : ScopeId)
      {next next' : AfterBlock} (sameNext : AfterBlock.Like next next') :
      AfterValue.Like (.branch positive negative scope next) (.branch positive' negative' scope next')
  | test {condition condition' : Expr} (sameCondition : condition.Like pairs condition')
      {body body' : Block} (sameBody : Block.Like pairs body body') (scope : ScopeId)
      {next next' : AfterBlock} (sameNext : AfterBlock.Like next next') :
      AfterValue.Like (.test condition body scope next) (.test condition' body' scope next')

inductive AfterBlock.Like : AfterBlock → AfterBlock → Prop where
  | halt : AfterBlock.Like .halt .halt
  | sequence {others others' : Block} (sameOthers : Block.Like pairs others others') (scope : ScopeId)
      {next next' : AfterBlock} (sameNext : AfterBlock.Like next next') :
      AfterBlock.Like (.sequence others scope next) (.sequence others' scope next')
  | leave (scope : ScopeId) {next next' : AfterBlock} (sameNext : AfterBlock.Like next next') :
      AfterBlock.Like (.leave scope next) (.leave scope next')
  | again {condition condition' : Expr} (sameCondition : condition.Like pairs condition')
      {body body' : Block} (sameBody : Block.Like pairs body body') (scope : ScopeId)
      {next next' : AfterBlock} (sameNext : AfterBlock.Like next next') :
      AfterBlock.Like (.again condition body scope next) (.again condition' body' scope next')
  | finish (activation : ScopeId) {next next' : AfterValue} (sameNext : AfterValue.Like next next') :
      AfterBlock.Like (.finish activation next) (.finish activation next')

end

inductive Control.Like : Control → Control → Prop where
  | evaluate {expr expr' : Expr} (sameExpr : expr.Like pairs expr') (scope : ScopeId)
      {next next' : AfterValue} (sameNext : next.Like pairs next') :
      Like (.evaluate expr scope next) (.evaluate expr' scope next')
  | apply {callee callee' : Callable} (sameCallee : callee.Like pairs callee') (known : List Int32)
      {pending pending' : List Expr} (samePending : List.Forall₂ (Expr.Like pairs) pending pending')
      (inner : ScopeId) {next next' : AfterValue} (sameNext : next.Like pairs next') :
      Like (.apply callee known pending inner next) (.apply callee' known pending' inner next')
  | value {result result' : Result Int32} (sameResult : OutcomeLike (Failure.Like pairs) Eq result result')
      {next next' : AfterValue} (sameNext : next.Like pairs next') :
      Like (.value result next) (.value result' next')
  | execute {block block' : Block} (sameBlock : Block.Like pairs block block') (scope : ScopeId)
      {next next' : AfterBlock} (sameNext : next.Like pairs next') :
      Like (.execute block scope next) (.execute block' scope next')
  | completed {result result' : Result Completion}
      (sameResult : OutcomeLike (Failure.Like pairs) Eq result result')
      {next next' : AfterBlock} (sameNext : next.Like pairs next') :
      Like (.completed result next) (.completed result' next')

structure State.Like (first second : State) : Prop where
  control : first.control.Like pairs second.control
  store : first.store.Like pairs second.store
  calls : first.calls.Like pairs second.calls
  history : first.history = second.history

end

section

variable {history : History} {store store' : Store} {calls calls' : CallStack}

/-- Since pairing is one to one, a parameter is given twice in both or in neither. -/
theorem bindParameters_like (hOne : OneToOne pairs) (hStore : store.Like pairs store') (scope : ScopeId)
    {parameters parameters' : List Name} (hParameters : List.Forall₂ pairs parameters parameters')
    (arguments : List Int32) :
    ChangeLike pairs (bindParameters store scope parameters arguments)
      (bindParameters store' scope parameters' arguments) := by
  induction hParameters generalizing store store' arguments with
  | nil => exact .ok hStore
  | cons hParameter _ ih =>
      cases arguments with
      | nil => exact .ok hStore
      | cons argument arguments =>
          have hDeclared := hStore.declareVariable hOne hParameter scope argument
          rw [bindParameters, bindParameters]
          generalize store.declareVariable scope _ argument = change at hDeclared ⊢
          generalize store'.declareVariable scope _ argument = change' at hDeclared ⊢
          cases hDeclared with
          | ok sameStore => exact ih sameStore arguments
          | error sameError sameStore => exact .error sameError sameStore

variable (hOne : OneToOne pairs) (hStore : store.Like pairs store') (hCalls : calls.Like pairs calls')

include hOne hStore hCalls

/-- Names are looked up in scopes that are paired, and arguments are as many. -/
theorem evaluate_like {expr expr' : Expr} (hExpr : expr.Like pairs expr') (scope : ScopeId)
    {next next' : AfterValue} (hNext : next.Like pairs next') :
    State.Like pairs (evaluate expr scope next store calls history)
      (evaluate expr' scope next' store' calls' history) := by
  cases hExpr with
  | literal value => exact ⟨.value (.ok rfl) hNext, hStore, hCalls, rfl⟩
  | binary op sameLeft sameRight =>
      exact ⟨.evaluate sameLeft scope (.rightOperand op sameRight scope hNext), hStore, hCalls, rfl⟩
  | reference paired =>
      have hFound := hStore.getVariable hOne paired scope
      rw [evaluate, evaluate]
      generalize store.getVariable scope _ = found at hFound ⊢
      generalize store'.getVariable scope _ = found' at hFound ⊢
      cases hFound with
      | ok same =>
          cases same
          exact ⟨.value (.ok rfl) hNext, hStore, hCalls, rfl⟩
      | error same => exact ⟨.value (.error (hCalls.failure same.fault)) hNext, hStore, hCalls, rfl⟩
  | call paired sameArguments =>
      have hFound := hStore.getFunction hOne paired scope
      rw [evaluate, evaluate]
      generalize store.getFunction scope _ = found at hFound ⊢
      generalize store'.getFunction scope _ = found' at hFound ⊢
      cases hFound with
      | ok same =>
          simp only [Store.child_fst, hStore.size]
          exact ⟨.apply same [] sameArguments _ hNext, hStore.child scope, hCalls, rfl⟩
      | error same => exact ⟨.value (.error (hCalls.failure same.fault)) hNext, hStore, hCalls, rfl⟩

/-- The number of parameters, the limit and the home of a function are the same under any names. -/
theorem call_like {callee callee' : Callable} (hCallee : callee.Like pairs callee')
    (arguments : List Int32) {next next' : AfterValue} (hNext : next.Like pairs next') :
    State.Like pairs (call callee arguments next store calls history)
      (call callee' arguments next' store' calls' history) := by
  cases hCallee with
  | builtin builtin => exact ⟨.value (.ok rfl) hNext, hStore, hCalls, rfl⟩
  | @user function function' sameFunction home =>
      have hArity : function.arity = function'.arity := sameFunction.parameters.length_eq
      rw [call, call, hArity, hStore.isLive]
      split
      next =>
        have hFault := Fault.Like.arityMismatch sameFunction.name function'.arity arguments.length
        exact ⟨.value (.error (hCalls.failure hFault)) hNext, hStore, hCalls, rfl⟩
      next =>
        split
        next =>
          have hFault := Fault.Like.undefinedFunction sameFunction.name
          exact ⟨.value (.error (hCalls.failure hFault)) hNext, hStore, hCalls, rfl⟩
        next =>
          have hSame := hCalls.isFull
          cases hFull : calls.isFull with
          | true =>
              rw [CallStack.push_of_full hFull, CallStack.push_of_full (hSame ▸ hFull), hCalls.limit]
              have hFault : Fault.Like pairs (.callDepthExceeded (calls'.limit.getD 0))
                  (.callDepthExceeded (calls'.limit.getD 0)) := .callDepthExceeded _
              exact ⟨.value (.error (hCalls.failure hFault)) hNext, hStore, hCalls, rfl⟩
          | false =>
              rw [CallStack.push_of_free hFull, CallStack.push_of_free (hSame ▸ hFull)]
              have hEntered := hCalls.enter sameFunction.name
              have hBound := bindParameters_like hOne (hStore.child home) store'.slots.size
                sameFunction.parameters arguments
              simp only [Store.child_fst, hStore.size]
              generalize bindParameters (store.child home).2 _ _ arguments = change at hBound ⊢
              generalize bindParameters (store'.child home).2 _ _ arguments = change' at hBound ⊢
              cases hBound with
              | ok sameStore =>
                  exact ⟨.execute sameFunction.body _ (.finish _ hNext), sameStore, hEntered, rfl⟩
              | error sameError sameStore =>
                  have hFailure := hEntered.failure sameError.fault
                  exact ⟨.completed (.error hFailure) (.finish _ hNext), sameStore, hEntered, rfl⟩

theorem execute_like {stmt stmt' : Stmt} (hStmt : stmt.Like pairs stmt') (scope : ScopeId)
    {next next' : AfterBlock} (hNext : next.Like pairs next') :
    State.Like pairs (execute stmt scope next store calls history)
      (execute stmt' scope next' store' calls' history) := by
  cases hStmt with
  | @function name name' parameters parameters' body body' paired sameParameters sameBody =>
      have hFunction : Function.Like pairs ⟨name, parameters, body⟩ ⟨name', parameters', body'⟩ :=
        ⟨paired, sameParameters, sameBody⟩
      have hDeclared := hStore.declareFunction hOne paired scope (.user hFunction scope)
      rw [execute, execute]
      generalize store.declareFunction scope _ _ = change at hDeclared ⊢
      generalize store'.declareFunction scope _ _ = change' at hDeclared ⊢
      cases hDeclared with
      | ok sameStore => exact ⟨.completed (.ok rfl) hNext, sameStore, hCalls, rfl⟩
      | error sameError sameStore =>
          exact ⟨.completed (.error (hCalls.failure sameError.fault)) hNext, sameStore, hCalls, rfl⟩
  | declare paired sameValue =>
      exact ⟨.evaluate sameValue scope (.declare paired scope hNext), hStore, hCalls, rfl⟩
  | loop sameCondition sameBody =>
      exact ⟨.evaluate sameCondition scope (.test sameCondition sameBody scope hNext), hStore, hCalls, rfl⟩
  | branch sameCondition samePositive sameNegative =>
      exact ⟨.evaluate sameCondition scope (.branch samePositive sameNegative scope hNext), hStore,
        hCalls, rfl⟩
  | assign paired sameValue =>
      exact ⟨.evaluate sameValue scope (.assign paired scope hNext), hStore, hCalls, rfl⟩
  | yield sameValue => exact ⟨.evaluate sameValue scope (.yield hNext), hStore, hCalls, rfl⟩
  | evaluate sameValue => exact ⟨.evaluate sameValue scope (.discard hNext), hStore, hCalls, rfl⟩

omit hOne in
theorem enter_like {block block' : Block} (hBlock : Block.Like pairs block block') (scope : ScopeId)
    {next next' : AfterBlock} (hNext : next.Like pairs next') :
    State.Like pairs (enter block scope next store calls history)
      (enter block' scope next' store' calls' history) := by
  rw [enter, enter]
  simp only [Store.child_fst, hStore.size]
  exact ⟨.execute hBlock _ (.leave _ hNext), hStore.child scope, hCalls, rfl⟩

/-- Values are the same in both, so conditions are decided alike. -/
theorem deliver_like (value : Int32) {next next' : AfterValue} (hNext : next.Like pairs next') :
    State.Like pairs (deliver value next store calls history)
      (deliver value next' store' calls' history) := by
  cases hNext with
  | rightOperand op sameRight scope sameNext =>
      exact ⟨.evaluate sameRight scope (.operator op value sameNext), hStore, hCalls, rfl⟩
  | operator op left sameNext =>
      rw [deliver, deliver]
      split
      next => exact ⟨.value (.ok rfl) sameNext, hStore, hCalls, rfl⟩
      next fault hFault =>
        exact ⟨.value (.error (hCalls.failure (BinaryOp.fault_like hFault))) sameNext, hStore, hCalls, rfl⟩
  | argument sameCallee known samePending inner sameNext =>
      exact ⟨.apply sameCallee (value :: known) samePending inner sameNext, hStore, hCalls, rfl⟩
  | declare paired scope sameNext =>
      have hDeclared := hStore.declareVariable hOne paired scope value
      rw [deliver, deliver]
      generalize store.declareVariable scope _ value = change at hDeclared ⊢
      generalize store'.declareVariable scope _ value = change' at hDeclared ⊢
      cases hDeclared with
      | ok sameStore => exact ⟨.completed (.ok rfl) sameNext, sameStore, hCalls, rfl⟩
      | error sameError sameStore =>
          exact ⟨.completed (.error (hCalls.failure sameError.fault)) sameNext, sameStore, hCalls, rfl⟩
  | assign paired scope sameNext =>
      have hAssigned := hStore.setVariable hOne paired scope value
      rw [deliver, deliver]
      generalize store.setVariable scope _ value = change at hAssigned ⊢
      generalize store'.setVariable scope _ value = change' at hAssigned ⊢
      cases hAssigned with
      | ok sameStore => exact ⟨.completed (.ok rfl) sameNext, sameStore, hCalls, rfl⟩
      | error sameError sameStore =>
          exact ⟨.completed (.error (hCalls.failure sameError.fault)) sameNext, sameStore, hCalls, rfl⟩
  | yield sameNext | discard sameNext => exact ⟨.completed (.ok rfl) sameNext, hStore, hCalls, rfl⟩
  | branch samePositive sameNegative scope sameNext =>
      rw [deliver, deliver]
      split
      next => exact enter_like hStore hCalls samePositive scope sameNext
      next => exact enter_like hStore hCalls sameNegative scope sameNext
  | test sameCondition sameBody scope sameNext =>
      rw [deliver, deliver]
      split
      next => exact enter_like hStore hCalls sameBody scope (.again sameCondition sameBody scope sameNext)
      next => exact ⟨.completed (.ok rfl) sameNext, hStore, hCalls, rfl⟩

omit hOne in
theorem abandon_like {failure failure' : Failure Name} (hFailure : failure.Like pairs failure')
    {next next' : AfterValue} (hNext : next.Like pairs next') :
    State.Like pairs (abandon failure next store calls history)
      (abandon failure' next' store' calls' history) := by
  cases hNext with
  | rightOperand _ _ _ sameNext | operator _ _ sameNext =>
      exact ⟨.value (.error hFailure) sameNext, hStore, hCalls, rfl⟩
  | argument _ _ _ inner sameNext =>
      exact ⟨.value (.error hFailure) sameNext, hStore.release inner, hCalls, rfl⟩
  | declare _ _ sameNext | assign _ _ sameNext | yield sameNext | discard sameNext
  | branch _ _ _ sameNext | test _ _ _ sameNext =>
      exact ⟨.completed (.error hFailure) sameNext, hStore, hCalls, rfl⟩

omit hOne in
/-- Completions are the same, and failures are paired. -/
theorem resume_like {result result' : Result Completion}
    (hResult : OutcomeLike (Failure.Like pairs) Eq result result') {next next' : AfterBlock}
    (hNext : next.Like pairs next') :
    State.Like pairs (resume result next store calls history)
      (resume result' next' store' calls' history) := by
  cases hNext with
  | halt => exact ⟨.completed hResult .halt, hStore, hCalls, rfl⟩
  | sequence sameOthers scope sameNext =>
      cases hResult with
      | error same => exact ⟨.completed (.error same) sameNext, hStore, hCalls, rfl⟩
      | @ok completion completion' same =>
          cases same
          cases completion with
          | none => exact ⟨.execute sameOthers scope sameNext, hStore, hCalls, rfl⟩
          | some value => exact ⟨.completed (.ok rfl) sameNext, hStore, hCalls, rfl⟩
  | leave scope sameNext => exact ⟨.completed hResult sameNext, hStore.release scope, hCalls, rfl⟩
  | again sameCondition sameBody scope sameNext =>
      cases hResult with
      | error same => exact ⟨.completed (.error same) sameNext, hStore, hCalls, rfl⟩
      | @ok completion completion' same =>
          cases same
          cases completion with
          | none =>
              exact ⟨.evaluate sameCondition scope (.test sameCondition sameBody scope sameNext), hStore,
                hCalls, rfl⟩
          | some value => exact ⟨.completed (.ok rfl) sameNext, hStore, hCalls, rfl⟩
  | finish activation sameNext =>
      refine ⟨.value ?_ sameNext, hStore.release activation, hCalls.pop, rfl⟩
      cases hResult with
      | error same => exact .error same
      | ok same => exact .ok (congrArg (·.getD 0) same)

end

/-- The machine takes the same step in both states. -/
theorem State.Like.step (hOne : OneToOne pairs) {first second : State}
    (h : first.Like pairs second) :
    (Machine.step first).Like pairs (Machine.step second) := by
  obtain ⟨control, store, calls, history⟩ := first
  obtain ⟨control', store', calls', history'⟩ := second
  obtain ⟨hControl, hStore, hCalls, rfl⟩ := h
  cases hControl with
  | evaluate sameExpr scope sameNext => exact evaluate_like hOne hStore hCalls sameExpr scope sameNext
  | apply sameCallee known samePending inner sameNext =>
      cases samePending with
      | nil => exact call_like hOne (hStore.release inner) hCalls sameCallee known.reverse sameNext
      | cons sameArgument samePending =>
          exact ⟨.evaluate sameArgument inner (.argument sameCallee known samePending inner sameNext),
            hStore, hCalls, rfl⟩
  | value sameResult sameNext =>
      cases sameResult with
      | @ok value value' same =>
          cases same
          exact deliver_like hOne hStore hCalls value sameNext
      | error same => exact abandon_like hStore hCalls same sameNext
  | execute sameBlock scope sameNext =>
      cases sameBlock with
      | nil => exact ⟨.completed (.ok rfl) sameNext, hStore, hCalls, rfl⟩
      | cons sameStmt sameOthers =>
          exact execute_like hOne hStore hCalls sameStmt scope (.sequence sameOthers scope sameNext)
  | completed sameResult sameNext => exact resume_like hStore hCalls sameResult sameNext

/-- If one has come to rest, so has the other, and with a like result. -/
theorem State.Like.result? {first second : State}
    (h : first.Like pairs second) :
    Option.Rel (OutcomeLike (Failure.Like pairs) Eq) first.result? second.result? := by
  obtain ⟨control, store, calls, history⟩ := first
  obtain ⟨control', store', calls', history'⟩ := second
  cases h.control with
  | evaluate | apply | value | execute => exact .none
  | completed sameResult sameNext =>
      cases sameNext with
      | halt => exact .some sameResult
      | sequence | leave | again | finish => exact .none

/-- So both runs take the same number of steps. -/
theorem State.Like.rests {first second : State}
    (h : first.Like pairs second) : first.result?.isSome = second.result?.isSome := by
  have hResult := h.result?
  generalize first.result? = result at hResult ⊢
  generalize second.result? = result' at hResult ⊢
  cases hResult <;> rfl

/-- The machine comes to rest on one side exactly when it does on the other, and in states alike. -/
theorem State.Like.run (hOne : OneToOne pairs) {first second : State}
    (h : first.Like pairs second) (steps : Nat) :
    Option.Rel (State.Like pairs) (Machine.run steps first) (Machine.run steps second) := by
  induction steps generalizing first second with
  | zero =>
      rw [Machine.run, Machine.run, h.rests]
      split
      next => exact .some h
      next => exact .none
  | succ steps ih =>
      rw [Machine.run, Machine.run, h.rests]
      split
      next => exact .some h
      next => exact ih (h.step hOne)

end Machine

end IntScript
