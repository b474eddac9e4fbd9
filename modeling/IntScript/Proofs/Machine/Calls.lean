import IntScript.Proofs.Machine.Runs

/-! What a step does to the stack of calls and to the calls of builtins made so far. The stack holds one
frame for every function that is running, however calls end. -/
namespace IntScript

/-- What calls wrote comes before what later calls write. -/
theorem History.output_append (since early : History) :
    History.output (since ++ early) = early.output ++ History.output since := by
  rw [output, output, output, List.reverse_append, List.map_append, String.join_append]

namespace CallStack

/-- A full stack stays as it is. -/
theorem push_of_full {calls : CallStack} (hFull : calls.isFull = true) (name : Name) :
    calls.push name = (.error (.callDepthExceeded (calls.limit.getD 0)), calls) := by
  rw [push, hFull, if_pos rfl]

/-- Below the limit a call is always let in, and its frame goes on top. -/
theorem push_of_free {calls : CallStack} (hFree : calls.isFull = false) (name : Name) :
    calls.push name = (.ok (), ⟨calls.frames.push name, calls.limit⟩) := by
  rw [push, hFree, if_neg Bool.false_ne_true]

theorem backtrace_enter (calls : CallStack) (name : Name) :
    backtrace ⟨calls.frames.push name, calls.limit⟩ = name :: calls.backtrace := by
  rw [backtrace, Array.toList_push, List.reverse_append, List.reverse_singleton, List.singleton_append,
    backtrace]

theorem backtrace_pop (calls : CallStack) : calls.pop.backtrace = calls.backtrace.tail := by
  rw [backtrace, pop, Array.toList_pop, backtrace, List.tail_reverse]

/-- Empty stacks differ in their limit only. -/
theorem eq_of_depth {calls other : CallStack} (h : calls.depth = 0) (hOther : other.depth = 0)
    (hLimit : calls.limit = other.limit) : calls = other := by
  obtain ⟨frames, limit⟩ := calls
  obtain ⟨frames', limit'⟩ := other
  rw [depth, Array.size_eq_zero_iff] at h hOther
  rw [CallStack.mk.injEq]
  exact ⟨h.trans hOther.symm, hLimit⟩

theorem length_backtrace (calls : CallStack) : calls.backtrace.length = calls.depth := by
  rw [backtrace, List.length_reverse, Array.length_toList, depth]

end CallStack

namespace Machine

mutual

/-- Number of functions of the program that are left before this is done. -/
def AfterValue.running : AfterValue → Nat
  | .rightOperand _ _ _ next | .operator _ _ next | .argument _ _ _ _ next => next.running
  | .declare _ _ next | .assign _ _ next | .yield next | .discard next | .branch _ _ _ next
  | .test _ _ _ next => next.running

def AfterBlock.running : AfterBlock → Nat
  | .halt => 0
  | .sequence _ _ next | .again _ _ _ next | .leave _ next => next.running
  | .finish _ next => next.running + 1

end

def Control.running : Control → Nat
  | evaluate _ _ next | apply _ _ _ _ next | value _ next => next.running
  | execute _ _ next | completed _ next => next.running

mutual

/-- What waits for the values of the functions of the program that are running, the innermost first. -/
def AfterValue.waiting : AfterValue → List AfterValue
  | .rightOperand _ _ _ next | .operator _ _ next | .argument _ _ _ _ next => next.waiting
  | .declare _ _ next | .assign _ _ next | .yield next | .discard next | .branch _ _ _ next
  | .test _ _ _ next => next.waiting

def AfterBlock.waiting : AfterBlock → List AfterValue
  | .halt => []
  | .sequence _ _ next | .again _ _ _ next | .leave _ next => next.waiting
  | .finish _ next => next :: next.waiting

end

namespace Control

def waiting : Control → List AfterValue
  | evaluate _ _ next | apply _ _ _ _ next | value _ next => next.waiting
  | execute _ _ next | completed _ next => next.waiting

/-- The function of the program that is called next, its arguments being evaluated, and what waits for
its value. -/
def called? : Control → Option (Name × AfterValue)
  | apply (.user function _) _ [] _ next => some (function.name, next)
  | _ => none

end Control

mutual

/-- Something waits for each function that is running, and for nothing else. -/
theorem AfterValue.length_waiting (next : AfterValue) : next.waiting.length = next.running := by
  match next with
  | .rightOperand _ _ _ next | .operator _ _ next | .argument _ _ _ _ next =>
      exact AfterValue.length_waiting next
  | .declare _ _ next | .assign _ _ next | .yield next | .discard next | .branch _ _ _ next
  | .test _ _ _ next => exact AfterBlock.length_waiting next

theorem AfterBlock.length_waiting (next : AfterBlock) : next.waiting.length = next.running := by
  match next with
  | .halt => rfl
  | .sequence _ _ next | .again _ _ _ next | .leave _ next => exact AfterBlock.length_waiting next
  | .finish _ next => exact congrArg (· + 1) (AfterValue.length_waiting next)

end

theorem Control.length_waiting (control : Control) : control.waiting.length = control.running := by
  cases control with
  | evaluate _ _ next | apply _ _ _ _ next | value _ next => exact next.length_waiting
  | execute _ _ next | completed _ next => exact next.length_waiting

/-- What a step does to the functions that are running. It leaves them as they are, and perhaps calls a
builtin; or it refuses a call of a function of the program, or enters the function, if the limit is not
reached; or it leaves the innermost function. -/
inductive Switch (state later : State) : Prop where
  | stays (called : state.control.called? = none)
      (waiting : later.control.waiting = state.control.waiting) (calls : later.calls = state.calls)
      (history : later.history = state.history)
  | consults (call : HostCall) (called : state.control.called? = none)
      (waiting : later.control.waiting = state.control.waiting) (calls : later.calls = state.calls)
      (history : later.history = call :: state.history)
  | refuses {name : Name} {next : AfterValue} {failure : Failure Name}
      (called : state.control.called? = some (name, next))
      (refused : later.control = .value (.error failure) next)
      (waiting : later.control.waiting = state.control.waiting) (calls : later.calls = state.calls)
      (history : later.history = state.history)
  | enters {name : Name} {next : AfterValue} (called : state.control.called? = some (name, next))
      (free : state.calls.isFull = false)
      (waiting : later.control.waiting = next :: state.control.waiting)
      (calls : later.calls = ⟨state.calls.frames.push name, state.calls.limit⟩)
      (history : later.history = state.history)
  | leaves {result : Result Completion} {activation : ScopeId} {next : AfterValue}
      (finished : state.control = .completed result (.finish activation next))
      (handed : later.control = .value (result.map (fun completion => completion.getD 0)) next)
      (calls : later.calls = state.calls.pop) (history : later.history = state.history)

section

variable (store : Store) (calls : CallStack) (history : History)

/-- A call that is resolved is not made yet: its arguments come first. -/
theorem switch_evaluate (expr : Expr) (scope : ScopeId) (next : AfterValue) :
    Switch ⟨.evaluate expr scope next, store, calls, history⟩
      (evaluate expr scope next store calls history) := by
  cases expr with
  | literal value | binary op left right => exact .stays rfl rfl rfl rfl
  | reference name | call callee arguments =>
      rw [evaluate]
      split <;> exact .stays rfl rfl rfl rfl

/-- All the cases of a call: a builtin, a refusal, or a body that is entered. -/
theorem switch_call (callee : Callable) (known : List Int32) (inner : ScopeId) (next : AfterValue) :
    Switch ⟨.apply callee known [] inner next, store, calls, history⟩
      (call callee known.reverse next (store.release inner) calls history) := by
  cases callee with
  | builtin builtin => exact .consults _ rfl rfl rfl rfl
  | user function home =>
      rw [call]
      split
      next => exact .refuses rfl rfl rfl rfl rfl
      next =>
        split
        next => exact .refuses rfl rfl rfl rfl rfl
        next =>
          cases hFull : calls.isFull with
          | true =>
              rw [CallStack.push_of_full hFull]
              exact .refuses rfl rfl rfl rfl rfl
          | false =>
              rw [CallStack.push_of_free hFull]
              simp only
              split <;> exact .enters rfl hFull rfl rfl rfl

/-- A `return` leaves nothing yet, for its value has to be computed first. -/
theorem switch_execute (stmt : Stmt) (others : Block) (scope : ScopeId) (next : AfterBlock) :
    Switch ⟨.execute (stmt :: others) scope next, store, calls, history⟩
      (execute stmt scope (.sequence others scope next) store calls history) := by
  cases stmt with
  | function name parameters body =>
      rw [execute]
      split <;> exact .stays rfl rfl rfl rfl
  | declare name value | loop condition body | branch condition positive negative
  | assign name value | yield value | evaluate value => exact .stays rfl rfl rfl rfl

/-- A value that is handed on ends no call of a function of the program, since those end with a
block. -/
theorem switch_deliver (value : Int32) (next : AfterValue) :
    Switch ⟨.value (.ok value) next, store, calls, history⟩
      (deliver value next store calls history) := by
  cases next with
  | rightOperand op right scope next | argument callee known pending inner next | yield next
  | discard next | branch positive negative scope next => exact .stays rfl rfl rfl rfl
  | operator op left next | declare name scope next | assign name scope next
  | test condition body scope next =>
      rw [deliver]
      split <;> exact .stays rfl rfl rfl rfl

/-- A failure passes work by work, and what it passes here is within one function. -/
theorem switch_abandon (failure : Failure Name) (next : AfterValue) :
    Switch ⟨.value (.error failure) next, store, calls, history⟩
      (abandon failure next store calls history) := by
  cases next <;> exact .stays rfl rfl rfl rfl

/-- The innermost function is left where its body ends, with a value, without one, or with a
failure. -/
theorem switch_resume (result : Result Completion) (next : AfterBlock) :
    Switch ⟨.completed result next, store, calls, history⟩
      (resume result next store calls history) := by
  cases next with
  | halt | leave scope next => exact .stays rfl rfl rfl rfl
  | sequence others scope next | again condition body scope next =>
      rcases result with failure | _ | value <;> exact .stays rfl rfl rfl rfl
  | finish activation next => exact .leaves rfl rfl rfl rfl

end

/-- One case for each of the machine's doings, and every later fact on calls is drawn from this one. -/
theorem State.switch (state : State) : Switch state (step state) := by
  obtain ⟨control, store, calls, history⟩ := state
  cases control with
  | evaluate expr scope next => exact switch_evaluate store calls history expr scope next
  | apply callee known pending inner next =>
      cases pending with
      | nil => exact switch_call store calls history callee known inner next
      | cons argument pending => cases callee <;> exact .stays rfl rfl rfl rfl
  | value result next =>
      cases result with
      | ok value => exact switch_deliver store calls history value next
      | error failure => exact switch_abandon store calls history failure next
  | execute block scope next =>
      cases block with
      | nil => exact .stays rfl rfl rfl rfl
      | cons stmt others => exact switch_execute store calls history stmt others scope next
  | completed result next => exact switch_resume store calls history result next

/-- What a step may do to the stack of calls and to the history: nothing, call a builtin, enter a
function, or leave one. -/
inductive Effect (state later : State) : Prop where
  | quiet (running : later.control.running = state.control.running)
      (calls : later.calls = state.calls) (history : later.history = state.history)
  | consults (call : HostCall) (running : later.control.running = state.control.running)
      (calls : later.calls = state.calls) (history : later.history = call :: state.history)
  | enters (name : Name) (running : later.control.running = state.control.running + 1)
      (calls : later.calls = ⟨state.calls.frames.push name, state.calls.limit⟩)
      (history : later.history = state.history)
  | leaves (running : later.control.running + 1 = state.control.running)
      (calls : later.calls = state.calls.pop) (history : later.history = state.history)

/-- What is kept of the switch when only the stack and the history are asked about. -/
theorem State.effect (state : State) : Effect state (step state) := by
  have hRunning {control : Control} {waiting : List AfterValue} (h : control.waiting = waiting) :
      control.running = waiting.length := by
    rw [← h, control.length_waiting]
  cases state.switch with
  | stays _ waiting calls history | refuses _ _ waiting calls history =>
      refine .quiet ?_ calls history
      rw [hRunning waiting, state.control.length_waiting]
  | consults call _ waiting calls history =>
      refine .consults call ?_ calls history
      rw [hRunning waiting, state.control.length_waiting]
  | @enters name _ _ _ waiting calls history =>
      refine .enters name ?_ calls history
      rw [hRunning waiting, List.length_cons, state.control.length_waiting]
  | leaves finished handed calls history =>
      refine .leaves ?_ calls history
      rw [handed, finished, Control.running, Control.running, AfterBlock.running]

/-- A run has one limit on nested calls. -/
theorem State.limit_step (state : State) : (step state).calls.limit = state.calls.limit := by
  cases state.effect with
  | quiet _ calls _ | consults _ _ calls _ | enters _ _ calls _ => rw [calls]
  | leaves _ calls _ => rw [calls, CallStack.pop]

/-- Calls of builtins that have been made stay made. -/
theorem State.history_step (state : State) : state.history <:+ (step state).history := by
  cases state.effect with
  | quiet _ _ history | enters _ _ _ history | leaves _ _ history => exact ⟨[], history.symm⟩
  | consults call _ _ history =>
      rw [history]
      exact List.suffix_cons call _

/-- The stack of calls has a frame for each running function. -/
def State.Balanced (state : State) : Prop :=
  state.calls.depth = state.control.running

/-- A function that is left takes its frame away, whether it returned, ended, or failed. -/
theorem State.Balanced.step {state : State} (h : state.Balanced) : (Machine.step state).Balanced := by
  rw [Balanced, CallStack.depth] at h ⊢
  cases state.effect with
  | quiet running calls _ | consults _ running calls _ => rw [calls, running, h]
  | enters name running calls _ => rw [calls, running, Array.size_push, h]
  | leaves running calls _ =>
      rw [calls, CallStack.pop, Array.size_pop, h, ← running, Nat.add_sub_cancel]

/-- When the machine rests, no function is left on the stack. -/
theorem State.Balanced.depth_of_rests {state : State} (h : state.Balanced) (hRests : state.Rests) :
    state.calls.depth = 0 := by
  obtain ⟨result, hControl⟩ := state.rests_iff.mp hRests
  rw [h, hControl, Control.running, AfterBlock.running]

theorem limit_after (steps : Nat) (state : State) :
    (after steps state).calls.limit = state.calls.limit := by
  induction steps generalizing state with
  | zero => rfl
  | succ steps ih => rw [after, ih, state.limit_step]

/-- Calls of builtins are recorded, and no record is lost. -/
theorem history_after (steps : Nat) (state : State) : state.history <:+ (after steps state).history := by
  induction steps generalizing state with
  | zero => exact List.suffix_refl _
  | succ steps ih => exact state.history_step.trans (ih (step state))

theorem State.Balanced.after {state : State} (h : state.Balanced) (steps : Nat) :
    (Machine.after steps state).Balanced := by
  induction steps generalizing state with
  | zero => exact h
  | succ steps ih => exact ih h.step

end Machine

end IntScript
