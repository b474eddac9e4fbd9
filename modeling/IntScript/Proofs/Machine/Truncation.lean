import IntScript.Proofs.Machine.Failures
import IntScript.Proofs.Machine.Start

/-! The limit on nested calls ends runs and does nothing else: a run under a looser limit takes the same
steps, up to the call that the tighter limit forbids. -/
namespace IntScript

namespace CallStack

/-- The second limit allows whatever the first one allows. -/
def Within : Option Nat → Option Nat → Prop
  | _, none => True
  | none, some _ => False
  | some tight, some loose => tight ≤ loose

def relimit (calls : CallStack) (limit : Option Nat) : CallStack :=
  ⟨calls.frames, limit⟩

theorem isFull_relimit {calls : CallStack} {loose : Option Nat} (h : Within calls.limit loose)
    (hFree : calls.isFull = false) : (calls.relimit loose).isFull = false := by
  obtain ⟨frames, tight⟩ := calls
  cases loose with
  | none => rfl
  | some loose =>
      cases tight with
      | none => exact absurd h id
      | some tight =>
          have hDepth : ¬ tight ≤ frames.size := of_decide_eq_false hFree
          have hLimits : tight ≤ loose := h
          exact decide_eq_false (fun hFull => hDepth (Nat.le_trans hLimits hFull))

/-- A stack without a limit is never full. -/
theorem exists_limit_of_isFull {calls : CallStack} (h : calls.isFull = true) :
    ∃ limit, calls.limit = some limit := by
  obtain ⟨frames, limit⟩ := calls
  cases limit with
  | none => cases h
  | some limit => exact ⟨limit, rfl⟩

end CallStack

/-- No operation on a scope fails for want of calls. -/
theorem ScopeError.fault_ne_callDepthExceeded (error : ScopeError) (limit : Nat) :
    error.fault ≠ .callDepthExceeded limit := by
  intro h
  cases error <;> cases h

/-- This fault names no function, so replacing names cannot bring it about. -/
theorem Fault.eq_callDepthExceeded_of_map {ν μ : Type} {f : ν → μ} {fault : Fault ν} {limit : Nat}
    (h : fault.map f = .callDepthExceeded limit) : fault = .callDepthExceeded limit := by
  cases fault <;> cases h
  rfl

namespace Machine

def State.relimit (state : State) (limit : Option Nat) : State :=
  { state with calls := state.calls.relimit limit }

/-- The failure that is handed on is that of a call beyond the limit. -/
def State.Exceeds (state : State) : Prop :=
  ∃ failure limit, state.control.failure? = some failure ∧ failure.fault = .callDepthExceeded limit

/-- Only a call beyond the limit raises this fault, which states the limit. -/
theorem Raises.at_limit {state : State} {limit : Nat} (h : Raises state (.callDepthExceeded limit)) :
    state.calls.limit = some limit ∧ state.calls.isFull = true := by
  generalize hFault : Fault.callDepthExceeded limit = fault at h
  cases h with
  | @reference _ _ _ _ _ _ error unbound | @callee _ _ _ _ _ _ _ error unbound
  | @declare _ _ _ _ _ _ _ _ error unbound | @assign _ _ _ _ _ _ _ _ error unbound
  | @function _ _ _ _ _ _ _ _ _ _ error unbound
  | @parameter _ _ _ _ _ _ _ _ _ error _ _ _ unbound =>
      exact absurd hFault.symm (error.fault_ne_callDepthExceeded limit)
  | operator refused =>
      subst hFault
      rcases BinaryOp.evaluate_error refused with hZero | hZero <;> cases hZero
  | arity mismatch | released matching gone => cases hFault
  | @depth _ _ _ _ _ _ calls _ matching live full =>
      obtain ⟨most, hMost⟩ := CallStack.exists_limit_of_isFull full
      rw [hMost, Option.getD_some] at hFault
      cases hFault
      exact ⟨hMost, full⟩

/-- So a run that ends at the limit reports its limit. -/
theorem limit_of_callDepthExceeded {start : State} (hStart : start.control.failure? = none)
    {steps limit : Nat} {failure : Failure Name}
    (hFailure : (after steps start).control.failure? = some failure)
    (hFault : failure.fault = .callDepthExceeded limit) : start.calls.limit = some limit := by
  obtain ⟨earlier, -, -, hRaises, -⟩ := exists_raises hStart hFailure
  rw [hFault] at hRaises
  rw [← limit_after earlier start]
  exact hRaises.at_limit.1

section

variable (store : Store) (calls : CallStack) (history : History) (loose : Option Nat)

/-- Evaluating never asks for the limit. -/
theorem relimit_evaluate (expr : Expr) (scope : ScopeId) (next : AfterValue) :
    evaluate expr scope next store (calls.relimit loose) history =
      (evaluate expr scope next store calls history).relimit loose := by
  cases expr with
  | literal value | binary op left right => rfl
  | reference name | call callee arguments =>
      rw [evaluate, evaluate]
      split <;> rfl

theorem relimit_execute (stmt : Stmt) (scope : ScopeId) (next : AfterBlock) :
    execute stmt scope next store (calls.relimit loose) history =
      (execute stmt scope next store calls history).relimit loose := by
  cases stmt with
  | function name parameters body =>
      rw [execute, execute]
      split <;> rfl
  | declare name value | loop condition body | branch condition positive negative
  | assign name value | yield value | evaluate value => rfl

theorem relimit_deliver (value : Int32) (next : AfterValue) :
    deliver value next store (calls.relimit loose) history =
      (deliver value next store calls history).relimit loose := by
  cases next with
  | rightOperand op right scope next | argument callee known pending inner next | yield next
  | discard next | branch positive negative scope next => rfl
  | operator op left next | declare name scope next | assign name scope next
  | test condition body scope next =>
      rw [deliver, deliver]
      split <;> rfl

theorem relimit_abandon (failure : Failure Name) (next : AfterValue) :
    abandon failure next store (calls.relimit loose) history =
      (abandon failure next store calls history).relimit loose := by
  cases next <;> rfl

theorem relimit_resume (result : Result Completion) (next : AfterBlock) :
    resume result next store (calls.relimit loose) history =
      (resume result next store calls history).relimit loose := by
  cases next with
  | halt | leave scope next | finish activation next => rfl
  | sequence others scope next | again condition body scope next =>
      rcases result with failure | _ | value <;> rfl

variable {calls loose}

/-- Only a call asks for the limit, and only whether it is reached. -/
theorem relimit_call (hWithin : CallStack.Within calls.limit loose) (callee : Callable)
    (arguments : List Int32) (next : AfterValue) :
    call callee arguments next store (calls.relimit loose) history =
        (call callee arguments next store calls history).relimit loose ∨
      (call callee arguments next store calls history).Exceeds ∧
        (call callee arguments next store calls history).history = history := by
  cases callee with
  | builtin builtin => exact Or.inl rfl
  | user function home =>
      rw [call, call]
      split
      next => exact Or.inl rfl
      next =>
        split
        next => exact Or.inl rfl
        next =>
          cases hFull : calls.isFull with
          | true =>
              rw [CallStack.push_of_full hFull]
              exact Or.inr ⟨⟨_, _, rfl, rfl⟩, rfl⟩
          | false =>
              have hLoose := CallStack.isFull_relimit hWithin hFull
              rw [CallStack.push_of_free hFull, CallStack.push_of_free hLoose]
              refine Or.inl ?_
              simp only
              split <;> rfl

end

/-- One step under a looser limit is the same step, unless it reaches the tighter limit. -/
theorem State.step_relimit {state : State} {loose : Option Nat}
    (hWithin : CallStack.Within state.calls.limit loose) :
    step (state.relimit loose) = (step state).relimit loose ∨
      (step state).Exceeds ∧ (step state).history = state.history := by
  obtain ⟨control, store, calls, history⟩ := state
  cases control with
  | evaluate expr scope next => exact Or.inl (relimit_evaluate store calls history loose expr scope next)
  | apply callee known pending inner next =>
      cases pending with
      | nil => exact relimit_call _ history hWithin callee known.reverse next
      | cons argument pending => exact Or.inl rfl
  | value result next =>
      cases result with
      | ok value => exact Or.inl (relimit_deliver store calls history loose value next)
      | error failure => exact Or.inl (relimit_abandon store calls history loose failure next)
  | execute block scope next =>
      cases block with
      | nil => exact Or.inl rfl
      | cons stmt others => exact Or.inl (relimit_execute store calls history loose stmt scope _)
  | completed result next => exact Or.inl (relimit_resume store calls history loose result next)

/-- A failure is handed on as it is, so this one remains the cause. -/
theorem State.Exceeds.step {state : State} (h : state.Exceeds) : (Machine.step state).Exceeds := by
  obtain ⟨failure, limit, hFailure, hFault⟩ := h
  exact ⟨failure, limit, (State.step_of_failure hFailure).1, hFault⟩

/-- After any number of steps, the run under the looser limit is in the same state, or the run under the
tighter one has reached its limit and the calls of builtins that it made are the first of those that
the other has made. -/
theorem after_relimit {state : State} {loose : Option Nat}
    (hWithin : CallStack.Within state.calls.limit loose) (steps : Nat) :
    after steps (state.relimit loose) = (after steps state).relimit loose ∨
      (after steps state).Exceeds ∧
        (after steps state).history <:+ (after steps (state.relimit loose)).history := by
  induction steps with
  | zero => exact Or.inl rfl
  | succ steps ih =>
      have hTight : after (steps + 1) state = step (after steps state) := after_add steps 1 state
      have hLoose : after (steps + 1) (state.relimit loose) = step (after steps (state.relimit loose)) :=
        after_add steps 1 (state.relimit loose)
      rw [hTight, hLoose]
      rcases ih with hSame | ⟨hExceeds, hSuffix⟩
      · rw [hSame]
        have hWithinNow : CallStack.Within (after steps state).calls.limit loose := by
          rwa [limit_after]
        rcases State.step_relimit hWithinNow with hStep | ⟨hExceeds, hHistory⟩
        · exact Or.inl hStep
        · refine Or.inr ⟨hExceeds, ?_⟩
          rw [hHistory]
          exact ((after steps state).relimit loose).history_step
      · refine Or.inr ⟨hExceeds.step, ?_⟩
        obtain ⟨failure, limit, hFailure, -⟩ := hExceeds
        rw [(State.step_of_failure hFailure).2]
        exact hSuffix.trans (State.history_step _)

/-- Up to rest, the two runs do the same step by step. -/
theorem run_relimit {start final : State} {loose : Option Nat} {steps : Nat}
    (hWithin : CallStack.Within start.calls.limit loose) (hRun : run steps start = some final)
    (hFinal : ¬ final.Exceeds) : run steps (start.relimit loose) = some (final.relimit loose) := by
  obtain ⟨rfl, hRests⟩ := (run_eq_some_iff ..).mp hRun
  rcases after_relimit hWithin steps with hSame | ⟨hExceeds, -⟩
  · exact (run_eq_some_iff ..).mpr ⟨hSame, hRests⟩
  · exact absurd hExceeds hFinal

/-- However the tighter run goes on, the looser one has at least the calls of builtins that it has had. -/
theorem history_suffix_relimit {start : State} {loose : Option Nat} {steps more : Nat}
    (hWithin : CallStack.Within start.calls.limit loose) (hMore : steps ≤ more) :
    (after steps start).history <:+ (after more (start.relimit loose)).history := by
  obtain ⟨extra, rfl⟩ := Nat.exists_eq_add_of_le hMore
  have hSteps : (after steps start).history <:+ (after steps (start.relimit loose)).history := by
    rcases after_relimit hWithin steps with hSame | ⟨-, hSuffix⟩
    · rw [hSame]
      exact List.suffix_refl _
    · exact hSuffix
  rw [after_add]
  exact hSteps.trans (history_after extra _)

end Machine

def RunResult.fault? (result : RunResult) : Option (Fault String) :=
  match result.outcome with
  | .error failure => some failure.fault
  | .ok _ => none

/-- The earlier calls of builtins are the first of the later ones, and so is what they wrote. -/
def History.Begins (early late : History) : Prop :=
  ∃ since, late = since ++ early ∧ late.output = early.output ++ History.output since

/-- The latest call stands in front, so an earlier history is the end of a later one. -/
theorem History.begins_of_suffix {early late : History} (h : early <:+ late) : early.Begins late := by
  obtain ⟨since, rfl⟩ := h
  exact ⟨since, rfl, output_append since early⟩

namespace Interpreter

open Machine

def relimit (interpreter : Interpreter) (limit : Option Nat) : Interpreter :=
  { interpreter with calls := interpreter.calls.relimit limit }

/-- The result says nothing about the limit. Only the interpreter keeps it. -/
theorem finish_relimit (interpreter : Interpreter) (loose : Option Nat) (state : State)
    (names : Interner) : (interpreter.relimit loose).finish (state.relimit loose) names =
      ((interpreter.finish state names).1, (interpreter.finish state names).2.relimit loose) :=
  rfl

/-- What is reported of a failure at the limit. -/
theorem fault?_finish_eq_some_iff (interpreter : Interpreter) {state : State} (hRests : state.Rests)
    (names : Interner) (limit : Nat) :
    (interpreter.finish state names).1.fault? = some (.callDepthExceeded limit) ↔
      ∃ failure, state.control.failure? = some failure ∧ failure.fault = .callDepthExceeded limit := by
  obtain ⟨control, store, calls, history⟩ := state
  obtain ⟨result, rfl⟩ := (State.rests_iff _).mp hRests
  cases result with
  | ok completion =>
      constructor
      · intro hFault
        cases hFault
      · rintro ⟨failure, hFailure, -⟩
        cases hFailure
  | error failure =>
      constructor
      · intro hFault
        exact ⟨failure, rfl, Fault.eq_callDepthExceeded_of_map (Option.some.inj hFault)⟩
      · rintro ⟨found, hFailure, hFault⟩
        cases hFailure
        exact congrArg (fun fault => some (Fault.map names.lookup fault)) hFault

section

variable {interpreter ended : Interpreter} {names later : Interner} {store : Store} {loose : Option Nat}
  {program : Block} {steps : Nat} {result : RunResult}
  (hSeeded : declareBuiltins (Store.empty.root).2 0 interpreter.builtins.entries names =
    ((.ok (), store), later))
  (hRun : interpreter.runWithin steps program names = (some (result, ended), later))

include hSeeded hRun

/-- The limit that a run reports is its own. -/
theorem limit_of_fault {limit : Nat} (hFault : result.fault? = some (.callDepthExceeded limit)) :
    interpreter.calls.limit = some limit := by
  obtain ⟨final, hFinal, hFinish, -⟩ := (runWithin_eq_some_iff hSeeded).mp hRun
  obtain ⟨rfl, hRests⟩ := (run_eq_some_iff ..).mp hFinal
  obtain ⟨rfl, -⟩ := Prod.mk.inj hFinish
  obtain ⟨failure, hFailure, hExceeded⟩ := (fault?_finish_eq_some_iff interpreter hRests later limit).mp hFault
  have hStart : (interpreter.start program store 0).control.failure? = none := rfl
  exact limit_of_callDepthExceeded hStart hFailure hExceeded

variable (hWithin : CallStack.Within interpreter.calls.limit loose)

include hWithin

/-- A run that does not end in this fault is the same under any looser limit. -/
theorem runWithin_relimit (hOther : ∀ limit, result.fault? ≠ some (.callDepthExceeded limit)) :
    (interpreter.relimit loose).runWithin steps program names =
      (some (result, ended.relimit loose), later) := by
  obtain ⟨final, hFinal, hFinish, -⟩ := (runWithin_eq_some_iff hSeeded).mp hRun
  obtain ⟨-, hRests⟩ := (run_eq_some_iff ..).mp hFinal
  obtain ⟨rfl, rfl⟩ := Prod.mk.inj hFinish
  have hNotAtLimit : ¬ final.Exceeds := by
    rintro ⟨failure, limit, hFailure, hFault⟩
    have hReported := fault?_finish_eq_some_iff interpreter hRests later limit
    exact hOther limit (hReported.mpr ⟨failure, hFailure, hFault⟩)
  have hStart : CallStack.Within (interpreter.start program store 0).calls.limit loose := hWithin
  have hSame := run_relimit hStart hFinal hNotAtLimit
  have hLoose : declareBuiltins (Store.empty.root).2 0 (interpreter.relimit loose).builtins.entries
      names = ((.ok (), store), later) := hSeeded
  exact (runWithin_eq_some_iff hLoose).mpr
    ⟨final.relimit loose, hSame, finish_relimit interpreter loose final later, rfl⟩

/-- Whether or not the run under the looser limit ends. -/
theorem begins_after_relimit {more : Nat} (hMore : steps ≤ more) : result.history.Begins
    (after more ((interpreter.relimit loose).start program store 0)).history := by
  obtain ⟨final, hFinal, hFinish, -⟩ := (runWithin_eq_some_iff hSeeded).mp hRun
  obtain ⟨rfl, -⟩ := (run_eq_some_iff ..).mp hFinal
  obtain ⟨rfl, -⟩ := Prod.mk.inj hFinish
  have hStart : CallStack.Within (interpreter.start program store 0).calls.limit loose := hWithin
  exact History.begins_of_suffix (history_suffix_relimit hStart hMore)

/-- A run that does end in it has made calls of builtins with which every longer run begins. -/
theorem begins_runWithin_relimit {more : Nat} {longer : RunResult} {other : Interpreter}
    {last : Interner}
    (hLonger : (interpreter.relimit loose).runWithin more program names = (some (longer, other), last)) :
    result.history.Begins longer.history := by
  have hLoose : declareBuiltins (Store.empty.root).2 0 (interpreter.relimit loose).builtins.entries
      names = ((.ok (), store), later) := hSeeded
  obtain ⟨final, hFinal, hFinish, -⟩ := (runWithin_eq_some_iff hLoose).mp hLonger
  obtain ⟨hAfter, hRests⟩ := (run_eq_some_iff ..).mp hFinal
  obtain ⟨rfl, -⟩ := Prod.mk.inj hFinish
  have hBegins := begins_after_relimit hSeeded hRun hWithin (Nat.le_add_left steps more)
  rwa [after_add, hAfter, hRests.after] at hBegins

end

/-- What a run under the tighter limit came to is what it comes to under the looser one, unless it ended
at the limit. Then the limit that is reported is the tighter one, and however far the other run goes,
its calls of builtins and what they write begin with those of the run that was cut short. -/
theorem limit_truncates {interpreter ended : Interpreter} {loose : Option Nat} {program : Block}
    {names later : Interner} {steps : Nat} {result : RunResult}
    (hWithin : CallStack.Within interpreter.calls.limit loose)
    (hRun : interpreter.runWithin steps program names = (some (result, ended), later)) :
    ((∀ limit, result.fault? ≠ some (.callDepthExceeded limit)) →
      (interpreter.relimit loose).runWithin steps program names =
        (some (result, ended.relimit loose), later)) ∧
    (∀ limit, result.fault? = some (.callDepthExceeded limit) →
      interpreter.calls.limit = some limit ∧
      (∃ store, declareBuiltins (Store.empty.root).2 0 interpreter.builtins.entries names =
          ((.ok (), store), later) ∧
        ∀ more, steps ≤ more → result.history.Begins
          (after more ((interpreter.relimit loose).start program store 0)).history) ∧
      ∀ more longer other last, (interpreter.relimit loose).runWithin more program names =
        (some (longer, other), last) → result.history.Begins longer.history) := by
  cases hDeclared : declareBuiltins (Store.empty.root).2 0 interpreter.builtins.entries names with
  | mk answer seeded =>
      obtain ⟨⟨error⟩ | ⟨⟨⟩⟩, store⟩ := answer
      · have hLoose : declareBuiltins (Store.empty.root).2 0
            (interpreter.relimit loose).builtins.entries names = ((.error error, store), seeded) := hDeclared
        rw [runWithin_unseeded hDeclared] at hRun
        cases hRun
        refine ⟨fun _ => runWithin_unseeded hLoose program steps, fun limit hFault => ?_⟩
        have hMap := Fault.eq_callDepthExceeded_of_map (Option.some.inj hFault)
        exact absurd hMap (error.fault_ne_callDepthExceeded limit)
      · obtain ⟨-, -, -, rfl⟩ := (runWithin_eq_some_iff hDeclared).mp hRun
        refine ⟨runWithin_relimit hDeclared hRun hWithin, fun limit hFault => ⟨?_, ?_, ?_⟩⟩
        · exact limit_of_fault hDeclared hRun hFault
        · exact ⟨store, rfl, fun more hMore => begins_after_relimit hDeclared hRun hWithin hMore⟩
        · exact fun more longer other last => begins_runWithin_relimit hDeclared hRun hWithin

/-- `fun f() { println(1)  f() }`, `f()`. -/
def printsForever : Block :=
  [.function ⟨8⟩ [] [.evaluate (.call ⟨7⟩ [.literal 1]), .evaluate (.call ⟨8⟩ [])],
    .evaluate (.call ⟨8⟩ [])]

/-- A limit of two ends it in the third call of `f`. Without a limit it goes on, having written the same
two lines first. -/
theorem limit_truncates_printsForever :
    ∃ result ended names store,
      (new Builtins.standard (some 2)).runWithin 35 printsForever (Interner.initial.intern "f").2 =
        (some (result, ended), names) ∧
      result.fault? = some (.callDepthExceeded 2) ∧
      result.history.map (·.arguments) = [[1], [1]] ∧
      ∀ more, 35 ≤ more → result.history.Begins
        (after more ((new Builtins.standard none).start printsForever store 0)).history := by
  generalize hOutcome : (new Builtins.standard (some 2)).runWithin 35 printsForever
    (Interner.initial.intern "f").2 = outcome
  have hFault : outcome.1.bind (·.1.fault?) = some (.callDepthExceeded 2) := by
    rw [← hOutcome]
    decide +kernel
  have hCalls : outcome.1.map (·.1.history.map (·.arguments)) = some [[1], [1]] := by
    rw [← hOutcome]
    decide +kernel
  obtain ⟨_ | ⟨result, ended⟩, names⟩ := outcome
  · cases hFault
  · have hWithin : CallStack.Within (new Builtins.standard (some 2)).calls.limit none := trivial
    obtain ⟨-, hTruncated⟩ := limit_truncates hWithin hOutcome
    obtain ⟨-, ⟨store, -, hBegins⟩, -⟩ := hTruncated 2 hFault
    exact ⟨result, ended, names, store, rfl, hFault, Option.some.inj hCalls, hBegins⟩

end Interpreter

end IntScript
