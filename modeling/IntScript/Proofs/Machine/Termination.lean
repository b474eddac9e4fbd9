import IntScript.Proofs.Machine.Calls
import IntScript.Proofs.Machine.Start

/-! A program without loops ends if calls may nest only so deep, whatever functions it declares and
however they call each other. A piece of work either goes on with a part of its own text, and leaves the
room for calls as it is, or enters a function, whose text may be larger than its own but which has less
room; on leaving the function the room is given back. -/
namespace IntScript

mutual

/-- Whether the statement is a loop or has one in a block inside it. -/
def Stmt.hasLoop : Stmt → Bool
  | .loop _ _ => true
  | .function _ _ body => Block.hasLoop body
  | .branch _ positive negative => Block.hasLoop positive || Block.hasLoop negative
  | .declare _ _ | .assign _ _ | .yield _ | .evaluate _ => false

def Block.hasLoop : Block → Bool
  | [] => false
  | stmt :: others => stmt.hasLoop || Block.hasLoop others

end

/-- No function of the program that is bound in a scope has a loop. -/
def Store.LoopFree (store : Store) : Prop :=
  ∀ {id : ScopeId} {name : Name} {function : Function} {home : ScopeId},
    store.Binds id (.function name (.user function home)) → Block.hasLoop function.body = false

def Callable.LoopFree : Callable → Prop
  | builtin _ => True
  | user function _ => Block.hasLoop function.body = false

/-- Leaving the empty stack is no error and changes nothing. -/
theorem CallStack.depth_pop (calls : CallStack) : calls.pop.depth = calls.depth - 1 := by
  rw [depth, pop, Array.size_pop, depth]

namespace Machine

/-- Statements that are executed next have no loop. -/
def Control.LoopFree : Control → Prop
  | execute block _ _ => Block.hasLoop block = false
  | _ => True

/-- The work is in order, no function that it can reach has a loop, and no more than `room` further calls
can nest. -/
structure State.Bounded (limit room : Nat) (state : State) : Prop where
  work : state.Disciplined
  functions : state.store.LoopFree
  limited : state.calls.limit = some limit
  spared : limit ≤ state.calls.depth + room

/-- The machine comes to hand the result of an expression to what waits for it, with the same room. -/
def ReachesValue (limit room : Nat) (next : AfterValue) (state : State) : Prop :=
  ∃ later result, Reaches state later ∧ later.Bounded limit room ∧ later.control = .value result next

/-- The machine comes to hand the completion of a block to what waits for it, with the same room. -/
def ReachesCompletion (limit room : Nat) (next : AfterBlock) (state : State) : Prop :=
  ∃ later result, Reaches state later ∧ later.Bounded limit room ∧ later.control = .completed result next

section

variable {limit room : Nat} {state middle : State} {next : AfterValue} {after : AfterBlock}

/-- A function of the program that a look-up finds has no loop. -/
theorem State.Bounded.loopFree_of_getFunction (h : state.Bounded limit room) {scope : ScopeId}
    {name : Name} {callable : Callable} (hFound : state.store.getFunction scope name = .ok callable) :
    callable.LoopFree := by
  obtain ⟨owner, inner, -, hScope, hEntry⟩ := h.work.store.older.entry_of_getFunction hFound
  cases callable with
  | builtin builtin => trivial
  | user function home => exact h.functions ⟨inner, hScope, hEntry⟩

/-- A function that a step declares stands in the block that is executed. -/
theorem State.Bounded.loopFree_step (h : state.Bounded limit room) (hBlock : state.control.LoopFree) :
    (Machine.step state).store.LoopFree := by
  intro id name function home hBinds
  rcases h.work.step_binds hBinds with hOld | hDeclares
  · exact h.functions hOld
  · cases hDeclares with
    | function name parameters body others scope next store calls history =>
        have hLoops : (Block.hasLoop body || Block.hasLoop others) = false := hBlock
        exact (Bool.or_eq_false_iff.mp hLoops).1

/-- A step that enters and leaves no function leaves the room for calls as it is. -/
theorem State.Bounded.step (h : state.Bounded limit room) (hBlock : state.control.LoopFree)
    (hCalls : (Machine.step state).calls = state.calls) : (Machine.step state).Bounded limit room := by
  refine ⟨h.work.step, h.loopFree_step hBlock, ?_, ?_⟩
  · rw [hCalls, h.limited]
  · rw [hCalls]
    exact h.spared

/-- Leaving a function gives back the room that it took. -/
theorem State.Bounded.leave (h : state.Bounded limit room) (hBlock : state.control.LoopFree)
    (hCalls : (Machine.step state).calls = state.calls.pop) :
    (Machine.step state).Bounded limit (room + 1) := by
  refine ⟨h.work.step, h.loopFree_step hBlock, ?_, ?_⟩
  · rw [hCalls]
    exact h.limited
  · have hSpared := h.spared
    rw [hCalls, CallStack.depth_pop]
    omega

theorem ReachesValue.of_reaches (hReaches : Reaches state middle)
    (h : ReachesValue limit room next middle) : ReachesValue limit room next state := by
  obtain ⟨later, result, hFurther, hLater⟩ := h
  exact ⟨later, result, hReaches.trans hFurther, hLater⟩

theorem ReachesValue.of_step (h : ReachesValue limit room next (step state)) :
    ReachesValue limit room next state :=
  .of_reaches ⟨1, rfl⟩ h

theorem ReachesCompletion.of_reaches (hReaches : Reaches state middle)
    (h : ReachesCompletion limit room after middle) : ReachesCompletion limit room after state := by
  obtain ⟨later, result, hFurther, hLater⟩ := h
  exact ⟨later, result, hReaches.trans hFurther, hLater⟩

theorem ReachesCompletion.of_step (h : ReachesCompletion limit room after (step state)) :
    ReachesCompletion limit room after state :=
  .of_reaches ⟨1, rfl⟩ h

/-- Where the result is at hand already, it is reached. -/
theorem State.Bounded.reachesValue (h : state.Bounded limit room)
    (hControl : ∃ result, state.control = .value result next) : ReachesValue limit room next state :=
  hControl.elim fun result hControl => ⟨state, result, Reaches.refl state, h, hControl⟩

theorem State.Bounded.reachesCompletion (h : state.Bounded limit room)
    (hControl : ∃ result, state.control = .completed result after) :
    ReachesCompletion limit room after state :=
  hControl.elim fun result hControl => ⟨state, result, Reaches.refl state, h, hControl⟩

/-- Some work is completed by the value that it waits for, or by the failure. -/
theorem ReachesValue.completes (h : ReachesValue limit room next state)
    (hStep : ∀ result store calls history,
      (∃ completion, (step ⟨.value result next, store, calls, history⟩).control =
        .completed completion after) ∧
      (step ⟨.value result next, store, calls, history⟩).calls = calls) :
    ReachesCompletion limit room after state := by
  obtain ⟨⟨control, store, calls, history⟩, result, hReaches, hLater, rfl⟩ := h
  obtain ⟨hControl, hCalls⟩ := hStep result store calls history
  exact .of_reaches hReaches (.of_step ((hLater.step trivial hCalls).reachesCompletion hControl))

/-- The end of a block in a scope of its own. -/
theorem ReachesCompletion.leave {scope : ScopeId}
    (h : ReachesCompletion limit room (.leave scope after) state) :
    ReachesCompletion limit room after state := by
  obtain ⟨⟨control, store, calls, history⟩, result, hReaches, hLater, rfl⟩ := h
  exact .of_reaches hReaches (.of_step ((hLater.step trivial rfl).reachesCompletion ⟨result, rfl⟩))

/-- The end of a call. -/
theorem ReachesCompletion.finish {activation : ScopeId}
    (h : ReachesCompletion limit room (.finish activation next) state) :
    ReachesValue limit (room + 1) next state := by
  obtain ⟨⟨control, store, calls, history⟩, result, hReaches, hLater, rfl⟩ := h
  exact .of_reaches hReaches (.of_step ((hLater.leave trivial rfl).reachesValue ⟨_, rfl⟩))

/-- A function is entered only where there is room for one more call. -/
theorem State.Bounded.enter (h : state.Bounded limit room) (hBlock : state.control.LoopFree)
    (hFree : state.calls.isFull = false) {name : Name}
    (hCalls : (Machine.step state).calls = ⟨state.calls.frames.push name, state.calls.limit⟩) :
    ∃ less, room = less + 1 ∧ (Machine.step state).Bounded limit less := by
  rw [CallStack.isFull, h.limited] at hFree
  have hSpared := h.spared
  have hRoom : ¬ limit ≤ state.calls.depth := of_decide_eq_false hFree
  refine ⟨room - 1, by omega, h.work.step, h.loopFree_step hBlock, ?_, ?_⟩
  · rw [hCalls]
    exact h.limited
  · rw [hCalls, CallStack.depth, Array.size_push, ← CallStack.depth]
    omega

end

/-- A call of a function of the program fails, and nothing else happens; or the function is entered, and
its body is next unless a parameter is given twice. -/
theorem step_call (function : Function) (home : ScopeId) (known : List Int32) (inner : ScopeId)
    (next : AfterValue) (store : Store) (calls : CallStack) (history : History) :
    let later := step ⟨.apply (.user function home) known [] inner next, store, calls, history⟩
    ((∃ result, later.control = .value result next) ∧ later.calls = calls) ∨
      (calls.isFull = false ∧ later.calls = ⟨calls.frames.push function.name, calls.limit⟩ ∧
        ∃ activation, (∃ result, later.control = .completed result (.finish activation next)) ∨
          later.control = .execute function.body activation (.finish activation next)) := by
  simp only [step, call]
  split
  next => exact Or.inl ⟨⟨_, rfl⟩, rfl⟩
  next =>
    split
    next => exact Or.inl ⟨⟨_, rfl⟩, rfl⟩
    next =>
      cases hFull : calls.isFull with
      | true =>
          rw [CallStack.push_of_full hFull]
          exact Or.inl ⟨⟨_, rfl⟩, rfl⟩
      | false =>
          rw [CallStack.push_of_free hFull]
          right
          simp only
          split
          next => exact ⟨trivial, rfl, _, Or.inl ⟨_, rfl⟩⟩
          next => exact ⟨trivial, rfl, _, Or.inr rfl⟩

mutual

/-- An expression gets a value or fails. The induction is on the room for calls, and where no function is
entered, on the text of what is evaluated or executed. -/
theorem evaluate_ends {limit : Nat} (room : Nat) (expr : Expr) {scope : ScopeId} {next : AfterValue}
    {store : Store} {calls : CallStack} {history : History}
    (h : State.Bounded limit room ⟨.evaluate expr scope next, store, calls, history⟩) :
    ReachesValue limit room next ⟨.evaluate expr scope next, store, calls, history⟩ := by
  apply ReachesValue.of_step
  match expr with
  | .literal value => exact (h.step trivial rfl).reachesValue ⟨_, rfl⟩
  | .reference name =>
      have hStep : (∃ result, (step ⟨.evaluate (.reference name) scope next, store, calls, history⟩).control =
            .value result next) ∧
          (step ⟨.evaluate (.reference name) scope next, store, calls, history⟩).calls = calls := by
        rw [step, evaluate]
        split <;> exact ⟨⟨_, rfl⟩, rfl⟩
      exact (h.step trivial hStep.2).reachesValue hStep.1
  | .call callee arguments =>
      cases hFound : store.getFunction scope callee with
      | ok callable =>
          have hApply := h.step trivial (by simp only [step, evaluate, hFound])
          simp only [step, evaluate, hFound] at hApply ⊢
          exact apply_ends room arguments (h.loopFree_of_getFunction hFound) hApply
      | error error =>
          have hFails := h.step trivial (by simp only [step, evaluate, hFound])
          simp only [step, evaluate, hFound] at hFails ⊢
          exact hFails.reachesValue ⟨_, rfl⟩
  | .binary op left right =>
      obtain ⟨⟨_, store, calls, history⟩, result, hLeft, hBetween, rfl⟩ :=
        evaluate_ends room left (h.step trivial rfl)
      refine .of_reaches hLeft (.of_step ?_)
      cases result with
      | error failure => exact (hBetween.step trivial rfl).reachesValue ⟨_, rfl⟩
      | ok value =>
          obtain ⟨⟨_, store, calls, history⟩, result, hRight, hAfter, rfl⟩ :=
            evaluate_ends room right (hBetween.step trivial rfl)
          refine .of_reaches hRight (.of_step ?_)
          have hStep : (∃ final, (step ⟨.value result (.operator op value next), store, calls, history⟩).control =
                .value final next) ∧
              (step ⟨.value result (.operator op value next), store, calls, history⟩).calls = calls := by
            cases result with
            | error failure => exact ⟨⟨_, rfl⟩, rfl⟩
            | ok other =>
                rw [step, deliver]
                split <;> exact ⟨⟨_, rfl⟩, rfl⟩
          exact (hAfter.step trivial hStep.2).reachesValue hStep.1
termination_by (room, sizeOf expr)

/-- A call gets a value or fails. -/
theorem apply_ends {limit : Nat} (room : Nat) (pending : List Expr) {callee : Callable}
    (hCallee : callee.LoopFree) {known : List Int32} {inner : ScopeId} {next : AfterValue}
    {store : Store} {calls : CallStack} {history : History}
    (h : State.Bounded limit room ⟨.apply callee known pending inner next, store, calls, history⟩) :
    ReachesValue limit room next ⟨.apply callee known pending inner next, store, calls, history⟩ := by
  apply ReachesValue.of_step
  match pending with
  | [] =>
      cases callee with
      | builtin builtin => exact (h.step trivial rfl).reachesValue ⟨_, rfl⟩
      | user function home =>
          rcases step_call function home known inner next store calls history with
            ⟨hControl, hCalls⟩ | ⟨hFree, hCalls, activation, hControl⟩
          · exact (h.step trivial hCalls).reachesValue hControl
          · obtain ⟨less, rfl, hEntered⟩ := h.enter trivial hFree hCalls
            apply ReachesCompletion.finish
            rcases hControl with hControl | hControl
            · exact hEntered.reachesCompletion hControl
            · exact execute_ends less function.body hCallee hEntered hControl
  | argument :: pending =>
      obtain ⟨⟨_, store, calls, history⟩, result, hArgument, hBetween, rfl⟩ :=
        evaluate_ends room argument (h.step trivial rfl)
      refine .of_reaches hArgument (.of_step ?_)
      cases result with
      | error failure => exact (hBetween.step trivial rfl).reachesValue ⟨_, rfl⟩
      | ok value => exact apply_ends room pending hCallee (hBetween.step trivial rfl)
termination_by (room, sizeOf pending)

/-- A block without loops reaches its end, returns a value or fails. -/
theorem execute_ends {limit : Nat} (room : Nat) (block : Block) (hBlock : block.hasLoop = false)
    {scope : ScopeId} {next : AfterBlock} {state : State} (h : state.Bounded limit room)
    (hControl : state.control = .execute block scope next) : ReachesCompletion limit room next state := by
  match block, hBlock, hControl with
  | [], hBlock, hControl =>
      obtain ⟨_, store, calls, history⟩ := state
      subst hControl
      exact .of_step ((h.step hBlock rfl).reachesCompletion ⟨_, rfl⟩)
  | stmt :: others, hBlock, hControl =>
      obtain ⟨_, store, calls, history⟩ := state
      subst hControl
      have hLoops : (stmt.hasLoop || Block.hasLoop others) = false := hBlock
      obtain ⟨hStmt, hOthers⟩ := Bool.or_eq_false_iff.mp hLoops
      obtain ⟨⟨_, store, calls, history⟩, result, hFirst, hBetween, rfl⟩ :=
        statement_ends room stmt hStmt hBlock h
      refine .of_reaches hFirst (.of_step ?_)
      rcases result with failure | _ | value
      · exact (hBetween.step trivial rfl).reachesCompletion ⟨_, rfl⟩
      · exact execute_ends room others hOthers (hBetween.step trivial rfl) rfl
      · exact (hBetween.step trivial rfl).reachesCompletion ⟨_, rfl⟩
termination_by (room, sizeOf block)

/-- So does a statement that is no loop and has none inside it. -/
theorem statement_ends {limit : Nat} (room : Nat) (stmt : Stmt) (hStmt : stmt.hasLoop = false)
    {others : Block} (hBlock : Block.hasLoop (stmt :: others) = false) {scope : ScopeId}
    {next : AfterBlock} {store : Store} {calls : CallStack} {history : History}
    (h : State.Bounded limit room ⟨.execute (stmt :: others) scope next, store, calls, history⟩) :
    ReachesCompletion limit room (.sequence others scope next)
      ⟨.execute (stmt :: others) scope next, store, calls, history⟩ := by
  apply ReachesCompletion.of_step
  match stmt with
  | .function name parameters body =>
      have hStep :
          (∃ result, (step ⟨.execute (.function name parameters body :: others) scope next, store, calls,
            history⟩).control = .completed result (.sequence others scope next)) ∧
          (step ⟨.execute (.function name parameters body :: others) scope next, store, calls,
            history⟩).calls = calls := by
        rw [step, execute]
        split <;> exact ⟨⟨_, rfl⟩, rfl⟩
      exact (h.step hBlock hStep.2).reachesCompletion hStep.1
  | .declare name value =>
      refine (evaluate_ends room value (h.step hBlock rfl)).completes fun result store calls history => ?_
      cases result with
      | error failure => exact ⟨⟨_, rfl⟩, rfl⟩
      | ok value =>
          rw [step, deliver]
          split <;> exact ⟨⟨_, rfl⟩, rfl⟩
  | .assign name value =>
      refine (evaluate_ends room value (h.step hBlock rfl)).completes fun result store calls history => ?_
      cases result with
      | error failure => exact ⟨⟨_, rfl⟩, rfl⟩
      | ok value =>
          rw [step, deliver]
          split <;> exact ⟨⟨_, rfl⟩, rfl⟩
  | .yield value | .evaluate value =>
      refine (evaluate_ends room value (h.step hBlock rfl)).completes fun result store calls history => ?_
      cases result <;> exact ⟨⟨_, rfl⟩, rfl⟩
  | .branch condition positive negative =>
      have hLoops : (Block.hasLoop positive || Block.hasLoop negative) = false := hStmt
      obtain ⟨hPositive, hNegative⟩ := Bool.or_eq_false_iff.mp hLoops
      obtain ⟨⟨_, store, calls, history⟩, result, hCondition, hBetween, rfl⟩ :=
        evaluate_ends room condition (h.step hBlock rfl)
      refine .of_reaches hCondition (.of_step ?_)
      cases result with
      | error failure => exact (hBetween.step trivial rfl).reachesCompletion ⟨_, rfl⟩
      | ok value =>
          apply ReachesCompletion.leave
          by_cases hValue : value ≠ 0
          · have hEnters := hBetween.step trivial rfl
            simp only [step, deliver, if_pos hValue] at hEnters ⊢
            exact execute_ends room positive hPositive hEnters rfl
          · have hEnters := hBetween.step trivial rfl
            simp only [step, deliver, if_neg hValue] at hEnters ⊢
            exact execute_ends room negative hNegative hEnters rfl
  | .loop condition body => cases hStmt
termination_by (room, sizeOf stmt)

end

end Machine

namespace Interpreter

open Machine

/-- At the start only builtins are bound. -/
theorem bounded_start {interpreter : Interpreter} {names later : Interner} {store : Store}
    (hSeeded : declareBuiltins (Store.empty.root).2 0 interpreter.builtins.entries names =
      ((.ok (), store), later)) {limit : Nat} (hLimit : interpreter.calls.limit = some limit)
    (program : Block) : (interpreter.start program store 0).Bounded limit limit := by
  refine ⟨disciplined_start hSeeded program, ?_, hLimit, Nat.le_add_left _ _⟩
  intro id name function home hBinds
  obtain ⟨-, entry, -, hBuiltin⟩ := binds_start hSeeded hBinds
  cases hBuiltin

/-- Under a limit on nested calls every program without loops ends, with success or with a failure,
whatever builtins it is run with. Further steps change nothing. -/
theorem terminates_of_loopFree {interpreter : Interpreter} {limit : Nat}
    (hLimit : interpreter.calls.limit = some limit) {program : Block}
    (hLoopFree : program.hasLoop = false) (names : Interner) :
    ∃ steps result ended later, ∀ granted, steps ≤ granted →
      interpreter.runWithin granted program names = (some (result, ended), later) := by
  rcases hDeclared : declareBuiltins (Store.empty.root).2 0 interpreter.builtins.entries names with
    ⟨⟨error | ⟨⟩, store⟩, later⟩
  · exact ⟨0, _, _, later, fun granted _ => runWithin_unseeded hDeclared program granted⟩
  · obtain ⟨final, result, ⟨steps, hSteps⟩, -, hControl⟩ :=
      execute_ends limit program hLoopFree (bounded_start hDeclared hLimit program) rfl
    have hRests : final.Rests := final.rests_iff.mpr ⟨result, hControl⟩
    refine ⟨steps, (interpreter.finish final later).1, (interpreter.finish final later).2, later,
      fun granted hGranted => ?_⟩
    refine (runWithin_eq_some_iff hDeclared).mpr ⟨final, ?_, rfl, rfl⟩
    refine (run_eq_some_iff ..).mpr ⟨?_, hRests⟩
    rw [← Nat.add_sub_cancel' hGranted, after_add, hSteps, hRests.after]

/-- `fun f() { g()  g() }`, `fun g() { f()  f() }`, `f()`. -/
def callsEachOther : Block :=
  [.function ⟨8⟩ [] [.evaluate (.call ⟨9⟩ []), .evaluate (.call ⟨9⟩ [])],
    .function ⟨9⟩ [] [.evaluate (.call ⟨8⟩ []), .evaluate (.call ⟨8⟩ [])],
    .evaluate (.call ⟨8⟩ [])]

/-- Without a limit its calls would nest without end. -/
theorem terminates_of_loopFree_callsEachOther :
    (new Builtins.standard (some 3)).calls.limit = some 3 ∧ callsEachOther.hasLoop = false ∧
      ∃ steps result ended later, ∀ granted, steps ≤ granted →
        (new Builtins.standard (some 3)).runWithin granted callsEachOther Interner.initial =
          (some (result, ended), later) :=
  ⟨rfl, rfl, terminates_of_loopFree rfl rfl Interner.initial⟩

end Interpreter

end IntScript
