import IntScript.Proofs.Semantics.Agreement

/-! What the natural semantics derives, the machine does. From the place where a part of a program is
begun, the machine comes to where its outcome is handed to what waits for it, with the same calls of
builtins and scopes that bind the same. -/
namespace IntScript.Semantics

open Machine

/-- The machine comes to where the outcome of an expression is handed to what waits for it. -/
def Delivers (state : State) (outcome : Outcome Int32) (next : AfterValue) (calls : CallStack)
    (world : World) : Prop :=
  ∃ result store, Reaches state ⟨.value result next, store, calls, world.history⟩ ∧
    result.mapError Failure.fault = outcome ∧ Agrees store world

/-- The machine comes to where the outcome of a statement or a block is handed to what waits for it. -/
def Completes (state : State) (outcome : Outcome (Option Int32)) (next : AfterBlock)
    (calls : CallStack) (world : World) : Prop :=
  ∃ result store, Reaches state ⟨.completed result next, store, calls, world.history⟩ ∧
    result.mapError Failure.fault = outcome ∧ Agrees store world

/-- Backtraces are put on failures only. -/
theorem mapError_eq_ok {α β γ : Type} {f : α → β} {result : Except α γ} {value : γ}
    (h : result.mapError f = .ok value) : result = .ok value := by
  cases result with
  | error error => cases h
  | ok other => exact congrArg _ (Except.ok.inj h)

theorem mapError_eq_error {α β γ : Type} {f : α → β} {result : Except α γ} {error : β}
    (h : result.mapError f = .error error) : ∃ cause, result = .error cause ∧ f cause = error := by
  cases result with
  | error cause => exact ⟨cause, rfl, Except.error.inj h⟩
  | ok other => cases h

/-- The backtrace is taken off again where only the fault is compared. -/
@[simp] theorem mapError_failure_fault {α : Type} (calls : CallStack) (outcome : Outcome α) :
    (outcome.mapError calls.failure).mapError Failure.fault = outcome := by
  cases outcome <;> rfl

theorem Delivers.of_reaches {state middle : State} {outcome : Outcome Int32} {next : AfterValue}
    {calls : CallStack} {world : World} (hReaches : Reaches state middle)
    (h : Delivers middle outcome next calls world) : Delivers state outcome next calls world := by
  obtain ⟨result, store, hFurther, hSame⟩ := h
  exact ⟨result, store, hReaches.trans hFurther, hSame⟩

/-- Steps taken before do not matter to where the machine comes. -/
theorem Delivers.of_step {state : State} {outcome : Outcome Int32} {next : AfterValue}
    {calls : CallStack} {world : World} (h : Delivers (step state) outcome next calls world) :
    Delivers state outcome next calls world :=
  Delivers.of_reaches ⟨1, rfl⟩ h

theorem Completes.of_reaches {state middle : State} {outcome : Outcome (Option Int32)}
    {next : AfterBlock} {calls : CallStack} {world : World} (hReaches : Reaches state middle)
    (h : Completes middle outcome next calls world) : Completes state outcome next calls world := by
  obtain ⟨result, store, hFurther, hSame⟩ := h
  exact ⟨result, store, hReaches.trans hFurther, hSame⟩

theorem Completes.of_step {state : State} {outcome : Outcome (Option Int32)} {next : AfterBlock}
    {calls : CallStack} {world : World} (h : Completes (step state) outcome next calls world) :
    Completes state outcome next calls world :=
  Completes.of_reaches ⟨1, rfl⟩ h

/-- Where a value is to be delivered, the machine comes to hand it over. -/
theorem Delivers.value {state : State} {value : Int32} {next : AfterValue} {calls : CallStack}
    {world : World} (h : Delivers state (.ok value) next calls world) :
    ∃ store, Reaches state ⟨.value (.ok value) next, store, calls, world.history⟩ ∧
      Agrees store world := by
  obtain ⟨result, store, hReaches, hResult, hAgrees⟩ := h
  obtain rfl := mapError_eq_ok hResult
  exact ⟨store, hReaches, hAgrees⟩

/-- Where a fault is to be delivered, the machine comes to hand over a failure by it. -/
theorem Delivers.failure {state : State} {fault : Fault Name} {next : AfterValue} {calls : CallStack}
    {world : World} (h : Delivers state (.error fault) next calls world) :
    ∃ failure store, Reaches state ⟨.value (.error failure) next, store, calls, world.history⟩ ∧
      failure.fault = fault ∧ Agrees store world := by
  obtain ⟨result, store, hReaches, hResult, hAgrees⟩ := h
  obtain ⟨failure, rfl, hFault⟩ := mapError_eq_error hResult
  exact ⟨failure, store, hReaches, hFault, hAgrees⟩

/-- A value or a failure that is handed over already. -/
theorem delivers_value {store : Store} {world : World} (result : Result Int32) (next : AfterValue)
    (calls : CallStack) (h : Agrees store world) :
    Delivers ⟨.value result next, store, calls, world.history⟩ (result.mapError Failure.fault) next
      calls world :=
  ⟨result, store, Reaches.refl _, rfl, h⟩

/-- A completion or a failure that is handed over already. -/
theorem completes_result {store : Store} {world : World} (result : Result Completion)
    (next : AfterBlock) (calls : CallStack) (h : Agrees store world) :
    Completes ⟨.completed result next, store, calls, world.history⟩ (result.mapError Failure.fault)
      next calls world :=
  ⟨result, store, Reaches.refl _, rfl, h⟩

/-- The two operands are there, so the operator is applied or refuses them. -/
theorem deliver_operator (op : BinaryOp) (left value : Int32) (next : AfterValue) (store : Store)
    (calls : CallStack) (history : History) :
    deliver value (.operator op left next) store calls history =
      ⟨.value ((op.evaluate left value).mapError calls.failure) next, store, calls, history⟩ := by
  rw [deliver]
  split
  next hValue =>
      rw [hValue]
      rfl
  next hValue =>
      rw [hValue]
      rfl

theorem push_of_unlimited {calls : CallStack} (hLimit : calls.limit = none) (name : Name) :
    calls.push name = (.ok (), ⟨calls.frames.push name, none⟩) := by
  rw [CallStack.push, CallStack.isFull, hLimit]
  rfl

/-- Leaving a function undoes that it was entered. -/
theorem pop_push {calls : CallStack} (hLimit : calls.limit = none) (name : Name) :
    CallStack.pop ⟨calls.frames.push name, none⟩ = calls := by
  obtain ⟨frames, limit⟩ := calls
  cases hLimit
  simp [CallStack.pop]

/-- Without a limit on nested calls, a call of a function of the program with as many arguments as it
has parameters goes on to its body, unless a parameter is given twice. -/
theorem call_of_matching {function : Function} {home activation : ScopeId} {arguments : List Int32}
    {next : AfterValue} {store : Store} {calls : CallStack} {history : History}
    (hArity : arguments.length = function.arity) (hLive : store.isLive home = true)
    (hLimit : calls.limit = none) (hSize : store.slots.size = activation) :
    call (.user function home) arguments next store calls history =
      match bindParameters (store.child home).2 activation function.parameters arguments with
      | (.error error, later) =>
          ⟨.completed (.error (CallStack.failure ⟨calls.frames.push function.name, none⟩ error.fault))
            (.finish activation next), later, ⟨calls.frames.push function.name, none⟩, history⟩
      | (.ok (), later) =>
          ⟨.execute function.body activation (.finish activation next), later,
            ⟨calls.frames.push function.name, none⟩, history⟩ := by
  rcases hBind : bindParameters (store.child home).2 activation function.parameters arguments with
    ⟨_ | _, later⟩ <;>
    simp only [call, hArity, ne_eq, not_true_eq_false, if_false, hLive, Bool.not_true,
      Bool.false_eq_true, push_of_unlimited hLimit, Store.child_fst, hSize, hBind]

/-- Where the new scope has the number of the new frame. -/
theorem enter_eq {block : Block} {scope inner : ScopeId} {next : AfterBlock} {store : Store}
    {calls : CallStack} {history : History} (hSize : store.slots.size = inner) :
    enter block scope next store calls history =
      ⟨.execute block inner (.leave inner next), (store.child scope).2, calls, history⟩ := by
  simp only [enter, Store.child_fst, hSize]

/-- After a block its scope is given up. -/
theorem Completes.leave {state : State} {outcome : Outcome (Option Int32)} {inner : ScopeId}
    {next : AfterBlock} {calls : CallStack} {world : World}
    (h : Completes state outcome (.leave inner next) calls world) (hWork : state.Disciplined) :
    Completes state outcome next calls world := by
  obtain ⟨result, store, hReaches, rfl, hAgrees⟩ := h
  have hHeld := (hWork.reaches hReaches).store
  refine Completes.of_reaches hReaches (Completes.of_step ?_)
  exact completes_result result next calls (hAgrees.release hHeld next.held_ne_nil)

mutual

/-- The machine evaluates an expression to what the semantics derives. -/
theorem Evaluates.delivers {world final : World} {scope : ScopeId} {expr : Expr}
    {outcome : Outcome Int32} (h : Evaluates world scope expr outcome final) {next : AfterValue}
    {store : Store} {calls : CallStack} (hLimit : calls.limit = none) (hAgrees : Agrees store world)
    (hWork : State.Disciplined ⟨.evaluate expr scope next, store, calls, world.history⟩) :
    Delivers ⟨.evaluate expr scope next, store, calls, world.history⟩ outcome next calls final := by
  have hScope : scope ∈ next.held := hWork.control.1 ▸ next.current_mem_held
  apply Delivers.of_step
  match h with
  | .literal _ _ value => exact delivers_value (.ok value) next calls hAgrees
  | @Evaluates.reference _ _ name value reads =>
      have hRead := hAgrees.getVariable_of_reads hWork.store hScope reads
      simp only [step, evaluate, hRead]
      exact delivers_value (.ok value) next calls hAgrees
  | @Evaluates.referenceUnbound _ _ name unbound =>
      have hRead := hAgrees.getVariable_of_unbound hWork.store hScope unbound
      simp only [step, evaluate, hRead]
      exact delivers_value (.error (calls.failure (.undefinedVariable name))) next calls hAgrees
  | .call reads evaluated invoked =>
      have hFound := hAgrees.getFunction_of_reads hWork.store hScope reads
      have hApply := hWork.step
      simp only [step, evaluate, hFound, Store.child_fst] at hApply ⊢
      rw [hAgrees.size] at hApply ⊢
      obtain ⟨store, hReaches, hAgrees⟩ := evaluated.applies hLimit (hAgrees.child scope) hApply
      have hApplied := hApply.reaches hReaches
      refine Delivers.of_reaches hReaches (Delivers.of_step ?_)
      rw [step, List.append_nil, List.reverse_reverse]
      exact invoked.delivers hLimit (hAgrees.release hApplied.store next.held_ne_nil)
        hApplied.control.1 hApplied.control.2 (hApplied.store.release next.held_ne_nil)
  | @Evaluates.callUnbound _ _ callee _ unbound =>
      have hFound := hAgrees.getFunction_of_unbound hWork.store hScope unbound
      simp only [step, evaluate, hFound]
      exact delivers_value (.error (calls.failure (.undefinedFunction callee))) next calls hAgrees
  | .callArguments reads failed =>
      have hFound := hAgrees.getFunction_of_reads hWork.store hScope reads
      have hApply := hWork.step
      simp only [step, evaluate, hFound, Store.child_fst] at hApply ⊢
      rw [hAgrees.size] at hApply ⊢
      exact failed.applies hLimit (hAgrees.child scope) hApply
  | .binary before later =>
      obtain ⟨store, hBefore, hAgrees⟩ := (before.delivers hLimit hAgrees hWork.step).value
      have hBetween := (hWork.step.reaches hBefore).step
      obtain ⟨store, hAfter, hAgrees⟩ := (later.delivers hLimit hAgrees hBetween).value
      refine Delivers.of_reaches hBefore (Delivers.of_step ?_)
      refine Delivers.of_reaches hAfter (Delivers.of_step ?_)
      rw [step, deliver_operator]
      simpa using delivers_value ((BinaryOp.evaluate _ _ _).mapError calls.failure) next calls hAgrees
  | .binaryLeft failed =>
      obtain ⟨failure, store, hBefore, rfl, hAgrees⟩ := (failed.delivers hLimit hAgrees hWork.step).failure
      refine Delivers.of_reaches hBefore (Delivers.of_step ?_)
      exact delivers_value (.error failure) next calls hAgrees
  | .binaryRight before failed =>
      obtain ⟨store, hBefore, hAgrees⟩ := (before.delivers hLimit hAgrees hWork.step).value
      have hBetween := (hWork.step.reaches hBefore).step
      obtain ⟨failure, store, hAfter, rfl, hAgrees⟩ := (failed.delivers hLimit hAgrees hBetween).failure
      refine Delivers.of_reaches hBefore (Delivers.of_step ?_)
      refine Delivers.of_reaches hAfter (Delivers.of_step ?_)
      exact delivers_value (.error failure) next calls hAgrees

/-- The machine evaluates the arguments of a call and then calls, or hands on the failure of one. -/
theorem EvaluatesAll.applies {world final : World} {inner : ScopeId} {pending : List Expr}
    {outcome : Outcome (List Int32)} (h : EvaluatesAll world inner pending outcome final)
    {callee : Callable} {known : List Int32} {next : AfterValue} {store : Store} {calls : CallStack}
    (hLimit : calls.limit = none) (hAgrees : Agrees store world)
    (hWork : State.Disciplined ⟨.apply callee known pending inner next, store, calls, world.history⟩) :
    match outcome with
    | .ok values => ∃ later, Reaches ⟨.apply callee known pending inner next, store, calls, world.history⟩
        ⟨.apply callee (values.reverse ++ known) [] inner next, later, calls, final.history⟩ ∧
        Agrees later final
    | .error fault => Delivers ⟨.apply callee known pending inner next, store, calls, world.history⟩
        (.error fault) next calls final := by
  match h with
  | .nil _ _ => exact ⟨store, Reaches.refl _, hAgrees⟩
  | @EvaluatesAll.cons _ _ _ _ _ _ value outcome first further =>
      obtain ⟨store, hFirst, hAgrees⟩ := (first.delivers hLimit hAgrees hWork.step).value
      have hBetween := (hWork.step.reaches hFirst).step
      have hFurther := further.applies hLimit hAgrees hBetween
      cases outcome with
      | error fault => exact Delivers.of_step (Delivers.of_reaches hFirst (Delivers.of_step hFurther))
      | ok values =>
          obtain ⟨later, hReaches, hAgrees⟩ := hFurther
          refine ⟨later, Reaches.of_step (hFirst.trans (Reaches.of_step ?_)), hAgrees⟩
          rw [List.reverse_cons, List.append_assoc]
          exact hReaches
  | .fails failed =>
      obtain ⟨failure, store, hFirst, rfl, hAgrees⟩ := (failed.delivers hLimit hAgrees hWork.step).failure
      have hAbandoned := hWork.step.reaches hFirst
      refine Delivers.of_step (Delivers.of_reaches hFirst (Delivers.of_step ?_))
      exact delivers_value (.error failure) next calls
        (hAgrees.release hAbandoned.store next.held_ne_nil)

/-- The machine calls with evaluated arguments as the semantics derives. -/
theorem Invokes.delivers {world final : World} {callee : Callable} {arguments : List Int32}
    {outcome : Outcome Int32} (h : Invokes world callee arguments outcome final) {next : AfterValue}
    {store : Store} {calls : CallStack} (hLimit : calls.limit = none) (hAgrees : Agrees store world)
    (hCallee : callee.homeIn next.held) (hNext : next.Disciplined) (hHeld : store.Holds next.held) :
    Delivers (call callee arguments next store calls world.history) outcome next calls final := by
  match h with
  | .builtin _ builtin arguments =>
      exact delivers_value (.ok _) next calls (hAgrees.record builtin arguments)
  | @Invokes.arity _ function home _ mismatch =>
      rw [call, if_pos mismatch]
      exact delivers_value (.error (calls.failure _)) next calls hAgrees
  | @Invokes.parameters _ _ function home arguments fault matching failed =>
      have hInner := hAgrees.size ▸ hHeld.child hCallee
      obtain ⟨result, later, hBind, hResult, hAgrees'⟩ :=
        failed.bindParameters (hAgrees.child home) hInner List.mem_cons_self
      obtain ⟨error, rfl, rfl⟩ := mapError_eq_error hResult
      have hActivation := holds_bindParameters hInner world.next function.parameters arguments
      rw [hBind] at hActivation
      rw [call_of_matching matching (hHeld.isLive hCallee) hLimit hAgrees.size, hBind]
      apply Delivers.of_step
      simp only [step, resume, pop_push hLimit]
      have hHistory : final.history = world.history := failed.history
      rw [← hHistory]
      exact delivers_value (.error _) next calls (hAgrees'.release hActivation next.held_ne_nil)
  | @Invokes.body _ middle _ function home arguments outcome matching bound executed =>
      have hInner := hAgrees.size ▸ hHeld.child hCallee
      obtain ⟨result, later, hBind, hResult, hAgrees'⟩ :=
        bound.bindParameters (hAgrees.child home) hInner List.mem_cons_self
      obtain rfl := mapError_eq_ok hResult
      have hActivation := holds_bindParameters hInner world.next function.parameters arguments
      rw [hBind] at hActivation
      rw [call_of_matching matching (hHeld.isLive hCallee) hLimit hAgrees.size, hBind]
      have hWork : State.Disciplined ⟨.execute function.body world.next (.finish world.next next),
          later, ⟨calls.frames.push function.name, none⟩, world.history⟩ :=
        ⟨⟨rfl, hNext⟩, hActivation⟩
      have hHistory : middle.history = world.history := bound.history
      rw [← hHistory] at hWork ⊢
      obtain ⟨result, store, hBody, rfl, hAgrees⟩ := executed.completes rfl hAgrees' hWork
      have hFinished := hWork.reaches hBody
      refine Delivers.of_reaches hBody (Delivers.of_step ?_)
      simp only [step, resume, pop_push hLimit]
      have hValue := delivers_value (result.map (fun completion => completion.getD 0)) next calls
        (hAgrees.release hFinished.store next.held_ne_nil)
      cases result <;> exact hValue

/-- The machine executes a statement to what the semantics derives. -/
theorem Executes.completes {world final : World} {scope : ScopeId} {stmt : Stmt}
    {outcome : Outcome (Option Int32)} (h : Executes world scope stmt outcome final)
    {next : AfterBlock} {store : Store} {calls : CallStack} (hLimit : calls.limit = none)
    (hAgrees : Agrees store world) (hScope : scope = next.current) (hNext : next.Disciplined)
    (hHeld : store.Holds next.held) :
    Completes (execute stmt scope next store calls world.history) outcome next calls final := by
  have hMem : scope ∈ next.held := hScope ▸ next.current_mem_held
  have hWork : (execute stmt scope next store calls world.history).Disciplined :=
    disciplined_execute hScope hNext hHeld
  match h with
  | @Executes.function _ _ name parameters body free =>
      obtain ⟨later, hDeclared, hAgrees⟩ := hAgrees.declareFunction_of_free hHeld hMem free
        (.user ⟨name, parameters, body⟩ scope)
      rw [execute, hDeclared]
      exact completes_result (.ok none) next calls hAgrees
  | @Executes.functionTwice _ _ name parameters body _ bound =>
      have hDeclared := hAgrees.declareFunction_of_bound hHeld hMem bound
        (.user ⟨name, parameters, body⟩ scope)
      rw [execute, hDeclared]
      exact completes_result (.error (calls.failure (.duplicateFunction name))) next calls hAgrees
  | @Executes.declare _ _ _ name _ value evaluated free =>
      obtain ⟨store, hValue, hAgrees⟩ := (evaluated.delivers hLimit hAgrees hWork).value
      have hHeld := (hWork.reaches hValue).store
      obtain ⟨later, hDeclared, hAgrees⟩ := hAgrees.declareVariable_of_free hHeld hMem free value
      refine Completes.of_reaches hValue (Completes.of_step ?_)
      simp only [step, deliver, hDeclared]
      exact completes_result (.ok none) next calls hAgrees
  | @Executes.declareTwice _ _ _ name _ value _ evaluated bound =>
      obtain ⟨store, hValue, hAgrees⟩ := (evaluated.delivers hLimit hAgrees hWork).value
      have hHeld := (hWork.reaches hValue).store
      have hDeclared := hAgrees.declareVariable_of_bound hHeld hMem bound value
      refine Completes.of_reaches hValue (Completes.of_step ?_)
      simp only [step, deliver, hDeclared]
      exact completes_result (.error (calls.failure (.duplicateVariable name))) next calls hAgrees
  | @Executes.assign _ _ _ owner name _ value evaluated nearest =>
      obtain ⟨store, hValue, hAgrees⟩ := (evaluated.delivers hLimit hAgrees hWork).value
      have hHeld := (hWork.reaches hValue).store
      obtain ⟨later, hAssigned, hAgrees⟩ := hAgrees.setVariable_of_nearest hHeld hMem nearest value
      refine Completes.of_reaches hValue (Completes.of_step ?_)
      simp only [step, deliver, hAssigned]
      exact completes_result (.ok none) next calls hAgrees
  | @Executes.assignUnbound _ _ _ name _ value evaluated unbound =>
      obtain ⟨store, hValue, hAgrees⟩ := (evaluated.delivers hLimit hAgrees hWork).value
      have hHeld := (hWork.reaches hValue).store
      have hAssigned := hAgrees.setVariable_of_unbound hHeld hMem unbound value
      refine Completes.of_reaches hValue (Completes.of_step ?_)
      simp only [step, deliver, hAssigned]
      exact completes_result (.error (calls.failure (.undefinedVariable name))) next calls hAgrees
  | .declareFails failed | .assignFails failed | .loopFails failed | .branchFails failed =>
      obtain ⟨failure, store, hValue, rfl, hAgrees⟩ := (failed.delivers hLimit hAgrees hWork).failure
      refine Completes.of_reaches hValue (Completes.of_step ?_)
      exact completes_result (.error failure) next calls hAgrees
  | .yield evaluated =>
      obtain ⟨result, store, hValue, rfl, hAgrees⟩ := evaluated.delivers hLimit hAgrees hWork
      refine Completes.of_reaches hValue (Completes.of_step ?_)
      cases result with
      | ok value => exact completes_result (.ok (some value)) next calls hAgrees
      | error failure => exact completes_result (.error failure) next calls hAgrees
  | .evaluate evaluated =>
      obtain ⟨result, store, hValue, rfl, hAgrees⟩ := evaluated.delivers hLimit hAgrees hWork
      refine Completes.of_reaches hValue (Completes.of_step ?_)
      cases result with
      | ok value => exact completes_result (.ok none) next calls hAgrees
      | error failure => exact completes_result (.error failure) next calls hAgrees
  | .loopEnds tested =>
      obtain ⟨store, hTest, hAgrees⟩ := (tested.delivers hLimit hAgrees hWork).value
      refine Completes.of_reaches hTest (Completes.of_step ?_)
      exact completes_result (.ok none) next calls hAgrees
  | @Executes.loopAgain _ middle later _ _ test body value _ tested nonzero executed further =>
      obtain ⟨store, hTest, hAgrees⟩ := (tested.delivers hLimit hAgrees hWork).value
      have hTested := hWork.reaches hTest
      have hEntered := hTested.step
      refine Completes.of_reaches hTest (Completes.of_step ?_)
      simp only [step, deliver, if_pos nonzero, enter_eq hAgrees.size] at hEntered ⊢
      obtain ⟨result, store, hBody, hResult, hAgrees⟩ :=
        (executed.completes hLimit (hAgrees.child scope) hEntered).leave hEntered
      obtain rfl := mapError_eq_ok hResult
      have hLeft := (hEntered.reaches hBody).store
      refine Completes.of_reaches hBody (Completes.of_step ?_)
      exact further.completes hLimit hAgrees hScope hNext hLeft
  | @Executes.loopStops _ middle _ _ test body value outcome tested nonzero executed stops =>
      obtain ⟨store, hTest, hAgrees⟩ := (tested.delivers hLimit hAgrees hWork).value
      have hTested := hWork.reaches hTest
      have hEntered := hTested.step
      refine Completes.of_reaches hTest (Completes.of_step ?_)
      simp only [step, deliver, if_pos nonzero, enter_eq hAgrees.size] at hEntered ⊢
      obtain ⟨result, store, hBody, rfl, hAgrees⟩ :=
        (executed.completes hLimit (hAgrees.child scope) hEntered).leave hEntered
      refine Completes.of_reaches hBody (Completes.of_step ?_)
      rcases result with failure | _ | value
      · exact completes_result (.error failure) next calls hAgrees
      · exact absurd rfl stops
      · exact completes_result (.ok (some value)) next calls hAgrees
  | @Executes.branch _ middle _ _ test positive negative value outcome tested executed =>
      obtain ⟨store, hTest, hAgrees⟩ := (tested.delivers hLimit hAgrees hWork).value
      have hEntered := (hWork.reaches hTest).step
      refine Completes.of_reaches hTest (Completes.of_step ?_)
      simp only [step, deliver, enter_eq hAgrees.size] at hEntered ⊢
      exact (executed.completes hLimit (hAgrees.child scope) hEntered).leave hEntered

/-- The machine executes a block to what the semantics derives. -/
theorem ExecutesAll.completes {world final : World} {scope : ScopeId} {block : Block}
    {outcome : Outcome (Option Int32)} (h : ExecutesAll world scope block outcome final)
    {next : AfterBlock} {store : Store} {calls : CallStack} (hLimit : calls.limit = none)
    (hAgrees : Agrees store world)
    (hWork : State.Disciplined ⟨.execute block scope next, store, calls, world.history⟩) :
    Completes ⟨.execute block scope next, store, calls, world.history⟩ outcome next calls final := by
  match h with
  | .nil _ _ =>
      apply Completes.of_step
      exact completes_result (.ok none) next calls hAgrees
  | @ExecutesAll.cons _ _ _ _ stmt others _ first further =>
      have hSequence : (AfterBlock.sequence others scope next).Disciplined := hWork.control
      have hScope : scope = (AfterBlock.sequence others scope next).current := hSequence.1
      apply Completes.of_step
      obtain ⟨result, store, hFirst, hResult, hAgrees⟩ :=
        first.completes hLimit hAgrees hScope hSequence hWork.store
      obtain rfl := mapError_eq_ok hResult
      have hFurther := (hWork.step.reaches hFirst).step
      refine Completes.of_reaches hFirst (Completes.of_step ?_)
      exact further.completes hLimit hAgrees hFurther
  | @ExecutesAll.stops _ _ _ stmt others _ first stops =>
      have hSequence : (AfterBlock.sequence others scope next).Disciplined := hWork.control
      have hScope : scope = (AfterBlock.sequence others scope next).current := hSequence.1
      apply Completes.of_step
      obtain ⟨result, store, hFirst, rfl, hAgrees⟩ :=
        first.completes hLimit hAgrees hScope hSequence hWork.store
      refine Completes.of_reaches hFirst (Completes.of_step ?_)
      rcases result with failure | _ | value
      · exact completes_result (.error failure) next calls hAgrees
      · exact absurd rfl stops
      · exact completes_result (.ok (some value)) next calls hAgrees

end

end IntScript.Semantics
