import IntScript.Proofs.Machine.Failures
import IntScript.Proofs.Machine.Start

/-! A function of the program names the scope that it was declared in without keeping it alive. The work
that found the function holds that scope, so it is there when the function is called. -/
namespace IntScript

/-- The scope that a function was declared in, if it is one of the program. -/
def Callable.home? : Callable → Option ScopeId
  | builtin _ => none
  | user _ home => some home

/-- What is held is also held together with more. -/
theorem Callable.homeIn.mono {callable : Callable} {held more : List ScopeId}
    (h : callable.homeIn held) (hMore : held ⊆ more) : callable.homeIn more := by
  cases callable with
  | builtin builtin => trivial
  | user function home => exact hMore h

namespace Machine

mutual

/-- The functions of the calls that wait for arguments, the innermost call first. -/
def AfterValue.callees : AfterValue → List Callable
  | .rightOperand _ _ _ next | .operator _ _ next => next.callees
  | .argument callee _ _ _ next => callee :: next.callees
  | .declare _ _ next | .assign _ _ next | .yield next | .discard next | .branch _ _ _ next
  | .test _ _ _ next => next.callees

def AfterBlock.callees : AfterBlock → List Callable
  | .halt => []
  | .sequence _ _ next | .again _ _ _ next | .leave _ next => next.callees
  | .finish _ next => next.callees

end

/-- The functions of the calls that have been resolved and not been made yet, the innermost first. -/
def Control.callees : Control → List Callable
  | evaluate _ _ next | value _ next => next.callees
  | apply callee _ _ _ next => callee :: next.callees
  | execute _ _ next | completed _ next => next.callees

mutual

/-- A call that waits for its arguments has a function whose home is held longer than they are. -/
theorem AfterValue.homeIn_of_callee (next : AfterValue) (h : next.Disciplined) {callable : Callable}
    (hCallee : callable ∈ next.callees) : callable.homeIn next.held := by
  match next with
  | .rightOperand _ _ _ next => exact next.homeIn_of_callee h.2 hCallee
  | .operator _ _ next => exact next.homeIn_of_callee h hCallee
  | .argument callee _ _ inner next =>
      refine Callable.homeIn.mono ?_ (List.subset_cons_self inner next.held)
      rcases List.mem_cons.mp hCallee with rfl | hOuter
      · exact h.1
      · exact next.homeIn_of_callee h.2 hOuter
  | .declare _ _ next | .assign _ _ next | .branch _ _ _ next | .test _ _ _ next =>
      exact next.homeIn_of_callee h.2 hCallee
  | .yield next | .discard next => exact next.homeIn_of_callee h hCallee

theorem AfterBlock.homeIn_of_callee (next : AfterBlock) (h : next.Disciplined) {callable : Callable}
    (hCallee : callable ∈ next.callees) : callable.homeIn next.held := by
  match next with
  | .halt => cases hCallee
  | .sequence _ _ next | .again _ _ _ next => exact next.homeIn_of_callee h.2 hCallee
  | .leave scope next =>
      exact (next.homeIn_of_callee h hCallee).mono (List.subset_cons_self scope next.held)
  | .finish activation next =>
      exact (next.homeIn_of_callee h hCallee).mono (List.subset_cons_self activation next.held)

end

/-- The call that is resolved next is one of them. -/
theorem Control.homeIn_of_callee (control : Control) (h : control.Disciplined) {callable : Callable}
    (hCallee : callable ∈ control.callees) : callable.homeIn control.held := by
  cases control with
  | evaluate expr scope next => exact next.homeIn_of_callee h.2 hCallee
  | apply callee known pending inner next =>
      refine Callable.homeIn.mono ?_ (List.subset_cons_self inner next.held)
      rcases List.mem_cons.mp hCallee with rfl | hOuter
      · exact h.1
      · exact next.homeIn_of_callee h.2 hOuter
  | value result next => exact next.homeIn_of_callee h hCallee
  | execute block scope next => exact next.homeIn_of_callee h.2 hCallee
  | completed result next => exact next.homeIn_of_callee h hCallee

section

variable {state : State} (h : state.Disciplined)

include h

/-- From the look-up of a function to its call, the scope that it was declared in is alive. -/
theorem State.Disciplined.isLive_of_callee {function : Function} {home : ScopeId}
    (hCallee : .user function home ∈ state.control.callees) : state.store.isLive home = true :=
  h.store.isLive (state.control.homeIn_of_callee h.control hCallee)

/-- It is alive still when the scope of the arguments has been given up, which is when the call is
made. -/
theorem State.Disciplined.isLive_of_apply {function : Function} {home : ScopeId} {known : List Int32}
    {pending : List Expr} {inner : ScopeId} {next : AfterValue}
    (hApply : state.control = .apply (.user function home) known pending inner next) :
    (state.store.release inner).isLive home = true := by
  obtain ⟨control, store, calls, history⟩ := state
  cases hApply
  exact (h.store.release next.held_ne_nil).isLive h.control.1

/-- What a step raises for want of a function is raised by a look-up that finds none. -/
theorem State.Disciplined.lookup_of_raises {name : Name}
    (hRaises : Raises state (.undefinedFunction name)) :
    ∃ arguments scope next, state.control = .evaluate (.call name arguments) scope next ∧
      state.store.getFunction scope name = .error (.undefinedFunction name) := by
  generalize hFault : Fault.undefinedFunction name = fault at hRaises
  cases hRaises with
  | reference unbound =>
      cases Store.getVariable_error unbound
      cases hFault
  | @callee name arguments scope next store calls history error unbound =>
      cases Store.getFunction_error unbound
      cases hFault
      exact ⟨arguments, scope, next, rfl, unbound⟩
  | operator refused =>
      subst hFault
      rcases BinaryOp.evaluate_error refused with hZero | hZero <;> cases hZero
  | declare bound =>
      cases Store.declareVariable_error bound
      cases hFault
  | assign unbound =>
      cases Store.setVariable_error unbound
      cases hFault
  | function bound =>
      cases Store.declareFunction_error bound
      cases hFault
  | arity mismatch | depth matching live full => cases hFault
  | released matching gone =>
      rw [h.isLive_of_apply rfl] at gone
      cases gone
  | parameter matching live free twice =>
      obtain ⟨name, -, rfl⟩ := bindParameters_error twice
      cases hFault

end

end Machine

namespace Interpreter

open Machine

section

variable {interpreter : Interpreter} {names later : Interner} {store : Store}
  (hSeeded : declareBuiltins (Store.empty.root).2 0 interpreter.builtins.entries names =
    ((.ok (), store), later))

include hSeeded

/-- In every state of a run, a function of the program that lies in the table of a scope names that very
scope. A call that finds a function of the program finds its scope alive; the scope stays alive while
the arguments are evaluated, whatever they do, and is alive when the call is made. So the fault of
an undefined function, where a run has it, comes from an earlier look-up that found no function of that
name. -/
theorem home_outlives_call {program : Block} {steps : Nat} {state : State}
    (hState : after steps (interpreter.start program store 0) = state) :
    (∀ id scope name function home, state.store.scope? id = some scope →
      (name, .user function home) ∈ scope.functions → home = id) ∧
    (∀ name arguments scope next function home,
      state.control = .evaluate (.call name arguments) scope next →
      state.store.getFunction scope name = .ok (.user function home) →
      state.store.isLive home = true ∧
        (step state).control = .apply (.user function home) [] arguments state.store.slots.size next) ∧
    (∀ function home, .user function home ∈ state.control.callees → state.store.isLive home = true) ∧
    (∀ function home known inner next,
      state.control = .apply (.user function home) known [] inner next →
      (state.store.release inner).isLive home = true) ∧
    (∀ failure name, state.control.failure? = some failure → failure.fault = .undefinedFunction name →
      ∃ earlier, earlier < steps ∧ ∃ arguments scope next,
        (after earlier (interpreter.start program store 0)).control =
          .evaluate (.call name arguments) scope next ∧
        (after earlier (interpreter.start program store 0)).store.getFunction scope name =
          .error (.undefinedFunction name)) := by
  have hStart := disciplined_start hSeeded program
  have hWork (count : Nat) : (after count (interpreter.start program store 0)).Disciplined :=
    hStart.reaches ⟨count, rfl⟩
  have hHere : state.Disciplined := hState ▸ hWork steps
  refine ⟨?_, ?_, fun _ _ => hHere.isLive_of_callee, fun _ _ _ _ _ => hHere.isLive_of_apply, ?_⟩
  · intro id scope name function home hScope hEntry
    exact (hHere.store.home hScope hEntry).1
  · intro name arguments scope next function home hCall hFound
    refine ⟨hHere.store.isLive (homeIn_of_getFunction hHere.store hFound), ?_⟩
    obtain ⟨control, scopes, calls, history⟩ := state
    cases hCall
    rw [step, evaluate, hFound]
    simp only [Store.child_fst]
  · intro failure name hFailure hFault
    rw [← hState] at hFailure
    obtain ⟨earlier, hEarlier, -, hRaises, -⟩ := exists_raises rfl hFailure
    rw [hFault] at hRaises
    exact ⟨earlier, hEarlier, (hWork earlier).lookup_of_raises hRaises⟩

end

/-- `fun f(x) { fun g(y) { return x + y }  return g(f(1)) }`, `f(2)`: an argument of `g` is a call of the
function that `g` was declared in. -/
def callsWithinArguments : Block :=
  [.function ⟨8⟩ [⟨9⟩]
      [.function ⟨10⟩ [⟨11⟩] [.yield (.binary .add (.reference ⟨9⟩) (.reference ⟨11⟩))],
        .yield (.call ⟨10⟩ [.call ⟨8⟩ [.literal 1]])],
    .evaluate (.call ⟨8⟩ [.literal 2])]

/-- Its run where the argument calls its own `g`, in scope 6. -/
def callingWithinArguments : State :=
  after 22 ((new Builtins.none none).start callsWithinArguments (Store.empty.root).2 0)

/-- The outer `g` waits meanwhile, and the scope that it was declared in, number 2, is alive. -/
theorem home_outlives_call_withinArguments :
    ∃ inner outer, .user inner 5 ∈ callingWithinArguments.control.callees ∧
      .user outer 2 ∈ callingWithinArguments.control.callees ∧
      callingWithinArguments.store.isLive 5 = true ∧ callingWithinArguments.store.isLive 2 = true := by
  have hSeeded : declareBuiltins (Store.empty.root).2 0 (new Builtins.none none).builtins.entries
      Interner.initial = ((.ok (), (Store.empty.root).2), Interner.initial) := rfl
  have hState : after 22 ((new Builtins.none none).start callsWithinArguments (Store.empty.root).2 0) =
      callingWithinArguments := rfl
  obtain ⟨-, -, hAlive, -, -⟩ := home_outlives_call hSeeded hState
  have hCallees : callingWithinArguments.control.callees.filterMap Callable.home? = [5, 2] := by
    decide +kernel
  have hWaits (home : ScopeId) (hHome : home ∈ [5, 2]) :
      ∃ function, .user function home ∈ callingWithinArguments.control.callees := by
    rw [← hCallees, List.mem_filterMap] at hHome
    obtain ⟨callable, hCallable, hHome⟩ := hHome
    cases callable with
    | builtin builtin => cases hHome
    | user function found =>
        cases hHome
        exact ⟨function, hCallable⟩
  obtain ⟨inner, hInner⟩ := hWaits 5 (by decide)
  obtain ⟨outer, hOuter⟩ := hWaits 2 (by decide)
  exact ⟨inner, outer, hInner, hOuter, hAlive inner 5 hInner, hAlive outer 2 hOuter⟩

end Interpreter

end IntScript
