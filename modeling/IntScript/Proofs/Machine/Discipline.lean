import IntScript.Machine
import IntScript.Proofs.Scope.Lookup

/-! Which scopes a machine holds. Every scope is held by one piece of pending work, and the order of the
work is that of the scopes: work that is nearer holds scopes that are newer. So what is given up next
is always the newest scope, and a scope that a function was declared in outlives every call of the
function. -/
namespace IntScript

namespace Machine

mutual

/-- The scopes that pending work holds, the innermost first. -/
def AfterValue.held : AfterValue → List ScopeId
  | .rightOperand _ _ _ next | .operator _ _ next => next.held
  | .argument _ _ _ inner next => inner :: next.held
  | .declare _ _ next | .assign _ _ next | .yield next | .discard next | .branch _ _ _ next
  | .test _ _ _ next => next.held

/-- The scopes that pending work holds, the innermost first. The run itself holds the root. -/
def AfterBlock.held : AfterBlock → List ScopeId
  | .halt => [0]
  | .sequence _ _ next | .again _ _ _ next => next.held
  | .leave scope next => scope :: next.held
  | .finish activation next => activation :: next.held

end

mutual

def AfterValue.current : AfterValue → ScopeId
  | .rightOperand _ _ _ next | .operator _ _ next => next.current
  | .argument _ _ _ inner _ => inner
  | .declare _ _ next | .assign _ _ next | .yield next | .discard next | .branch _ _ _ next
  | .test _ _ _ next => next.current

def AfterBlock.current : AfterBlock → ScopeId
  | .halt => 0
  | .sequence _ _ next | .again _ _ _ next => next.current
  | .leave scope _ => scope
  | .finish activation _ => activation

end

end Machine

/-- The scope that a function of the program was declared in is one of these. -/
def Callable.homeIn (held : List ScopeId) : Callable → Prop
  | builtin _ => True
  | user _ home => home ∈ held

namespace Machine

mutual

/-- Every piece of pending work goes on in the innermost scope held at its time, and the function of
every pending call was declared in a scope that is held longer than the arguments. -/
def AfterValue.Disciplined : AfterValue → Prop
  | .rightOperand _ _ scope next => scope = next.current ∧ next.Disciplined
  | .operator _ _ next => next.Disciplined
  | .argument callee _ _ _ next => callee.homeIn next.held ∧ next.Disciplined
  | .declare _ scope next | .assign _ scope next | .branch _ _ scope next | .test _ _ scope next =>
      scope = next.current ∧ next.Disciplined
  | .yield next | .discard next => next.Disciplined

def AfterBlock.Disciplined : AfterBlock → Prop
  | .halt => True
  | .sequence _ scope next | .again _ _ scope next => scope = next.current ∧ next.Disciplined
  | .leave _ next => next.Disciplined
  | .finish _ next => next.Disciplined

end

namespace Control

def held : Control → List ScopeId
  | evaluate _ _ next | value _ next => next.held
  | apply _ _ _ inner next => inner :: next.held
  | execute _ _ next | completed _ next => next.held

/-- What is being done is done in the innermost scope. -/
def Disciplined : Control → Prop
  | evaluate _ scope next => scope = next.current ∧ next.Disciplined
  | apply callee _ _ _ next => callee.homeIn next.held ∧ next.Disciplined
  | value _ next => next.Disciplined
  | execute _ scope next => scope = next.current ∧ next.Disciplined
  | completed _ next => next.Disciplined

end Control

/-- The work is in order, and exactly the scopes that it holds are alive. -/
structure State.Disciplined (state : State) : Prop where
  control : state.control.Disciplined
  store : state.store.Holds state.control.held

mutual

/-- Pending work goes on in a scope that it holds itself. -/
theorem AfterValue.current_mem_held (next : AfterValue) : next.current ∈ next.held := by
  match next with
  | .rightOperand _ _ _ next | .operator _ _ next => exact AfterValue.current_mem_held next
  | .argument _ _ _ _ _ => exact List.mem_cons_self
  | .declare _ _ next | .assign _ _ next | .yield next | .discard next | .branch _ _ _ next
  | .test _ _ _ next => exact AfterBlock.current_mem_held next

theorem AfterBlock.current_mem_held (next : AfterBlock) : next.current ∈ next.held := by
  match next with
  | .halt | .leave _ _ | .finish _ _ => exact List.mem_cons_self
  | .sequence _ _ next | .again _ _ _ next => exact AfterBlock.current_mem_held next

end

/-- The root is always held. -/
theorem AfterValue.held_ne_nil (next : AfterValue) : next.held ≠ [] :=
  List.ne_nil_of_mem next.current_mem_held

theorem AfterBlock.held_ne_nil (next : AfterBlock) : next.held ≠ [] :=
  List.ne_nil_of_mem next.current_mem_held

/-- A function of the program that a look-up finds was declared in a held scope. -/
theorem homeIn_of_getFunction {store : Store} {held : List ScopeId} (h : store.Holds held)
    {id : ScopeId} {name : Name} {callable : Callable}
    (hFound : store.getFunction id name = .ok callable) : callable.homeIn held := by
  obtain ⟨owner, scope, -, hScope, hEntry⟩ := h.older.entry_of_getFunction hFound
  cases callable with
  | builtin builtin => trivial
  | user function home =>
      have hHome := (h.home hScope hEntry).1
      exact hHome ▸ h.mem_of_scope hScope

/-- Declaring keeps every scope alive and makes none. -/
theorem holds_bindParameters {store : Store} {held : List ScopeId} (h : store.Holds held)
    (scope : ScopeId) (parameters : List Name) (arguments : List Int32) :
    (bindParameters store scope parameters arguments).2.Holds held := by
  induction parameters generalizing store arguments with
  | nil => exact h
  | cons parameter parameters ih =>
      cases arguments with
      | nil => exact h
      | cons argument arguments =>
          have hDeclared := h.declareVariable scope parameter argument
          rw [bindParameters]
          split
          next store hStore =>
            rw [hStore] at hDeclared
            exact ih hDeclared arguments
          next error store hStore =>
            rw [hStore] at hDeclared
            exact hDeclared

section

variable {store : Store} {calls : CallStack} {history : History}

/-- The scope for arguments is made on top of those that are held. -/
theorem disciplined_evaluate {expr : Expr} {scope : ScopeId} {next : AfterValue}
    (hScope : scope = next.current) (hNext : next.Disciplined) (hStore : store.Holds next.held) :
    (evaluate expr scope next store calls history).Disciplined := by
  cases expr with
  | literal value => exact ⟨hNext, hStore⟩
  | reference name =>
      rw [evaluate]
      split <;> exact ⟨hNext, hStore⟩
  | call callee arguments =>
      rw [evaluate]
      split
      next callable hFound =>
        have hMem : scope ∈ next.held := hScope ▸ next.current_mem_held
        refine ⟨⟨homeIn_of_getFunction hStore hFound, hNext⟩, ?_⟩
        simpa [Control.held, Store.child_fst] using hStore.child hMem
      next => exact ⟨hNext, hStore⟩
  | binary op left right => exact ⟨⟨hScope, hScope, hNext⟩, hStore⟩

/-- Since its home is held, a function never finds it gone, and its body is on top. -/
theorem disciplined_call {callee : Callable} {arguments : List Int32} {next : AfterValue}
    (hCallee : callee.homeIn next.held) (hNext : next.Disciplined) (hStore : store.Holds next.held) :
    (call callee arguments next store calls history).Disciplined := by
  cases callee with
  | builtin builtin => exact ⟨hNext, hStore⟩
  | user function home =>
      rw [call]
      split
      next => exact ⟨hNext, hStore⟩
      next =>
        split
        next => exact ⟨hNext, hStore⟩
        next =>
          split
          next => exact ⟨hNext, hStore⟩
          next calls hCalls =>
            have hActivation := holds_bindParameters (hStore.child hCallee) store.slots.size
              function.parameters arguments
            simp only [Store.child_fst]
            split
            next error store hBound =>
              rw [hBound] at hActivation
              exact ⟨hNext, hActivation⟩
            next store hBound =>
              rw [hBound] at hActivation
              exact ⟨⟨rfl, hNext⟩, hActivation⟩

/-- What is executed is done in the innermost scope, and so is what it leaves to do. -/
theorem disciplined_execute {stmt : Stmt} {scope : ScopeId} {next : AfterBlock}
    (hScope : scope = next.current) (hNext : next.Disciplined) (hStore : store.Holds next.held) :
    (execute stmt scope next store calls history).Disciplined := by
  cases stmt with
  | function name parameters body =>
      have hHome (function : Function) (home : ScopeId)
          (hSame : Callable.user ⟨name, parameters, body⟩ scope = .user function home) :
          home = scope ∧ function.name = name := by
        cases hSame
        exact ⟨rfl, rfl⟩
      have hDeclared := hStore.declareFunction scope hHome
      rw [execute]
      split
      next store hStore =>
        rw [hStore] at hDeclared
        exact ⟨hNext, hDeclared⟩
      next error store hStore =>
        rw [hStore] at hDeclared
        exact ⟨hNext, hDeclared⟩
  | declare name value | loop condition body | branch condition positive negative
  | assign name value => exact ⟨⟨hScope, hScope, hNext⟩, hStore⟩
  | yield value | evaluate value => exact ⟨⟨hScope, hNext⟩, hStore⟩

/-- A new scope on top is given up when the block ends. -/
theorem disciplined_enter {block : Block} {scope : ScopeId} {next : AfterBlock}
    (hScope : scope = next.current) (hNext : next.Disciplined) (hStore : store.Holds next.held) :
    (enter block scope next store calls history).Disciplined := by
  have hMem : scope ∈ next.held := hScope ▸ next.current_mem_held
  refine ⟨⟨rfl, hNext⟩, ?_⟩
  simpa [enter, Control.held, AfterBlock.held, Store.child_fst] using hStore.child hMem

/-- The last argument gives up the scope of the arguments, so that the call is made without it. -/
theorem disciplined_deliver {value : Int32} {next : AfterValue} (hNext : next.Disciplined)
    (hStore : store.Holds next.held) : (deliver value next store calls history).Disciplined := by
  cases next with
  | rightOperand op right scope next => exact ⟨hNext, hStore⟩
  | operator op left next =>
      rw [deliver]
      split <;> exact ⟨hNext, hStore⟩
  | argument callee known pending inner next => exact ⟨hNext, hStore⟩
  | declare name scope next =>
      have hDeclared := hStore.declareVariable scope name value
      rw [deliver]
      split
      next store hSame =>
        rw [hSame] at hDeclared
        exact ⟨hNext.2, hDeclared⟩
      next error store hSame =>
        rw [hSame] at hDeclared
        exact ⟨hNext.2, hDeclared⟩
  | assign name scope next =>
      have hAssigned := hStore.setVariable scope name value
      rw [deliver]
      split
      next store hSame =>
        rw [hSame] at hAssigned
        exact ⟨hNext.2, hAssigned⟩
      next error store hSame =>
        rw [hSame] at hAssigned
        exact ⟨hNext.2, hAssigned⟩
  | yield next | discard next => exact ⟨hNext, hStore⟩
  | branch positive negative scope next => exact disciplined_enter hNext.1 hNext.2 hStore
  | test condition body scope next =>
      rw [deliver]
      split
      next => exact disciplined_enter hNext.1 hNext hStore
      next => exact ⟨hNext.2, hStore⟩

/-- A failure gives up the innermost scope, if that was made for arguments, and no other. -/
theorem disciplined_abandon {failure : Failure Name} {next : AfterValue} (hNext : next.Disciplined)
    (hStore : store.Holds next.held) : (abandon failure next store calls history).Disciplined := by
  cases next with
  | rightOperand op right scope next => exact ⟨hNext.2, hStore⟩
  | operator op left next => exact ⟨hNext, hStore⟩
  | argument callee known pending inner next =>
      exact ⟨hNext.2, hStore.release next.held_ne_nil⟩
  | declare name scope next | assign name scope next => exact ⟨hNext.2, hStore⟩
  | yield next | discard next => exact ⟨hNext, hStore⟩
  | branch positive negative scope next | test condition body scope next => exact ⟨hNext.2, hStore⟩

/-- The scope of a block is the innermost one when the block ends, however it ends. -/
theorem disciplined_resume {result : Result Completion} {next : AfterBlock}
    (hNext : next.Disciplined) (hStore : store.Holds next.held) :
    (resume result next store calls history).Disciplined := by
  cases next with
  | halt => exact ⟨hNext, hStore⟩
  | sequence others scope next =>
      rcases result with failure | _ | value
      · exact ⟨hNext.2, hStore⟩
      · exact ⟨hNext, hStore⟩
      · exact ⟨hNext.2, hStore⟩
  | leave scope next => exact ⟨hNext, hStore.release next.held_ne_nil⟩
  | again condition body scope next =>
      rcases result with failure | _ | value
      · exact ⟨hNext.2, hStore⟩
      · exact ⟨⟨hNext.1, hNext.1, hNext.2⟩, hStore⟩
      · exact ⟨hNext.2, hStore⟩
  | finish activation next => exact ⟨hNext, hStore.release next.held_ne_nil⟩

end

/-- Every step keeps the order of the work and the scopes that it holds. -/
theorem State.Disciplined.step {state : State} (h : state.Disciplined) :
    (Machine.step state).Disciplined := by
  obtain ⟨control, store, calls, history⟩ := state
  obtain ⟨hControl, hStore⟩ := h
  cases control with
  | evaluate expr scope next => exact disciplined_evaluate hControl.1 hControl.2 hStore
  | apply callee known pending inner next =>
      cases pending with
      | nil => exact disciplined_call hControl.1 hControl.2 (hStore.release next.held_ne_nil)
      | cons argument pending => exact ⟨⟨rfl, hControl⟩, hStore⟩
  | value result next =>
      cases result with
      | ok value => exact disciplined_deliver hControl hStore
      | error failure => exact disciplined_abandon hControl hStore
  | execute block scope next =>
      cases block with
      | nil => exact ⟨hControl.2, hStore⟩
      | cons stmt others => exact disciplined_execute hControl.1 ⟨hControl.1, hControl.2⟩ hStore
  | completed result next => exact disciplined_resume hControl hStore

end Machine

end IntScript
