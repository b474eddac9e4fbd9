import IntScript.Proofs.Machine.Discipline
import IntScript.Proofs.Scope.Bindings

/-! What a step does to the scopes: it makes at most one, in a scope that the work at hand names, and it
gives a scope no binding but the one that it declares. -/
namespace IntScript.Machine

open Store

/-- The step from this state gives the scope the binding, if it does not fail: the value of a `var`
statement is there, a `fun` statement comes next, or a function with parameters is to be called, which
makes the next scope. -/
inductive State.Declares : State → ScopeId → Binding → Prop where
  | integer (name : Name) (value : Int32) (scope : ScopeId) (next : AfterBlock) (store : Store)
      (calls : CallStack) (history : History) :
      Declares ⟨.value (.ok value) (.declare name scope next), store, calls, history⟩ scope
        (.integer name)
  | function (name : Name) (parameters : List Name) (body others : Block) (scope : ScopeId)
      (next : AfterBlock) (store : Store) (calls : CallStack) (history : History) :
      Declares ⟨.execute (.function name parameters body :: others) scope next, store, calls, history⟩
        scope (.function name (.user ⟨name, parameters, body⟩ scope))
  | parameter {name : Name} {function : Function} (listed : name ∈ function.parameters)
      (home : ScopeId) (known : List Int32) (inner : ScopeId) (next : AfterValue) (store : Store)
      (calls : CallStack) (history : History) :
      Declares ⟨.apply (.user function home) known [] inner next, store, calls, history⟩
        store.slots.size (.integer name)

/-- The scope that a new one is made in, if a step makes one. -/
def Control.opensIn : Control → Option ScopeId
  | evaluate (.call _ _) scope _ => some scope
  | apply (.user _ home) _ [] _ _ => some home
  | value (.ok _) (.branch _ _ scope _) | value (.ok _) (.test _ _ scope _) => some scope
  | _ => none

/-- A step leaves the scopes that there are, or makes one where the work at hand says. -/
def State.Evolves (state : State) (later : Store) : Prop :=
  state.store.Changes later state.Declares ∨
    ∃ parent, state.control.opensIn = some parent ∧ state.store.Opens later parent state.Declares

/-- Even if one parameter is refused, those before it have been declared, and nothing else has. -/
theorem changes_bindParameters (store : Store) (scope : ScopeId) (parameters : List Name)
    (arguments : List Int32) :
    store.Changes (bindParameters store scope parameters arguments).2
      (fun owner binding => owner = scope ∧ ∃ name ∈ parameters, binding = .integer name) := by
  induction parameters generalizing store arguments with
  | nil => exact Changes.refl store _
  | cons parameter parameters ih =>
      cases arguments with
      | nil => exact Changes.refl store _
      | cons argument arguments =>
          have hFirst : store.Changes (store.declareVariable scope parameter argument).2
              (fun owner binding => owner = scope ∧
                ∃ name ∈ parameter :: parameters, binding = .integer name) := by
            refine (store.changes_declareVariable scope parameter argument).mono ?_
            rintro owner binding ⟨hOwner, hBinding⟩
            exact ⟨hOwner, parameter, List.mem_cons_self, hBinding⟩
          rw [bindParameters]
          split
          next later hLater =>
            rw [hLater] at hFirst
            refine hFirst.trans ((ih later arguments).mono ?_)
            rintro owner binding ⟨hOwner, name, hName, hBinding⟩
            exact ⟨hOwner, name, List.mem_cons_of_mem parameter hName, hBinding⟩
          next error later hLater =>
            rw [hLater] at hFirst
            exact hFirst

section

variable {store : Store} {calls : CallStack} {history : History}

theorem evolves_evaluate (expr : Expr) (scope : ScopeId) (next : AfterValue) :
    State.Evolves ⟨.evaluate expr scope next, store, calls, history⟩
      (evaluate expr scope next store calls history).store := by
  cases expr with
  | literal value => exact Or.inl (Changes.refl store _)
  | reference name =>
      rw [evaluate]
      split <;> exact Or.inl (Changes.refl store _)
  | call callee arguments =>
      rw [evaluate]
      split
      next callable hFound => exact Or.inr ⟨scope, rfl, store.opens_child scope _⟩
      next => exact Or.inl (Changes.refl store _)
  | binary op left right => exact Or.inl (Changes.refl store _)

/-- A call makes the scope of the body and declares the parameters in it, and all of this is one
step. -/
theorem evolves_call {callee : Callable} {known : List Int32} {inner : ScopeId} {next : AfterValue}
    (hStore : store.Holds (inner :: next.held)) :
    State.Evolves ⟨.apply callee known [] inner next, store, calls, history⟩
      (call callee known.reverse next (store.release inner) calls history).store := by
  cases callee with
  | builtin builtin => exact Or.inl (hStore.changes_release next.held_ne_nil)
  | user function home =>
      have hReleased {added : ScopeId → Binding → Prop} :
          store.Changes (store.release inner) added := hStore.changes_release next.held_ne_nil
      rw [call]
      split
      next => exact Or.inl hReleased
      next =>
        split
        next => exact Or.inl hReleased
        next =>
          split
          next => exact Or.inl hReleased
          next =>
            have hOpens := hReleased.opens ((store.release inner).opens_child home
              (State.Declares ⟨.apply (.user function home) known [] inner next, store, calls, history⟩))
            have hBound : ((store.release inner).child home).2.Changes
                (bindParameters ((store.release inner).child home).2 store.slots.size
                  function.parameters known.reverse).2
                (State.Declares
                  ⟨.apply (.user function home) known [] inner next, store, calls, history⟩) := by
              refine (changes_bindParameters _ _ _ _).mono ?_
              rintro owner binding ⟨rfl, name, hName, rfl⟩
              exact State.Declares.parameter hName home known inner next store calls history
            simp only [Store.child_fst, Store.size_release]
            split
            next error later hLater =>
              rw [hLater] at hBound
              exact Or.inr ⟨home, rfl, hOpens.changes hBound⟩
            next later hLater =>
              rw [hLater] at hBound
              exact Or.inr ⟨home, rfl, hOpens.changes hBound⟩

/-- Only `fun` declares as soon as it is executed; `var` waits for its value. -/
theorem evolves_execute (stmt : Stmt) (others : Block) (scope : ScopeId) (next : AfterBlock) :
    State.Evolves ⟨.execute (stmt :: others) scope next, store, calls, history⟩
      (execute stmt scope (.sequence others scope next) store calls history).store := by
  cases stmt with
  | function name parameters body =>
      have hDeclared : store.Changes
          (store.declareFunction scope name (.user ⟨name, parameters, body⟩ scope)).2
          (State.Declares
            ⟨.execute (.function name parameters body :: others) scope next, store, calls, history⟩) := by
        refine (store.changes_declareFunction scope name _).mono ?_
        rintro owner binding ⟨rfl, rfl⟩
        exact State.Declares.function name parameters body others owner next store calls history
      rw [execute]
      split
      next later hLater =>
        rw [hLater] at hDeclared
        exact Or.inl hDeclared
      next error later hLater =>
        rw [hLater] at hDeclared
        exact Or.inl hDeclared
  | declare name value | loop condition body | branch condition positive negative
  | assign name value | yield value | evaluate value => exact Or.inl (Changes.refl store _)

/-- This is where a `var` statement declares. -/
theorem evolves_deliver (value : Int32) (next : AfterValue) :
    State.Evolves ⟨.value (.ok value) next, store, calls, history⟩
      (deliver value next store calls history).store := by
  cases next with
  | rightOperand op right scope next | argument callee known pending inner next | yield next
  | discard next => exact Or.inl (Changes.refl store _)
  | operator op left next =>
      rw [deliver]
      split <;> exact Or.inl (Changes.refl store _)
  | declare name scope next =>
      have hDeclared : store.Changes (store.declareVariable scope name value).2
          (State.Declares ⟨.value (.ok value) (.declare name scope next), store, calls, history⟩) := by
        refine (store.changes_declareVariable scope name value).mono ?_
        rintro owner binding ⟨rfl, rfl⟩
        exact State.Declares.integer name value owner next store calls history
      rw [deliver]
      split
      next later hLater =>
        rw [hLater] at hDeclared
        exact Or.inl hDeclared
      next error later hLater =>
        rw [hLater] at hDeclared
        exact Or.inl hDeclared
  | assign name scope next =>
      have hAssigned : store.Changes (store.setVariable scope name value).2
          (State.Declares ⟨.value (.ok value) (.assign name scope next), store, calls, history⟩) :=
        store.changes_setVariable scope name value
      rw [deliver]
      split
      next later hLater =>
        rw [hLater] at hAssigned
        exact Or.inl hAssigned
      next error later hLater =>
        rw [hLater] at hAssigned
        exact Or.inl hAssigned
  | branch positive negative scope next => exact Or.inr ⟨scope, rfl, store.opens_child scope _⟩
  | test condition body scope next =>
      rw [deliver]
      split
      next => exact Or.inr ⟨scope, rfl, store.opens_child scope _⟩
      next => exact Or.inl (Changes.refl store _)

theorem evolves_abandon {failure : Failure Name} {next : AfterValue}
    (hStore : store.Holds next.held) :
    State.Evolves ⟨.value (.error failure) next, store, calls, history⟩
      (abandon failure next store calls history).store := by
  cases next with
  | argument callee known pending inner next =>
      exact Or.inl (hStore.changes_release next.held_ne_nil)
  | rightOperand op right scope next | operator op left next | declare name scope next
  | assign name scope next | yield next | discard next | branch positive negative scope next
  | test condition body scope next => exact Or.inl (Changes.refl store _)

theorem evolves_resume {result : Result Completion} {next : AfterBlock}
    (hStore : store.Holds next.held) :
    State.Evolves ⟨.completed result next, store, calls, history⟩
      (resume result next store calls history).store := by
  cases next with
  | halt => exact Or.inl (Changes.refl store _)
  | sequence others scope next =>
      rcases result with failure | _ | value <;> exact Or.inl (Changes.refl store _)
  | leave scope next => exact Or.inl (hStore.changes_release next.held_ne_nil)
  | again condition body scope next =>
      rcases result with failure | _ | value <;> exact Or.inl (Changes.refl store _)
  | finish activation next => exact Or.inl (hStore.changes_release next.held_ne_nil)

end

/-- What any step does to the scopes. -/
theorem State.Disciplined.evolves {state : State} (h : state.Disciplined) :
    state.Evolves (Machine.step state).store := by
  obtain ⟨control, store, calls, history⟩ := state
  obtain ⟨hControl, hStore⟩ := h
  cases control with
  | evaluate expr scope next => exact evolves_evaluate expr scope next
  | apply callee known pending inner next =>
      cases pending with
      | nil => exact evolves_call hStore
      | cons argument pending => exact Or.inl (Changes.refl store _)
  | value result next =>
      cases result with
      | ok value => exact evolves_deliver value next
      | error failure => exact evolves_abandon hStore
  | execute block scope next =>
      cases block with
      | nil => exact Or.inl (Changes.refl store _)
      | cons stmt others => exact evolves_execute stmt others scope next
  | completed result next => exact evolves_resume hStore

/-- A binding that is there after a step was there before or is declared by the step. -/
theorem State.Disciplined.step_binds {state : State} (h : state.Disciplined) {id : ScopeId}
    {binding : Binding} (hBinds : (Machine.step state).store.Binds id binding) :
    state.store.Binds id binding ∨ state.Declares id binding := by
  rcases h.evolves with hChanges | ⟨parent, -, hOpens⟩
  · exact hChanges.binds hBinds
  · exact hOpens.binds hBinds

end IntScript.Machine
