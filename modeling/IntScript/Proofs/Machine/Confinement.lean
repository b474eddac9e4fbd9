import IntScript.Proofs.Machine.Runs
import IntScript.Proofs.Scope.Regions

/-! A piece of work, from its beginning until its result is handed to what waits for it, stays within its
region: it runs in the scope where it began and in scopes that it makes, and calls only functions that
were declared where it can see. -/
namespace IntScript.Machine

inductive Pending where
  | value (next : AfterValue)
  | block (next : AfterBlock)

/-- A result is being handed to this work. -/
def Control.handsTo (base : Pending) : Control → Prop
  | evaluate _ _ _ | apply _ _ _ _ _ | execute _ _ _ => False
  | value _ next => base = .value next
  | completed _ next => base = .block next

/-- The run comes from the first state to the second while nothing is handed to `base`, except perhaps in
the second. -/
inductive During (base : Pending) : State → State → Prop where
  | here (state : State) : During base state state
  | step {state later : State} (waits : ¬ state.control.handsTo base)
      (further : During base (step state) later) : During base state later

mutual

/-- The work is `base`, or what comes before it: this goes on within the region. -/
inductive AfterValue.Above (region : Region) (base : Pending) : AfterValue → Prop where
  | base {next : AfterValue} (same : base = .value next) : AfterValue.Above region base next
  | rightOperand {op : BinaryOp} {right : Expr} {scope : ScopeId} {next : AfterValue}
      (inside : region.Inside scope) (above : AfterValue.Above region base next) :
      AfterValue.Above region base (.rightOperand op right scope next)
  | operator {op : BinaryOp} {left : Int32} {next : AfterValue}
      (above : AfterValue.Above region base next) :
      AfterValue.Above region base (.operator op left next)
  | argument {callee : Callable} {known : List Int32} {pending : List Expr} {inner : ScopeId}
      {next : AfterValue} (admitted : region.Admits callee) (new : region.New inner)
      (above : AfterValue.Above region base next) :
      AfterValue.Above region base (.argument callee known pending inner next)
  | declare {name : Name} {scope : ScopeId} {next : AfterBlock} {initial : Expr}
      (runs : region.Runs scope [.declare name initial]) (above : AfterBlock.Above region base next) :
      AfterValue.Above region base (.declare name scope next)
  | assign {name : Name} {scope : ScopeId} {next : AfterBlock} (inside : region.Inside scope)
      (above : AfterBlock.Above region base next) :
      AfterValue.Above region base (.assign name scope next)
  | yield {next : AfterBlock} (above : AfterBlock.Above region base next) :
      AfterValue.Above region base (.yield next)
  | discard {next : AfterBlock} (above : AfterBlock.Above region base next) :
      AfterValue.Above region base (.discard next)
  | branch {positive negative : Block} {scope : ScopeId} {next : AfterBlock}
      (inside : region.Inside scope) (above : AfterBlock.Above region base next) :
      AfterValue.Above region base (.branch positive negative scope next)
  | test {condition : Expr} {body : Block} {scope : ScopeId} {next : AfterBlock}
      (inside : region.Inside scope) (above : AfterBlock.Above region base next) :
      AfterValue.Above region base (.test condition body scope next)

/-- The work is `base`, or what comes before it: this goes on within the region, and gives up only
scopes that it has made. -/
inductive AfterBlock.Above (region : Region) (base : Pending) : AfterBlock → Prop where
  | base {next : AfterBlock} (same : base = .block next) : AfterBlock.Above region base next
  | sequence {others : Block} {scope : ScopeId} {next : AfterBlock} (runs : region.Runs scope others)
      (above : AfterBlock.Above region base next) :
      AfterBlock.Above region base (.sequence others scope next)
  | leave {scope : ScopeId} {next : AfterBlock} (new : region.New scope)
      (above : AfterBlock.Above region base next) : AfterBlock.Above region base (.leave scope next)
  | again {condition : Expr} {body : Block} {scope : ScopeId} {next : AfterBlock}
      (inside : region.Inside scope) (above : AfterBlock.Above region base next) :
      AfterBlock.Above region base (.again condition body scope next)
  | finish {activation : ScopeId} {next : AfterValue} (new : region.New activation)
      (above : AfterValue.Above region base next) :
      AfterBlock.Above region base (.finish activation next)

end

/-- What is being done is done within the region, before `base`. -/
def Control.Above (region : Region) (base : Pending) : Control → Prop
  | evaluate _ scope next => region.Inside scope ∧ next.Above region base
  | apply callee _ _ inner next =>
      region.Admits callee ∧ region.New inner ∧ next.Above region base
  | value _ next => next.Above region base
  | execute block scope next => region.Runs scope block ∧ next.Above region base
  | completed _ next => next.Above region base

/-- The work goes on within its region, and the scopes that were there are as the region demands. -/
structure State.Confined (region : Region) (base : Pending) (state : State) : Prop where
  control : state.control.Above region base
  store : region.Respects state.store

/-- Parameters go to the scope of the body, which the work has made itself. -/
theorem respects_bindParameters {region : Region} {store : Store} (h : region.Respects store)
    {scope : ScopeId} (hNew : region.New scope) (parameters : List Name) (arguments : List Int32) :
    region.Respects (bindParameters store scope parameters arguments).2 := by
  induction parameters generalizing store arguments with
  | nil => exact h
  | cons parameter parameters ih =>
      cases arguments with
      | nil => exact h
      | cons argument arguments =>
          have hDeclared := h.declareVariable_new hNew parameter argument
          rw [bindParameters]
          split
          next later hLater =>
            rw [hLater] at hDeclared
            exact ih hDeclared arguments
          next error later hLater =>
            rw [hLater] at hDeclared
            exact hDeclared

section

variable {region : Region} {base : Pending} {store : Store} {held : List ScopeId} {calls : CallStack}
  {history : History}

/-- An expression makes at most a scope for arguments, in the scope that it is evaluated in. -/
theorem confined_evaluate {expr : Expr} {scope : ScopeId} {next : AfterValue}
    (hInside : region.Inside scope) (hNext : next.Above region base) (hStore : region.Respects store)
    (hHolds : store.Holds held) :
    (evaluate expr scope next store calls history).Confined region base := by
  cases expr with
  | literal value => exact ⟨hNext, hStore⟩
  | reference name =>
      rw [evaluate]
      split <;> exact ⟨hNext, hStore⟩
  | call callee arguments =>
      rw [evaluate]
      split
      next callable hFound =>
        refine ⟨⟨hStore.admits hHolds hFound hInside.sees, ?_, hNext⟩, hStore.child hInside.sees⟩
        rw [Store.child_fst]
        exact hStore.size
      next => exact ⟨hNext, hStore⟩
  | binary op left right => exact ⟨⟨hInside, .rightOperand hInside hNext⟩, hStore⟩

/-- A function may be declared far outside, but it sees from its home only what lies around that,
and the region admits it. -/
theorem confined_call {callee : Callable} {arguments : List Int32} {next : AfterValue}
    (hCallee : region.Admits callee) (hNext : next.Above region base)
    (hStore : region.Respects store) :
    (call callee arguments next store calls history).Confined region base := by
  cases callee with
  | builtin builtin => exact ⟨hNext, hStore⟩
  | user function home =>
      rw [call]
      split
      next => exact ⟨hNext, hStore⟩
      next =>
        split
        next => exact ⟨hNext, hStore⟩
        next =>
          split
          next => exact ⟨hNext, hStore⟩
          next =>
            have hNew : region.New store.slots.size := hStore.size
            have hBound := respects_bindParameters (hStore.child hCallee) hNew function.parameters
              arguments
            simp only [Store.child_fst]
            split
            next error later hLater =>
              rw [hLater] at hBound
              exact ⟨.finish hNew hNext, hBound⟩
            next later hLater =>
              rw [hLater] at hBound
              exact ⟨⟨Or.inl hNew, .finish hNew hNext⟩, hBound⟩

/-- A declaration goes to the scope of the statement, where the region allows it. -/
theorem confined_execute {stmt : Stmt} {others : Block} {scope : ScopeId} {next : AfterBlock}
    (hRuns : region.Runs scope (stmt :: others)) (hNext : next.Above region base)
    (hStore : region.Respects store) :
    (execute stmt scope next store calls history).Confined region base := by
  have hInside := hRuns.inside
  cases stmt with
  | function name parameters body =>
      have hDeclared := hStore.declareFunction hRuns
      rw [execute]
      split
      next later hLater =>
        rw [hLater] at hDeclared
        exact ⟨hNext, hDeclared⟩
      next error later hLater =>
        rw [hLater] at hDeclared
        exact ⟨hNext, hDeclared⟩
  | declare name value =>
      have hAlone : region.Runs scope [.declare name value] :=
        hRuns.mono (List.cons_subset_cons _ (List.nil_subset others))
      exact ⟨⟨hInside, .declare hAlone hNext⟩, hStore⟩
  | loop condition body => exact ⟨⟨hInside, .test hInside hNext⟩, hStore⟩
  | branch condition positive negative => exact ⟨⟨hInside, .branch hInside hNext⟩, hStore⟩
  | assign name value => exact ⟨⟨hInside, .assign hInside hNext⟩, hStore⟩
  | yield value => exact ⟨⟨hInside, .yield hNext⟩, hStore⟩
  | evaluate value => exact ⟨⟨hInside, .discard hNext⟩, hStore⟩

/-- A block has a scope of its own, and what it declares is gone with it. -/
theorem confined_enter {block : Block} {scope : ScopeId} {next : AfterBlock}
    (hInside : region.Inside scope) (hNext : next.Above region base) (hStore : region.Respects store) :
    (enter block scope next store calls history).Confined region base := by
  have hNew : region.New (store.child scope).1 := by
    rw [Store.child_fst]
    exact hStore.size
  exact ⟨⟨Or.inl hNew, .leave hNew hNext⟩, hStore.child hInside.sees⟩

/-- Handing on a value stays within the region, until the work at its border gets it. -/
theorem confined_deliver {value : Int32} {next : AfterValue} (hNext : next.Above region base)
    (hWaits : base ≠ .value next) (hStore : region.Respects store) (hHolds : store.Holds held) :
    (deliver value next store calls history).Confined region base := by
  cases hNext with
  | base same => exact absurd same hWaits
  | rightOperand inside above => exact ⟨⟨inside, .operator above⟩, hStore⟩
  | operator above =>
      rw [deliver]
      split <;> exact ⟨above, hStore⟩
  | argument admitted new above => exact ⟨⟨admitted, new, above⟩, hStore⟩
  | @declare name scope next initial runs above =>
      have hDeclared := hStore.declareVariable runs value
      rw [deliver]
      split
      next later hLater =>
        rw [hLater] at hDeclared
        exact ⟨above, hDeclared⟩
      next error later hLater =>
        rw [hLater] at hDeclared
        exact ⟨above, hDeclared⟩
  | @assign name scope next inside above =>
      have hAssigned := hStore.setVariable hHolds inside.sees name value
      rw [deliver]
      split
      next later hLater =>
        rw [hLater] at hAssigned
        exact ⟨above, hAssigned⟩
      next error later hLater =>
        rw [hLater] at hAssigned
        exact ⟨above, hAssigned⟩
  | yield above | discard above => exact ⟨above, hStore⟩
  | branch inside above => exact confined_enter inside above hStore
  | test inside above =>
      rw [deliver]
      split
      next => exact confined_enter inside (.again inside above) hStore
      next => exact ⟨above, hStore⟩

/-- Giving up scopes for arguments touches only scopes that the work has made. -/
theorem confined_abandon {failure : Failure Name} {next : AfterValue} (hNext : next.Above region base)
    (hWaits : base ≠ .value next) (hStore : region.Respects store) (hHolds : store.Holds next.held) :
    (abandon failure next store calls history).Confined region base := by
  cases hNext with
  | base same => exact absurd same hWaits
  | rightOperand inside above | assign inside above | branch inside above | test inside above =>
      exact ⟨above, hStore⟩
  | operator above | yield above | discard above => exact ⟨above, hStore⟩
  | @argument callee known pending inner next admitted new above =>
      exact ⟨above, hStore.release hHolds next.held_ne_nil new⟩
  | declare runs above => exact ⟨above, hStore⟩

theorem confined_resume {result : Result Completion} {next : AfterBlock}
    (hNext : next.Above region base) (hWaits : base ≠ .block next) (hStore : region.Respects store)
    (hHolds : store.Holds next.held) :
    (resume result next store calls history).Confined region base := by
  cases hNext with
  | base same => exact absurd same hWaits
  | sequence runs above =>
      rcases result with failure | _ | value
      · exact ⟨above, hStore⟩
      · exact ⟨⟨runs, above⟩, hStore⟩
      · exact ⟨above, hStore⟩
  | @leave scope next new above => exact ⟨above, hStore.release hHolds next.held_ne_nil new⟩
  | again inside above =>
      rcases result with failure | _ | value
      · exact ⟨above, hStore⟩
      · exact ⟨⟨inside, .test inside above⟩, hStore⟩
      · exact ⟨above, hStore⟩
  | @finish activation next new above => exact ⟨above, hStore.release hHolds next.held_ne_nil new⟩

end

/-- Until its result is handed on, a piece of work stays within its region with every step. -/
theorem State.Confined.step {region : Region} {base : Pending} {state : State}
    (h : state.Confined region base) (hWork : state.Disciplined)
    (hWaits : ¬ state.control.handsTo base) : (Machine.step state).Confined region base := by
  obtain ⟨control, store, calls, history⟩ := state
  obtain ⟨hControl, hStore⟩ := h
  have hHolds := hWork.store
  cases control with
  | evaluate expr scope next => exact confined_evaluate hControl.1 hControl.2 hStore hHolds
  | apply callee known pending inner next =>
      obtain ⟨hCallee, hNew, hNext⟩ := hControl
      cases pending with
      | nil => exact confined_call hCallee hNext (hStore.release hHolds next.held_ne_nil hNew)
      | cons argument pending => exact ⟨⟨Or.inl hNew, .argument hCallee hNew hNext⟩, hStore⟩
  | value result next =>
      cases result with
      | ok value => exact confined_deliver hControl hWaits hStore hHolds
      | error failure => exact confined_abandon hControl hWaits hStore hHolds
  | execute block scope next =>
      obtain ⟨hRuns, hNext⟩ := hControl
      cases block with
      | nil => exact ⟨hNext, hStore⟩
      | cons stmt others =>
          exact confined_execute hRuns
            (.sequence (hRuns.mono (List.subset_cons_self stmt others)) hNext) hStore
  | completed result next => exact confined_resume hControl hWaits hStore hHolds

/-- An expression is evaluated within a region that declares nothing. -/
theorem State.confined_of_evaluate {state : State} {expr : Expr} {scope : ScopeId} {next : AfterValue}
    (h : state.control = .evaluate expr scope next) :
    state.Confined ⟨state.store, scope, []⟩ (.value next) := by
  refine ⟨?_, Region.respects_before _⟩
  rw [h]
  exact ⟨Or.inr rfl, .base rfl⟩

/-- A block is executed within a region that declares what it does. -/
theorem State.confined_of_execute {state : State} {block : Block} {scope : ScopeId} {next : AfterBlock}
    (h : state.control = .execute block scope next) :
    state.Confined ⟨state.store, scope, block⟩ (.block next) := by
  refine ⟨?_, Region.respects_before _⟩
  rw [h]
  exact ⟨Or.inr ⟨rfl, List.Subset.refl block⟩, .base rfl⟩

/-- A statement declares no more than it says itself, whatever stands beside it in its block. -/
theorem State.confined_of_statement {state : State} {stmt : Stmt} {others : Block} {scope : ScopeId}
    {next : AfterBlock} (h : state.control = .execute (stmt :: others) scope next) :
    (Machine.step state).Confined ⟨state.store, scope, [stmt]⟩
      (.block (.sequence others scope next)) := by
  obtain ⟨control, store, calls, history⟩ := state
  cases h
  exact confined_execute (Or.inr ⟨rfl, List.Subset.refl [stmt]⟩) (.base rfl) (Region.respects_before _)

/-- So it does all the time. -/
theorem State.Confined.during {region : Region} {base : Pending} {state later : State}
    (h : state.Confined region base) (hWork : state.Disciplined) (hDuring : During base state later) :
    later.Confined region base := by
  induction hDuring with
  | here => exact h
  | step waits _ ih => exact ih (h.step hWork waits) hWork.step

end IntScript.Machine
