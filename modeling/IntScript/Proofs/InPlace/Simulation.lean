import IntScript.Proofs.InPlace
import IntScript.Proofs.InPlace.Tiers
import IntScript.Proofs.Machine.Calls

/-! The machine and the machine without scopes for arguments go in step. The second may run a program of
which statements after a `return` are left out, for these are passed over by the first. -/
namespace IntScript

namespace Machine

mutual

/-- The same work waits for the value, in scopes from which the same is seen. Nothing that is declared
lands in a scope for arguments. -/
inductive AfterValue.Collapses : Tiers → AfterValue → AfterValue → Prop where
  | rightOperand {tiers : Tiers} (op : BinaryOp) (right : Expr) {scope image : ScopeId}
      {next next' : AfterValue} (shown : tiers.Shows scope image)
      (further : AfterValue.Collapses tiers next next') :
      AfterValue.Collapses tiers (.rightOperand op right scope next) (.rightOperand op right image next')
  | operator {tiers : Tiers} (op : BinaryOp) (left : Int32) {next next' : AfterValue}
      (further : AfterValue.Collapses tiers next next') :
      AfterValue.Collapses tiers (.operator op left next) (.operator op left next')
  | argument {tiers : Tiers} {callee callee' : Callable} (same : callee.Prunes tiers.Pairs callee')
      (known : List Int32) (pending : List Expr) (inner image : ScopeId) {next next' : AfterValue}
      (further : AfterValue.Collapses tiers next next') :
      AfterValue.Collapses (.arguments inner image :: tiers) (.argument callee known pending inner next)
        (.argument callee' known pending image next')
  | declare {tiers : Tiers} (name : Name) {scope image : ScopeId} {next next' : AfterBlock}
      (paired : tiers.Pairs scope image) (further : AfterBlock.Collapses tiers next next') :
      AfterValue.Collapses tiers (.declare name scope next) (.declare name image next')
  | assign {tiers : Tiers} (name : Name) {scope image : ScopeId} {next next' : AfterBlock}
      (paired : tiers.Pairs scope image) (further : AfterBlock.Collapses tiers next next') :
      AfterValue.Collapses tiers (.assign name scope next) (.assign name image next')
  | yield {tiers : Tiers} (others others' : Block) (scope image : ScopeId) {next next' : AfterBlock}
      (further : AfterBlock.Collapses tiers next next') :
      AfterValue.Collapses tiers (.yield (.sequence others scope next))
        (.yield (.sequence others' image next'))
  | discard {tiers : Tiers} {next next' : AfterBlock} (further : AfterBlock.Collapses tiers next next') :
      AfterValue.Collapses tiers (.discard next) (.discard next')
  | branch {tiers : Tiers} {positive positive' negative negative' : Block} {scope image : ScopeId}
      {next next' : AfterBlock} (prunedPositive : Block.Prunes false positive positive')
      (prunedNegative : Block.Prunes false negative negative') (paired : tiers.Pairs scope image)
      (further : AfterBlock.Collapses tiers next next') :
      AfterValue.Collapses tiers (.branch positive negative scope next)
        (.branch positive' negative' image next')
  | test {tiers : Tiers} (condition : Expr) {body body' : Block} {scope image : ScopeId}
      {next next' : AfterBlock} (pruned : Block.Prunes false body body')
      (paired : tiers.Pairs scope image) (further : AfterBlock.Collapses tiers next next') :
      AfterValue.Collapses tiers (.test condition body scope next) (.test condition body' image next')

inductive AfterBlock.Collapses : Tiers → AfterBlock → AfterBlock → Prop where
  | halt : AfterBlock.Collapses [.scope 0 0] .halt .halt
  | sequence {tiers : Tiers} {others others' : Block} {scope image : ScopeId}
      {next next' : AfterBlock} (pruned : Block.Prunes false others others')
      (paired : tiers.Pairs scope image) (further : AfterBlock.Collapses tiers next next') :
      AfterBlock.Collapses tiers (.sequence others scope next) (.sequence others' image next')
  | leave {tiers : Tiers} (scope image : ScopeId) {next next' : AfterBlock}
      (further : AfterBlock.Collapses tiers next next') :
      AfterBlock.Collapses (.scope scope image :: tiers) (.leave scope next) (.leave image next')
  | again {tiers : Tiers} (condition : Expr) {body body' : Block} {scope image : ScopeId}
      {next next' : AfterBlock} (pruned : Block.Prunes false body body')
      (paired : tiers.Pairs scope image) (further : AfterBlock.Collapses tiers next next') :
      AfterBlock.Collapses tiers (.again condition body scope next) (.again condition body' image next')
  | finish {tiers : Tiers} (activation image : ScopeId) {next next' : AfterValue}
      (further : AfterValue.Collapses tiers next next') :
      AfterBlock.Collapses (.scope activation image :: tiers) (.finish activation next)
        (.finish image next')

end

/-- The same is being done. Statements that a `return` or a failure passes over need not be the same. -/
inductive Control.Collapses : Tiers → Control → Control → Prop where
  | evaluate {tiers : Tiers} (expr : Expr) {scope image : ScopeId} {next next' : AfterValue}
      (shown : tiers.Shows scope image) (further : next.Collapses tiers next') :
      Collapses tiers (.evaluate expr scope next) (.evaluate expr image next')
  | apply {tiers : Tiers} {callee callee' : Callable} (same : callee.Prunes tiers.Pairs callee')
      (known : List Int32) (pending : List Expr) (inner image : ScopeId) {next next' : AfterValue}
      (further : next.Collapses tiers next') :
      Collapses (.arguments inner image :: tiers) (.apply callee known pending inner next)
        (.apply callee' known pending image next')
  | value {tiers : Tiers} (result : Result Int32) {next next' : AfterValue}
      (further : next.Collapses tiers next') : Collapses tiers (.value result next) (.value result next')
  | execute {tiers : Tiers} {block block' : Block} {scope image : ScopeId} {next next' : AfterBlock}
      (pruned : Block.Prunes false block block') (paired : tiers.Pairs scope image)
      (further : next.Collapses tiers next') :
      Collapses tiers (.execute block scope next) (.execute block' image next')
  | completed {tiers : Tiers} (result : Result Completion) {next next' : AfterBlock}
      (further : next.Collapses tiers next') :
      Collapses tiers (.completed result next) (.completed result next')
  | passes {tiers : Tiers} {result : Result Completion} (ends : result ≠ .ok none)
      (others others' : Block) (scope image : ScopeId) {next next' : AfterBlock}
      (further : next.Collapses tiers next') :
      Collapses tiers (.completed result (.sequence others scope next))
        (.completed result (.sequence others' image next'))

/-- The same state, where the second machine lacks the scopes for arguments. -/
structure State.Collapses (tiers : Tiers) (first second : State) : Prop where
  control : first.control.Collapses tiers second.control
  store : first.store.Collapses tiers second.store
  calls : first.calls = second.calls
  history : first.history = second.history

mutual

/-- Below whatever waits there is the root scope, the same in both stores. -/
theorem AfterValue.Collapses.rooted {tiers : Tiers} {next next' : AfterValue}
    (h : next.Collapses tiers next') : tiers.Pairs 0 0 := by
  cases h with
  | rightOperand _ _ _ further | operator _ _ further => exact further.rooted
  | argument _ _ _ _ _ further => exact further.rooted.outward _
  | declare _ _ further | assign _ _ further | yield _ _ _ _ further | discard further
  | branch _ _ _ further | test _ _ _ further => exact further.rooted

theorem AfterBlock.Collapses.rooted {tiers : Tiers} {next next' : AfterBlock}
    (h : next.Collapses tiers next') : tiers.Pairs 0 0 := by
  cases h with
  | halt => exact List.mem_cons_self
  | sequence _ _ further | again _ _ _ further => exact further.rooted
  | leave _ _ further => exact further.rooted.outward _
  | finish _ _ further => exact further.rooted.outward _

end

section

variable {tiers : Tiers} {store store' : Store} (hStore : store.Collapses tiers store')
  (calls : CallStack) (history : History)

include hStore

/-- The first machine makes a scope for the arguments of a call; the second sees the same from the
scope of the call itself. -/
theorem collapses_evaluate (expr : Expr) {scope image : ScopeId} (hShown : tiers.Shows scope image)
    {next next' : AfterValue} (hNext : next.Collapses tiers next') :
    ∃ later, State.Collapses later (evaluate expr scope next store calls history)
      (InPlace.step ⟨.evaluate expr image next', store', calls, history⟩) := by
  cases expr with
  | literal value => exact ⟨tiers, .value (.ok value) hNext, hStore, rfl, rfl⟩
  | binary op left right =>
      exact ⟨tiers, .evaluate left hShown (.rightOperand op right hShown hNext), hStore, rfl, rfl⟩
  | reference name =>
      change ∃ later, State.Collapses later _ (evaluate (.reference name) image next' store' calls history)
      rw [evaluate, evaluate, hStore.getVariable name hShown]
      split
      next value _ => exact ⟨tiers, .value (.ok value) hNext, hStore, rfl, rfl⟩
      next => exact ⟨tiers, .value _ hNext, hStore, rfl, rfl⟩
  | call callee arguments =>
      have hFound := hStore.getFunction callee hShown
      rw [InPlace.step, evaluate]
      generalize store.getFunction scope callee = found at hFound ⊢
      generalize store'.getFunction image callee = found' at hFound ⊢
      cases hFound with
      | ok same =>
          simp only [Store.child_fst]
          exact ⟨_, .apply same [] arguments _ image hNext, hStore.arguments hShown, rfl, rfl⟩
      | error same =>
          cases same
          exact ⟨tiers, .value _ hNext, hStore, rfl, rfl⟩

omit hStore in
/-- The scope of a body has a counterpart, so that parameters are declared in both. -/
theorem collapses_bindParameters {store store' : Store} (hStore : store.Collapses tiers store')
    {scope image : ScopeId} (hPair : tiers.Pairs scope image) (parameters : List Name)
    (arguments : List Int32) :
    Store.ChangeCollapses tiers (bindParameters store scope parameters arguments)
      (bindParameters store' image parameters arguments) := by
  induction parameters generalizing store store' arguments with
  | nil => exact .mk _ hStore
  | cons parameter parameters ih =>
      cases arguments with
      | nil => exact .mk _ hStore
      | cons argument arguments =>
          have hDeclared := hStore.declareVariable hPair parameter argument
          rw [bindParameters, bindParameters]
          generalize store.declareVariable scope parameter argument = change at hDeclared ⊢
          generalize store'.declareVariable image parameter argument = change' at hDeclared ⊢
          obtain ⟨outcome, hLater⟩ := hDeclared
          cases outcome with
          | ok => exact ih hLater arguments
          | error error => exact .mk _ hLater

/-- A body runs in a child of its home, and homes have counterparts. -/
theorem collapses_call {callee callee' : Callable} (hCallee : callee.Prunes tiers.Pairs callee')
    (arguments : List Int32) {next next' : AfterValue} (hNext : next.Collapses tiers next') :
    ∃ later, State.Collapses later (call callee arguments next store calls history)
      (call callee' arguments next' store' calls history) := by
  cases hCallee with
  | builtin builtin => exact ⟨tiers, .value _ hNext, hStore, rfl, rfl⟩
  | @user name parameters body body' home home' pruned paired =>
      obtain ⟨hLive, hLive'⟩ := hStore.isLive paired
      rw [call, call, hLive, hLive']
      simp only [Function.arity]
      by_cases hArity : arguments.length ≠ parameters.length
      · rw [if_pos hArity, if_pos hArity]
        exact ⟨tiers, .value _ hNext, hStore, rfl, rfl⟩
      · rw [if_neg hArity, if_neg hArity]
        cases hFull : calls.isFull with
        | true =>
            rw [CallStack.push_of_full hFull]
            exact ⟨tiers, .value _ hNext, hStore, rfl, rfl⟩
        | false =>
            rw [CallStack.push_of_free hFull]
            have hBound := collapses_bindParameters (hStore.child paired) List.mem_cons_self parameters
              arguments
            simp only [Bool.not_true, Bool.false_eq_true, if_false, Store.child_fst]
            generalize bindParameters (store.child home).2 _ parameters arguments = change at hBound ⊢
            generalize bindParameters (store'.child home').2 _ parameters arguments = change' at hBound ⊢
            obtain ⟨outcome, hLater⟩ := hBound
            cases outcome with
            | ok => exact ⟨_, .execute pruned List.mem_cons_self (.finish _ _ hNext), hLater, rfl, rfl⟩
            | error error => exact ⟨_, .completed _ (.finish _ _ hNext), hLater, rfl, rfl⟩

/-- Statements after a `return` may be left out of the second run, for they are passed over in the
first. -/
theorem collapses_execute {stmt stmt' : Stmt} (hStmt : stmt.Prunes stmt') {others others' : Block}
    (hOthers : Block.Prunes stmt.isYield others others') {scope image : ScopeId}
    (hPair : tiers.Pairs scope image) {next next' : AfterBlock} (hNext : next.Collapses tiers next') :
    ∃ later, State.Collapses later
      (execute stmt scope (.sequence others scope next) store calls history)
      (execute stmt' image (.sequence others' image next') store' calls history) := by
  cases hStmt with
  | function name parameters pruned =>
      have hHome (body : Block) (home : ScopeId) (function : Function) (found : ScopeId)
          (hSame : Callable.user ⟨name, parameters, body⟩ home = .user function found) :
          found = home ∧ function.name = name := by
        cases hSame
        exact ⟨rfl, rfl⟩
      have hDeclared := hStore.declareFunction hPair (.user name parameters pruned ⟨rfl, rfl⟩)
        (hHome _ scope) (hHome _ image)
      rw [execute, execute]
      generalize store.declareFunction scope name _ = change at hDeclared ⊢
      generalize store'.declareFunction image name _ = change' at hDeclared ⊢
      obtain ⟨outcome, hLater⟩ := hDeclared
      cases outcome with
      | ok => exact ⟨tiers, .completed _ (.sequence hOthers hPair hNext), hLater, rfl, rfl⟩
      | error error => exact ⟨tiers, .completed _ (.sequence hOthers hPair hNext), hLater, rfl, rfl⟩
  | declare name value =>
      exact ⟨tiers, .evaluate value hPair.shows (.declare name hPair (.sequence hOthers hPair hNext)),
        hStore, rfl, rfl⟩
  | loop condition pruned =>
      exact ⟨tiers, .evaluate condition hPair.shows
        (.test condition pruned hPair (.sequence hOthers hPair hNext)), hStore, rfl, rfl⟩
  | branch condition prunedPositive prunedNegative =>
      exact ⟨tiers, .evaluate condition hPair.shows
        (.branch prunedPositive prunedNegative hPair (.sequence hOthers hPair hNext)), hStore, rfl, rfl⟩
  | assign name value =>
      exact ⟨tiers, .evaluate value hPair.shows (.assign name hPair (.sequence hOthers hPair hNext)),
        hStore, rfl, rfl⟩
  | yield value =>
      exact ⟨tiers, .evaluate value hPair.shows (.yield others others' scope image hNext), hStore, rfl,
        rfl⟩
  | evaluate value =>
      exact ⟨tiers, .evaluate value hPair.shows (.discard (.sequence hOthers hPair hNext)), hStore, rfl,
        rfl⟩

theorem collapses_enter {block block' : Block} (hBlock : Block.Prunes false block block')
    {scope image : ScopeId} (hPair : tiers.Pairs scope image) {next next' : AfterBlock}
    (hNext : next.Collapses tiers next') :
    ∃ later, State.Collapses later (enter block scope next store calls history)
      (enter block' image next' store' calls history) := by
  rw [enter, enter]
  simp only [Store.child_fst]
  exact ⟨_, .execute hBlock List.mem_cons_self (.leave _ _ hNext), hStore.child hPair, rfl, rfl⟩

/-- With the last argument the first machine gives up its scope, which the second never made. -/
theorem collapses_deliver (value : Int32) {next next' : AfterValue} (hNext : next.Collapses tiers next') :
    ∃ later, State.Collapses later (deliver value next store calls history)
      (deliver value next' store' calls history) := by
  cases hNext with
  | rightOperand op right shown further =>
      exact ⟨tiers, .evaluate right shown (.operator op value further), hStore, rfl, rfl⟩
  | operator op left further =>
      rw [deliver, deliver]
      split <;> exact ⟨tiers, .value _ further, hStore, rfl, rfl⟩
  | argument same known pending inner image further =>
      exact ⟨_, .apply same (value :: known) pending inner image further, hStore, rfl, rfl⟩
  | @declare _ name scope image next next' paired further =>
      have hDeclared := hStore.declareVariable paired name value
      rw [deliver, deliver]
      generalize store.declareVariable scope name value = change at hDeclared ⊢
      generalize store'.declareVariable image name value = change' at hDeclared ⊢
      obtain ⟨outcome, hLater⟩ := hDeclared
      cases outcome <;> exact ⟨tiers, .completed _ further, hLater, rfl, rfl⟩
  | @assign _ name scope image next next' paired further =>
      have hAssigned := hStore.setVariable name value paired.shows
      rw [deliver, deliver]
      generalize store.setVariable scope name value = change at hAssigned ⊢
      generalize store'.setVariable image name value = change' at hAssigned ⊢
      obtain ⟨outcome, hLater⟩ := hAssigned
      cases outcome <;> exact ⟨tiers, .completed _ further, hLater, rfl, rfl⟩
  | yield others others' scope image further =>
      have hEnds : (.ok (some value) : Result Completion) ≠ .ok none := fun hNone => by cases hNone
      exact ⟨tiers, .passes hEnds others others' scope image further, hStore, rfl, rfl⟩
  | discard further => exact ⟨tiers, .completed _ further, hStore, rfl, rfl⟩
  | branch prunedPositive prunedNegative paired further =>
      rw [deliver, deliver]
      split
      next => exact collapses_enter hStore calls history prunedPositive paired further
      next => exact collapses_enter hStore calls history prunedNegative paired further
  | test condition pruned paired further =>
      rw [deliver, deliver]
      split
      next =>
        exact collapses_enter hStore calls history pruned paired (.again condition pruned paired further)
      next => exact ⟨tiers, .completed _ further, hStore, rfl, rfl⟩

/-- A failure gives up the scopes for arguments that it passes. -/
theorem collapses_abandon (failure : Failure Name) {next next' : AfterValue}
    (hNext : next.Collapses tiers next') :
    ∃ later, State.Collapses later (abandon failure next store calls history)
      (InPlace.step ⟨.value (.error failure) next', store', calls, history⟩) := by
  cases hNext with
  | rightOperand _ _ _ further | operator _ _ further =>
      exact ⟨tiers, .value _ further, hStore, rfl, rfl⟩
  | argument _ _ _ inner image further =>
      exact ⟨_, .value _ further, hStore.discard further.rooted, rfl, rfl⟩
  | declare _ _ further | assign _ _ further | discard further | branch _ _ _ further
  | test _ _ _ further => exact ⟨tiers, .completed _ further, hStore, rfl, rfl⟩
  | yield others others' scope image further =>
      have hEnds : (.error failure : Result Completion) ≠ .ok none := nofun
      exact ⟨tiers, .passes hEnds others others' scope image further, hStore, rfl, rfl⟩

/-- Where a block ends both machines give up its scope. -/
theorem collapses_resume (result : Result Completion) {next next' : AfterBlock}
    (hNext : next.Collapses tiers next') :
    ∃ later, State.Collapses later (resume result next store calls history)
      (resume result next' store' calls history) := by
  cases hNext with
  | halt => exact ⟨_, .completed result .halt, hStore, rfl, rfl⟩
  | sequence pruned paired further =>
      rcases result with failure | _ | value
      · exact ⟨tiers, .completed _ further, hStore, rfl, rfl⟩
      · exact ⟨tiers, .execute pruned paired further, hStore, rfl, rfl⟩
      · exact ⟨tiers, .completed _ further, hStore, rfl, rfl⟩
  | leave scope image further =>
      exact ⟨_, .completed result further, hStore.release further.rooted, rfl, rfl⟩
  | again condition pruned paired further =>
      rcases result with failure | _ | value
      · exact ⟨tiers, .completed _ further, hStore, rfl, rfl⟩
      · exact ⟨tiers, .evaluate condition paired.shows (.test condition pruned paired further), hStore,
          rfl, rfl⟩
      · exact ⟨tiers, .completed _ further, hStore, rfl, rfl⟩
  | finish activation image further =>
      exact ⟨_, .value _ further, hStore.release further.rooted, rfl, rfl⟩

end

/-- Both machines take a step. -/
theorem State.Collapses.step {tiers : Tiers} {first second : State} (h : first.Collapses tiers second) :
    ∃ later, State.Collapses later (Machine.step first) (InPlace.step second) := by
  obtain ⟨control, store, calls, history⟩ := first
  obtain ⟨control', store', calls', history'⟩ := second
  obtain ⟨hControl, hStore, rfl, rfl⟩ := h
  cases hControl with
  | evaluate expr shown further => exact collapses_evaluate hStore calls history expr shown further
  | apply same known pending inner image further =>
      cases pending with
      | nil =>
          exact collapses_call (hStore.discard further.rooted) calls history same known.reverse further
      | cons argument pending =>
          exact ⟨_, .evaluate argument (Or.inr List.mem_cons_self)
            (.argument same known pending inner image further), hStore, rfl, rfl⟩
  | value result further =>
      cases result with
      | ok value => exact collapses_deliver hStore calls history value further
      | error failure => exact collapses_abandon hStore calls history failure further
  | execute pruned paired further =>
      cases pruned with
      | nil => exact ⟨tiers, .completed _ further, hStore, rfl, rfl⟩
      | keep prunedStmt prunedOthers =>
          exact collapses_execute hStore calls history prunedStmt prunedOthers paired further
  | completed result further => exact collapses_resume hStore calls history result further
  | @passes _ result ends others others' scope image next next' further =>
      rcases result with failure | _ | value
      · exact ⟨tiers, .completed _ further, hStore, rfl, rfl⟩
      · exact absurd rfl ends
      · exact ⟨tiers, .completed _ further, hStore, rfl, rfl⟩

/-- Both machines take a number of steps. -/
theorem State.Collapses.after {tiers : Tiers} {first second : State} (h : first.Collapses tiers second)
    (steps : Nat) :
    ∃ later, State.Collapses later (Machine.after steps first) (InPlace.after steps second) := by
  induction steps generalizing tiers first second with
  | zero => exact ⟨tiers, h⟩
  | succ steps ih =>
      obtain ⟨later, hStep⟩ := h.step
      exact ih hStep

/-- The two come to rest together, and with the same result. -/
theorem State.Collapses.result? {tiers : Tiers} {first second : State}
    (h : first.Collapses tiers second) : first.result? = second.result? := by
  obtain ⟨control, store, calls, history⟩ := first
  obtain ⟨control', store', calls', history'⟩ := second
  cases h.control with
  | evaluate | apply | value | execute | passes => rfl
  | completed result further => cases further <;> rfl

/-- Both come to rest, with the same result, or neither does. -/
theorem State.Collapses.run {tiers : Tiers} {first second : State} (h : first.Collapses tiers second)
    (steps : Nat) :
    Option.Rel (fun state state' => ∃ later, State.Collapses later state state')
      (Machine.run steps first) (InPlace.run steps second) := by
  induction steps generalizing tiers first second with
  | zero =>
      rw [Machine.run, InPlace.run, h.result?]
      split
      next => exact .some ⟨tiers, h⟩
      next => exact .none
  | succ steps ih =>
      rw [Machine.run, InPlace.run, h.result?]
      split
      next => exact .some ⟨tiers, h⟩
      next =>
        obtain ⟨later, hStep⟩ := h.step
        exact ih hStep

end Machine

end IntScript
