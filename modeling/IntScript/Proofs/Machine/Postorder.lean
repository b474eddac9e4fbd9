import IntScript.Proofs.Machine.Framing
import IntScript.Proofs.Scope.LexicalLookup

/-! Where every call in an expression is one of a builtin, the expression is evaluated node by node, each
node after its operands or arguments and these from left to right. Evaluation ends with the last node or
with the first one that fails. -/
namespace IntScript

namespace Expr

mutual

/-- The nodes of an expression, each after those below it, which come from left to right. -/
def postorder : Expr → List Expr
  | literal value => [literal value]
  | reference name => [reference name]
  | call callee arguments => argumentPostorder arguments ++ [call callee arguments]
  | binary op left right => postorder left ++ (postorder right ++ [binary op left right])

def argumentPostorder : List Expr → List Expr
  | [] => []
  | argument :: arguments => postorder argument ++ argumentPostorder arguments

end

def isCall : Expr → Bool
  | call _ _ => true
  | literal _ | reference _ | binary _ _ _ => false

end Expr

namespace Store

/-- The same scopes are alive, with all that belongs to them. -/
def Alike (store later : Store) : Prop :=
  ∀ id, later.scope? id = store.scope? id

theorem Alike.refl (store : Store) : store.Alike store :=
  fun _ => rfl

theorem Alike.trans {store middle later : Store} (h : store.Alike middle) (further : middle.Alike later) :
    store.Alike later :=
  fun id => (further id).trans (h id)

/-- A look-up sees live scopes only. -/
theorem Alike.lookup? {α : Type} {store later : Store} (h : store.Alike later)
    (table : Scope → Table α) (id : ScopeId) (name : Name) :
    later.lookup? table id name = store.lookup? table id name :=
  lookup?_congr name (fun other _ => by rw [h other])

theorem isHeld_iff {store : Store} {id : ScopeId} :
    store.isHeld id = true ↔ ∃ scope, store.scope? id = some scope ∧ 0 < scope.handles := by
  rw [isHeld, Option.any_eq_true]
  simp only [decide_eq_true_eq]

theorem Alike.isHeld {store later : Store} (h : store.Alike later) (id : ScopeId) :
    later.isHeld id = store.isHeld id := by
  rw [Store.isHeld, h id, Store.isHeld]

/-- A look-up from a new child ends where one from its parent does. -/
theorem lookup?_child {α : Type} {store : Store} {scope : ScopeId} (hHeld : store.isHeld scope = true)
    {table : Scope → Table α} (hFresh : ∀ parent, table (Scope.fresh parent) = [])
    (hTable : ∀ inner count, table { inner with children := count } = table inner) (name : Name) :
    (store.child scope).2.lookup? table store.slots.size name = store.lookup? table scope name := by
  obtain ⟨outer, hOuter, -⟩ := isHeld_iff.mp hHeld
  have hYounger := lt_size_of_scope hOuter
  rw [lookup?_eq, scope?_child_new, Option.bind_some, hFresh]
  have hParent : (Scope.fresh (some scope)).parent = some scope := rfl
  rw [hParent, Option.bind_some, if_pos hYounger]
  refine (Option.none_or).trans (lookup?_congr name (fun other hOther => ?_))
  rw [scope?_child, if_neg (Nat.ne_of_lt (Nat.lt_of_le_of_lt hOther hYounger))]
  split
  next hSame =>
    subst hSame
    rw [Option.map_map]
    refine congrArg (Option.map · _) (funext fun inner => ?_)
    exact congrArg (·, inner.parent) (hTable inner _)
  next => rfl

/-- A new child that is given up again, after work that changed nothing, leaves no trace. -/
theorem alike_release_child {store later : Store} {scope : ScopeId} (hHeld : store.isHeld scope = true)
    (h : (store.child scope).2.Alike later) : store.Alike (later.release store.slots.size) := by
  obtain ⟨outer, hOuter, hHandles⟩ := isHeld_iff.mp hHeld
  have hYounger := lt_size_of_scope hOuter
  have hInner : later.scope? store.slots.size = some (Scope.fresh (some scope)) :=
    (h _).trans (store.scope?_child_new scope)
  have hCounted : later.scope? scope = some { outer with children := outer.children + 1 } := by
    rw [h scope, scope?_child, if_neg (Nat.ne_of_lt hYounger), if_pos rfl, hOuter, Option.map_some]
  intro id
  rw [scope?_release hInner rfl rfl rfl hYounger hCounted hHandles]
  split
  next hNew =>
    rw [hNew]
    cases hNone : store.scope? store.slots.size with
    | none => rfl
    | some scope => exact absurd (lt_size_of_scope hNone) (Nat.lt_irrefl _)
  next hOld =>
    split
    next hSame =>
      rw [hSame, hOuter]
      rfl
    next hOther => rw [h id, scope?_child, if_neg hOld, if_neg hOther]

end Store

namespace Machine

abbrev Progress := List Int32 × History

section

variable (integers : Name → Except ScopeError Int32) (functions : Name → Except ScopeError Callable)

/-- One node is done. An operation takes its two operands and a call its arguments from the values that
wait, and the value of the node waits in their stead. -/
inductive Visit : Expr → Progress → Progress → Prop where
  | literal (value : Int32) (values : List Int32) (history : History) :
      Visit (.literal value) (values, history) (value :: values, history)
  | reference {name : Name} {value : Int32} (found : integers name = .ok value) (values : List Int32)
      (history : History) : Visit (.reference name) (values, history) (value :: values, history)
  | binary {op : BinaryOp} {first second value : Int32} (left right : Expr)
      (computed : (op.evaluate first second : Except (Fault Name) Int32) = .ok value) (values : List Int32)
      (history : History) :
      Visit (.binary op left right) (second :: first :: values, history) (value :: values, history)
  | call {callee : Name} {arguments : List Expr} {builtin : Builtin} {given : List Int32}
      (found : functions callee = .ok (.builtin builtin)) (all : given.length = arguments.length)
      (values : List Int32) (history : History) :
      Visit (.call callee arguments) (given.reverse ++ values, history)
        (builtin.answer history given :: values, builtin.record given :: history)

inductive Visits : List Expr → Progress → Progress → Prop where
  | nil (progress : Progress) : Visits [] progress progress
  | cons {node : Expr} {nodes : List Expr} {first second third : Progress}
      (visit : Visit integers functions node first second) (others : Visits nodes second third) :
      Visits (node :: nodes) first third

/-- The node cannot be done: its variable is not defined, or its operator does not take its operands. -/
inductive Refuses : Expr → List Int32 → Fault Name → Prop where
  | reference {name : Name} {error : ScopeError} (missing : integers name = .error error)
      (values : List Int32) : Refuses (.reference name) values error.fault
  | binary {op : BinaryOp} {first second : Int32} {fault : Fault Name} (left right : Expr)
      (refused : op.evaluate first second = .error fault) (values : List Int32) :
      Refuses (.binary op left right) (second :: first :: values) fault

/-- The nodes are done up to one that cannot be. -/
inductive Breaks (nodes : List Expr) (progress : Progress) : Fault Name → History → Prop where
  | intro {visited others : List Expr} {node : Expr} {values : List Int32} {fault : Fault Name}
      {history : History} (split : nodes = visited ++ node :: others)
      (before : Visits integers functions visited progress (values, history))
      (refuses : Refuses integers node values fault) : Breaks nodes progress fault history

end

section

variable {integers : Name → Except ScopeError Int32} {functions : Name → Except ScopeError Callable}
  {nodes others : List Expr} {first second third : Progress} {fault : Fault Name} {history : History}

theorem Visits.append (h : Visits integers functions nodes first second)
    (further : Visits integers functions others second third) :
    Visits integers functions (nodes ++ others) first third := by
  induction h with
  | nil _ => exact further
  | cons visit _ ih => exact .cons visit (ih further)

/-- Nodes behind one that cannot be done do not matter. -/
theorem Breaks.append (h : Breaks integers functions nodes first fault history) (others : List Expr) :
    Breaks integers functions (nodes ++ others) first fault history := by
  obtain ⟨rfl, hBefore, hRefuses⟩ := h
  exact .intro (List.append_assoc _ _ _) hBefore hRefuses

/-- Nodes that are done in front only add to the history. -/
theorem Visits.breaks (h : Visits integers functions nodes first second)
    (further : Breaks integers functions others second fault history) :
    Breaks integers functions (nodes ++ others) first fault history := by
  obtain ⟨rfl, hBefore, hRefuses⟩ := further
  exact .intro (List.append_assoc _ _ _).symm (h.append hBefore) hRefuses

end

/-- If a result is at hand, what waits for it is larger than the bound. -/
def Control.exceeds (bound : Nat) : Control → Prop
  | value _ next => bound < sizeOf next
  | completed _ next => bound < sizeOf next
  | evaluate _ _ _ | apply _ _ _ _ _ | execute _ _ _ => True

/-- The run comes from the first state to the second, and before that no result is handed to anything that
is not larger than the bound. -/
inductive Within (bound : Nat) : State → State → Prop where
  | here (state : State) : Within bound state state
  | step {state later : State} (exceeds : state.control.exceeds bound)
      (further : Within bound (step state) later) : Within bound state later

section

variable {bound : Nat} {state middle later : State}

theorem Within.trans (h : Within bound state middle) (further : Within bound middle later) :
    Within bound state later := by
  induction h with
  | here _ => exact further
  | step exceeds _ ih => exact .step exceeds (ih further)

/-- A run that avoids more results avoids fewer. -/
theorem Within.mono {smaller : Nat} (h : Within bound state later) (hBound : smaller ≤ bound) :
    Within smaller state later := by
  induction h with
  | here state => exact .here state
  | @step state later exceeds _ ih =>
      refine .step ?_ ih
      obtain ⟨control, store, calls, history⟩ := state
      cases control with
      | value | completed => exact Nat.lt_of_le_of_lt hBound exceeds
      | evaluate | apply | execute => trivial

/-- One step, from a state in which no result is at hand for the work below. -/
theorem Within.single (hExceeds : state.control.exceeds bound) (hStep : Machine.step state = later) :
    Within bound state later := by
  subst hStep
  exact .step hExceeds (.here _)

/-- What is not larger than the bound gets no result on the way. -/
theorem Within.during {next : AfterValue} (h : Within (sizeOf next) state later) :
    During (.value next) state later := by
  induction h with
  | here state => exact .here state
  | @step state later exceeds _ ih =>
      refine .step (fun hHands => ?_) ih
      obtain ⟨control, store, calls, history⟩ := state
      cases control with
      | value => cases hHands; exact Nat.lt_irrefl _ exceeds
      | completed | evaluate | apply | execute => cases hHands

end

section

variable (op : BinaryOp) (right : Expr) (scope : ScopeId) (left : Int32) (callee : Callable)
  (known : List Int32) (pending : List Expr) (next : AfterValue)

/-- Work that waits is larger than what it leads to, and that is how an inner result is told from
the last one. -/
theorem sizeOf_lt_rightOperand : sizeOf next < sizeOf (AfterValue.rightOperand op right scope next) := by
  rw [AfterValue.rightOperand.sizeOf_spec]
  omega

theorem sizeOf_lt_operator : sizeOf next < sizeOf (AfterValue.operator op left next) := by
  rw [AfterValue.operator.sizeOf_spec]
  omega

theorem sizeOf_lt_argument :
    sizeOf next < sizeOf (AfterValue.argument callee known pending scope next) := by
  rw [AfterValue.argument.sizeOf_spec]
  omega

end

section

variable {integers : Name → Except ScopeError Int32} {functions : Name → Except ScopeError Callable}

/-- Every callee among the nodes is a builtin. -/
def Hosted (functions : Name → Except ScopeError Callable) (nodes : List Expr) : Prop :=
  ∀ callee arguments, .call callee arguments ∈ nodes →
    ∃ builtin, functions callee = .ok (.builtin builtin)

/-- The scope is held, and look-ups from it find these variables and functions. -/
structure Sees (integers : Name → Except ScopeError Int32)
    (functions : Name → Except ScopeError Callable) (store : Store) (scope : ScopeId) : Prop where
  held : store.isHeld scope = true
  integers : ∀ name, store.getVariable scope name = integers name
  functions : ∀ name, store.getFunction scope name = functions name

theorem Hosted.mono {nodes others : List Expr} (h : Hosted functions nodes)
    (hOthers : others ⊆ nodes) : Hosted functions others :=
  fun callee arguments hMem => h callee arguments (hOthers hMem)

/-- What look-ups find depends on the live scopes alone. -/
theorem Sees.alike {store later : Store} {scope : ScopeId} (h : Sees integers functions store scope)
    (hAlike : store.Alike later) : Sees integers functions later scope := by
  constructor
  · rw [hAlike.isHeld, h.held]
  · intro name
    rw [Store.getVariable_eq, hAlike.lookup?, ← Store.getVariable_eq, h.integers]
  · intro name
    rw [Store.getFunction_eq, hAlike.lookup?, ← Store.getFunction_eq, h.functions]

/-- The scope for arguments binds nothing, so the same is seen through it. -/
theorem Sees.child {store : Store} {scope : ScopeId} (h : Sees integers functions store scope) :
    Sees integers functions (store.child scope).2 store.slots.size := by
  constructor
  · exact Store.isHeld_iff.mpr ⟨_, store.scope?_child_new scope, Nat.one_pos⟩
  · intro name
    rw [Store.getVariable_eq, Store.lookup?_child h.held (fun _ => rfl) (fun _ _ => rfl),
      ← Store.getVariable_eq, h.integers]
  · intro name
    rw [Store.getFunction_eq, Store.lookup?_child h.held (fun _ => rfl) (fun _ _ => rfl),
      ← Store.getFunction_eq, h.functions]

/-- How the evaluation of nodes ends: they are done and one value more waits than before, or they are done
up to one that cannot be. -/
inductive Ends (integers : Name → Except ScopeError Int32) (functions : Name → Except ScopeError Callable)
    (calls : CallStack) (nodes : List Expr) (progress : Progress) (values : List Int32) :
    Result Int32 → History → Prop where
  | value {value : Int32} {history : History}
      (visits : Visits integers functions nodes progress (value :: values, history)) :
      Ends integers functions calls nodes progress values (.ok value) history
  | failure {fault : Fault Name} {history : History}
      (breaks : Breaks integers functions nodes progress fault history) :
      Ends integers functions calls nodes progress values (.error (calls.failure fault)) history

/-- An ending in the later nodes is one of the whole, for those in front are done. -/
theorem Visits.ends {nodes others : List Expr} {first second : Progress} {calls : CallStack}
    {values : List Int32} {result : Result Int32} {history : History}
    (h : Visits integers functions nodes first second)
    (further : Ends integers functions calls others second values result history) :
    Ends integers functions calls (nodes ++ others) first values result history := by
  cases further with
  | value visits => exact .value (h.append visits)
  | failure breaks => exact .failure (h.breaks breaks)

/-- Both operands are there, and the operation itself is left. -/
theorem ends_operator (op : BinaryOp) (left right : Expr) (first second : Int32) (next : AfterValue)
    (store : Store) (calls : CallStack) (values : List Int32) (history : History) :
    ∃ result,
      Within (sizeOf next) ⟨.value (.ok second) (.operator op first next), store, calls, history⟩
        ⟨.value result next, store, calls, history⟩ ∧
      Ends integers functions calls [.binary op left right] (second :: first :: values, history) values
        result history := by
  have hExceeds := sizeOf_lt_operator op first next
  have hStep : step ⟨.value (.ok second) (.operator op first next), store, calls, history⟩ =
      deliver second (.operator op first next) store calls history := rfl
  cases hComputed : (op.evaluate first second : Except (Fault Name) Int32) with
  | ok value =>
      refine ⟨.ok value, .single hExceeds ?_, .value (.cons (.binary left right hComputed _ _) (.nil _))⟩
      rw [hStep, deliver, hComputed]
  | error fault =>
      refine ⟨.error (calls.failure fault), .single hExceeds ?_,
        .failure (.intro (List.nil_append _).symm (.nil _) (.binary left right hComputed _))⟩
      rw [hStep, deliver, hComputed]

mutual

/-- An expression in a scope that is held is evaluated node by node, and scopes are as before. -/
theorem ends_evaluate (expr : Expr) (hHosted : Hosted functions expr.postorder) {store : Store}
    {scope : ScopeId} (hSees : Sees integers functions store scope) (next : AfterValue)
    (calls : CallStack) (values : List Int32) (history : History) :
    ∃ result later after, store.Alike later ∧
      Within (sizeOf next) ⟨.evaluate expr scope next, store, calls, history⟩
        ⟨.value result next, later, calls, after⟩ ∧
      Ends integers functions calls expr.postorder (values, history) values result after := by
  match expr with
  | .literal value =>
      exact ⟨.ok value, store, history, .refl store, .step trivial (.here _),
        .value (.cons (.literal value values history) (.nil _))⟩
  | .reference name =>
      cases hRead : integers name with
      | ok value =>
          refine ⟨.ok value, store, history, .refl store, .single trivial ?_,
            .value (.cons (.reference hRead values history) (.nil _))⟩
          change evaluate (.reference name) scope next store calls history = _
          rw [evaluate, hSees.integers, hRead]
      | error error =>
          refine ⟨.error (calls.failure error.fault), store, history, .refl store, .single trivial ?_,
            .failure (.intro (List.nil_append _).symm (.nil _) (.reference hRead values))⟩
          change evaluate (.reference name) scope next store calls history = _
          rw [evaluate, hSees.integers, hRead]
  | .binary op left right =>
      have hLeft := hHosted.mono (List.subset_append_left _ _)
      have hRight := (hHosted.mono (List.subset_append_right _ _)).mono (List.subset_append_left _ _)
      obtain ⟨first, middle, made, hMiddle, hFirst, hFirstEnds⟩ :=
        ends_evaluate left hLeft hSees (.rightOperand op right scope next) calls values history
      have hLarger := sizeOf_lt_rightOperand op right scope next
      have hBegins : Within (sizeOf next)
          ⟨.evaluate (.binary op left right) scope next, store, calls, history⟩
          ⟨.value first (.rightOperand op right scope next), middle, calls, made⟩ :=
        .step trivial (hFirst.mono (Nat.le_of_lt hLarger))
      cases hFirstEnds with
      | failure breaks =>
          exact ⟨_, middle, made, hMiddle, hBegins.trans (.single hLarger rfl), .failure (breaks.append _)⟩
      | @value leftValue _ visits =>
          obtain ⟨second, later, after, hLater, hSecond, hSecondEnds⟩ := ends_evaluate right hRight
            (hSees.alike hMiddle) (.operator op leftValue next) calls (leftValue :: values) made
          have hLast := sizeOf_lt_operator op leftValue next
          have hGoesOn := hBegins.trans (.step hLarger (hSecond.mono (Nat.le_of_lt hLast)))
          have hAlike := hMiddle.trans hLater
          cases hSecondEnds with
          | failure breaks =>
              exact ⟨_, later, after, hAlike, hGoesOn.trans (.single hLast rfl),
                .failure (visits.breaks (breaks.append _))⟩
          | @value rightValue _ further =>
              obtain ⟨result, hDone, hEnds⟩ :=
                ends_operator op left right leftValue rightValue next later calls values after
              exact ⟨result, later, after, hAlike, hGoesOn.trans hDone, visits.ends (further.ends hEnds)⟩
  | .call callee arguments =>
      obtain ⟨builtin, hBuiltin⟩ :=
        hHosted callee arguments (List.mem_append_right _ (List.mem_singleton.mpr rfl))
      have hStep : step ⟨.evaluate (.call callee arguments) scope next, store, calls, history⟩ =
          ⟨.apply (.builtin builtin) [] arguments store.slots.size next, (store.child scope).2, calls,
            history⟩ := by
        change evaluate (.call callee arguments) scope next store calls history = _
        rw [evaluate, hSees.functions, hBuiltin]
        simp only [Store.child_fst]
      have hArguments := hHosted.mono (List.subset_append_left _ _)
      obtain ⟨later, after, hLater, hDone⟩ :=
        ends_arguments arguments hArguments hSees.child (.builtin builtin) [] next calls values history
      have hAlike := Store.alike_release_child hSees.held hLater
      rcases hDone with ⟨given, hAll, hWithin, hVisits⟩ | ⟨fault, hWithin, hBreaks⟩
      · have hCalled : call (.builtin builtin) (given.reverse ++ []).reverse next
            (later.release store.slots.size) calls after =
            ⟨.value (.ok (builtin.answer after given)) next, later.release store.slots.size, calls,
              builtin.record given :: after⟩ := by
          rw [List.append_nil, List.reverse_reverse, call]
        exact ⟨_, _, _, hAlike, .step trivial (hStep ▸ hWithin.trans (.single trivial hCalled)),
          .value (hVisits.append (.cons (.call hBuiltin hAll values after) (.nil _)))⟩
      · exact ⟨_, _, after, hAlike, .step trivial (hStep ▸ hWithin), .failure (hBreaks.append _)⟩

/-- Arguments are evaluated one after the other, in the scope made for them. If one fails, that scope is
given up and the call is not made. -/
theorem ends_arguments (arguments : List Expr)
    (hHosted : Hosted functions (Expr.argumentPostorder arguments)) {store : Store} {inner : ScopeId}
    (hSees : Sees integers functions store inner) (callee : Callable) (known : List Int32)
    (next : AfterValue) (calls : CallStack) (values : List Int32) (history : History) :
    ∃ later after, store.Alike later ∧
      ((∃ given : List Int32, given.length = arguments.length ∧
        Within (sizeOf next) ⟨.apply callee known arguments inner next, store, calls, history⟩
          ⟨.apply callee (given.reverse ++ known) [] inner next, later, calls, after⟩ ∧
        Visits integers functions (Expr.argumentPostorder arguments) (values, history)
          (given.reverse ++ values, after)) ∨
      ∃ fault, Within (sizeOf next) ⟨.apply callee known arguments inner next, store, calls, history⟩
          ⟨.value (.error (calls.failure fault)) next, later.release inner, calls, after⟩ ∧
        Breaks integers functions (Expr.argumentPostorder arguments) (values, history) fault after) := by
  match arguments with
  | [] =>
      exact ⟨store, history, .refl store, Or.inl ⟨[], rfl, .here _, .nil _⟩⟩
  | argument :: arguments =>
      have hThis := hHosted.mono (List.subset_append_left _ _)
      have hOthers := hHosted.mono (List.subset_append_right _ _)
      obtain ⟨result, middle, made, hMiddle, hFirst, hEnds⟩ := ends_evaluate argument hThis hSees
        (.argument callee known arguments inner next) calls values history
      have hLarger := sizeOf_lt_argument inner callee known arguments next
      have hBegins : Within (sizeOf next)
          ⟨.apply callee known (argument :: arguments) inner next, store, calls, history⟩
          ⟨.value result (.argument callee known arguments inner next), middle, calls, made⟩ :=
        .step trivial (hFirst.mono (Nat.le_of_lt hLarger))
      cases hEnds with
      | @failure fault _ breaks =>
          exact ⟨middle, made, hMiddle,
            Or.inr ⟨fault, hBegins.trans (.single hLarger rfl), breaks.append _⟩⟩
      | @value value _ visits =>
          obtain ⟨later, after, hLater, hDone⟩ := ends_arguments arguments hOthers
            (hSees.alike hMiddle) callee (value :: known) next calls (value :: values) made
          refine ⟨later, after, hMiddle.trans hLater, ?_⟩
          rcases hDone with ⟨given, hAll, hWithin, hVisits⟩ | ⟨fault, hWithin, hBreaks⟩
          · have hGiven (row : List Int32) :
                (value :: given).reverse ++ row = given.reverse ++ value :: row := by
              rw [List.reverse_cons, List.append_assoc, List.singleton_append]
            refine Or.inl ⟨value :: given, congrArg (· + 1) hAll, ?_, ?_⟩
            · rw [hGiven]
              exact hBegins.trans (.step hLarger hWithin)
            · rw [hGiven]
              exact visits.append hVisits
          · exact Or.inr ⟨fault, hBegins.trans (.step hLarger hWithin), visits.breaks hBreaks⟩

end

/-- The call of a builtin that a node stands for, with as many arguments as the node has. -/
inductive Records (functions : Name → Except ScopeError Callable) : Expr → HostCall → Prop where
  | call {callee : Name} {arguments : List Expr} {builtin : Builtin} {given : List Int32}
      (found : functions callee = .ok (.builtin builtin)) (all : given.length = arguments.length) :
      Records functions (.call callee arguments) (builtin.record given)

/-- Each call among the nodes that are done is made once, in the order of the nodes. -/
theorem Visits.exists_made {nodes : List Expr} {first second : Progress}
    (h : Visits integers functions nodes first second) :
    ∃ made, second.2 = made.reverse ++ first.2 ∧
      List.Forall₂ (Records functions) (nodes.filter Expr.isCall) made := by
  induction h with
  | nil progress => exact ⟨[], rfl, .nil⟩
  | cons visit _ ih =>
      obtain ⟨made, hHistory, hMade⟩ := ih
      cases visit with
      | literal | reference | binary => exact ⟨made, hHistory, hMade⟩
      | @call callee arguments builtin given found all values history =>
          refine ⟨builtin.record given :: made, ?_, .cons (.call found all) hMade⟩
          rw [hHistory, List.reverse_cons, List.append_assoc]
          rfl

end

/-- Where every callee in an expression is a builtin, evaluation does the nodes in their order, left to
right and operands first, and calls a builtin once for each call among them, with the values of the
arguments. It does all nodes, none of which an operator can skip, and hands over the value of the last; or
it stops at the first one that cannot be done, and the failure is that of this node. -/
theorem evaluate_postorder {store : Store} {scope : ScopeId} (hHeld : store.isHeld scope = true)
    {expr : Expr} (hHosted : ∀ callee arguments, .call callee arguments ∈ expr.postorder →
      ∃ builtin, store.getFunction scope callee = .ok (.builtin builtin)) (next : AfterValue)
    (calls : CallStack) (history : History) :
    ∃ visited values made later,
      During (.value next) ⟨.evaluate expr scope next, store, calls, history⟩ later ∧
      store.Alike later.store ∧
      Visits (store.getVariable scope) (store.getFunction scope) visited ([], history)
        (values, later.history) ∧
      later.history = made.reverse ++ history ∧
      List.Forall₂ (Records (store.getFunction scope)) (visited.filter Expr.isCall) made ∧
      ((∃ value, visited = expr.postorder ∧ values = [value] ∧
          later.control = .value (.ok value) next) ∨
        ∃ node others fault, expr.postorder = visited ++ node :: others ∧
          Refuses (store.getVariable scope) node values fault ∧
          later.control = .value (.error (calls.failure fault)) next) := by
  have hSees : Sees (store.getVariable scope) (store.getFunction scope) store scope :=
    ⟨hHeld, fun _ => rfl, fun _ => rfl⟩
  obtain ⟨result, later, after, hAlike, hWithin, hEnds⟩ :=
    ends_evaluate expr hHosted hSees next calls [] history
  cases hEnds with
  | @value value _ visits =>
      obtain ⟨made, hHistory, hMade⟩ := visits.exists_made
      exact ⟨_, _, made, _, hWithin.during, hAlike, visits, hHistory, hMade, Or.inl ⟨value, rfl, rfl, rfl⟩⟩
  | failure breaks =>
      obtain ⟨hSplit, hBefore, hRefuses⟩ := breaks
      obtain ⟨made, hHistory, hMade⟩ := hBefore.exists_made
      exact ⟨_, _, made, _, hWithin.during, hAlike, hBefore, hHistory, hMade,
        Or.inr ⟨_, _, _, hSplit, hRefuses, rfl⟩⟩

/-- The left operand of the conjunction is zero. The right one is evaluated all the same, and there a
division by zero follows another call. -/
theorem evaluate_postorder_conjunction :
    let print : Name := ⟨8⟩
    let store := ((Store.empty.root).2.declareFunction 0 print (.builtin Builtin.println)).2
    let expr : Expr :=
      .binary .and (.call print [.literal 7])
        (.binary .div (.call print [.literal 1, .call print []]) (.literal 0))
    let scope : ScopeId := 0
    let next : AfterValue := .discard .halt
    let calls := CallStack.usual
    let history : History := []
    store.isHeld scope = true ∧
    (∀ callee arguments, .call callee arguments ∈ expr.postorder →
      ∃ builtin, store.getFunction scope callee = .ok (.builtin builtin)) ∧
    ∃ visited values made later,
      During (.value next) ⟨.evaluate expr scope next, store, calls, history⟩ later ∧
      store.Alike later.store ∧
      Visits (store.getVariable scope) (store.getFunction scope) visited ([], history)
        (values, later.history) ∧
      later.history = made.reverse ++ history ∧
      List.Forall₂ (Records (store.getFunction scope)) (visited.filter Expr.isCall) made ∧
      ((∃ value, visited = expr.postorder ∧ values = [value] ∧
          later.control = .value (.ok value) next) ∨
        ∃ node others fault, expr.postorder = visited ++ node :: others ∧
          Refuses (store.getVariable scope) node values fault ∧
          later.control = .value (.error (calls.failure fault)) next) := by
  have hHeld : Store.isHeld
      ((Store.empty.root).2.declareFunction 0 ⟨8⟩ (.builtin Builtin.println)).2 0 = true := by
    decide
  have hHosted (callee : Name) (arguments : List Expr)
      (hMem : .call callee arguments ∈ Expr.postorder
        (.binary .and (.call ⟨8⟩ [.literal 7])
          (.binary .div (.call ⟨8⟩ [.literal 1, .call ⟨8⟩ []]) (.literal 0)))) :
      ∃ builtin, ((Store.empty.root).2.declareFunction 0 ⟨8⟩ (.builtin Builtin.println)).2.getFunction 0
        callee = .ok (.builtin builtin) := by
    simp only [Expr.postorder, Expr.argumentPostorder, List.cons_append, List.nil_append, List.mem_cons,
      List.not_mem_nil, or_false, reduceCtorEq, false_or, Expr.call.injEq] at hMem
    refine ⟨Builtin.println, ?_⟩
    rw [Store.getFunction_eq, Store.lookup?_eq]
    rcases hMem with ⟨rfl, -⟩ | ⟨rfl, -⟩ | ⟨rfl, -⟩ <;> rfl
  exact ⟨hHeld, hHosted, evaluate_postorder hHeld hHosted (.discard .halt) CallStack.usual []⟩

end Machine

end IntScript
