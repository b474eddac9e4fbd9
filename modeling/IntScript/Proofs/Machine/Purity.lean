import IntScript.Proofs.Machine.Postorder
import IntScript.Proofs.Nesting

/-! Expressions that call nothing. What such an expression comes to is decided by what its variables stand
for, and evaluating it changes nothing. -/
namespace IntScript

namespace Expr

def CallFree (expr : Expr) : Prop :=
  ∀ callee, .function callee ∉ expr.uses

/-- What an expression without calls comes to if its variables stand for these values, or for none. The left
operand comes first, so its fault hides those of the right one and of the operator. -/
inductive Denotes (meaning : Name → Option Int32) : Expr → Except (Fault Name) Int32 → Prop where
  | literal (value : Int32) : Denotes meaning (.literal value) (.ok value)
  | reference {name : Name} {value : Int32} (bound : meaning name = some value) :
      Denotes meaning (.reference name) (.ok value)
  | unbound {name : Name} (missing : meaning name = none) :
      Denotes meaning (.reference name) (.error (.undefinedVariable name))
  | left {left : Expr} {fault : Fault Name} (op : BinaryOp) (right : Expr)
      (failed : Denotes meaning left (.error fault)) : Denotes meaning (.binary op left right) (.error fault)
  | right {left right : Expr} {first : Int32} {fault : Fault Name} (op : BinaryOp)
      (before : Denotes meaning left (.ok first)) (failed : Denotes meaning right (.error fault)) :
      Denotes meaning (.binary op left right) (.error fault)
  | binary {left right : Expr} {first second : Int32} (op : BinaryOp)
      (before : Denotes meaning left (.ok first)) (after : Denotes meaning right (.ok second)) :
      Denotes meaning (.binary op left right) (op.evaluate first second)

theorem CallFree.operands {op : BinaryOp} {left right : Expr} (h : (binary op left right).CallFree) :
    left.CallFree ∧ right.CallFree :=
  ⟨fun callee hMem => h callee (List.mem_append_left _ hMem),
    fun callee hMem => h callee (List.mem_append_right _ hMem)⟩

/-- An expression without calls always comes to something. -/
theorem CallFree.exists_denotes {expr : Expr} (h : expr.CallFree) (meaning : Name → Option Int32) :
    ∃ outcome, expr.Denotes meaning outcome := by
  match expr with
  | .literal value => exact ⟨_, .literal value⟩
  | .reference name =>
      cases hMeaning : meaning name with
      | none => exact ⟨_, .unbound hMeaning⟩
      | some value => exact ⟨_, .reference hMeaning⟩
  | .call callee arguments => exact absurd List.mem_cons_self (h callee)
  | .binary op left right =>
      obtain ⟨hLeft, hRight⟩ := h.operands
      obtain ⟨first, hFirst⟩ := hLeft.exists_denotes meaning
      obtain ⟨second, hSecond⟩ := hRight.exists_denotes meaning
      cases first with
      | error fault => exact ⟨_, .left op right hFirst⟩
      | ok first =>
          cases second with
          | error fault => exact ⟨_, .right op hFirst hSecond⟩
          | ok second => exact ⟨_, .binary op hFirst hSecond⟩

/-- Only the variables that occur in an expression matter to it. -/
theorem Denotes.congr {meaning other : Name → Option Int32} {expr : Expr}
    {outcome : Except (Fault Name) Int32} (h : expr.Denotes meaning outcome)
    (hSame : ∀ name, .integer name ∈ expr.uses → other name = meaning name) :
    expr.Denotes other outcome := by
  induction h with
  | literal value => exact .literal value
  | reference bound => exact .reference ((hSame _ (List.mem_singleton.mpr rfl)).trans bound)
  | unbound missing => exact .unbound ((hSame _ (List.mem_singleton.mpr rfl)).trans missing)
  | left op right failed ih =>
      exact .left op right (ih fun name hMem => hSame name (List.mem_append_left _ hMem))
  | right op before failed ihBefore ihFailed =>
      exact .right op (ihBefore fun name hMem => hSame name (List.mem_append_left _ hMem))
        (ihFailed fun name hMem => hSame name (List.mem_append_right _ hMem))
  | binary op before after ihBefore ihAfter =>
      exact .binary op (ihBefore fun name hMem => hSame name (List.mem_append_left _ hMem))
        (ihAfter fun name hMem => hSame name (List.mem_append_right _ hMem))

end Expr

/-- A look-up passes a scope that does not declare the name. -/
theorem Store.Older.lookup?_of_undeclared {store : Store} (h : store.Older) {inner parent : ScopeId}
    {child : Scope} (hChild : store.scope? inner = some child) (hParent : child.parent = some parent)
    {name : Name} (hUndeclared : child.integers.has name = false) :
    store.lookup? Scope.integers inner name = store.lookup? Scope.integers parent name := by
  rw [Table.has_eq_isSome, Option.isSome_eq_false_iff, Option.isNone_iff_eq_none] at hUndeclared
  rw [h.lookup?_eq, hChild, Option.bind_some, hUndeclared, Option.none_or, hParent, Option.bind_some]

namespace Machine

variable {store : Store} {scope : ScopeId} {expr : Expr} {outcome : Except (Fault Name) Int32}

/-- The operator itself takes one step, and its fault is given the backtrace of that moment. -/
theorem within_operator (op : BinaryOp) (first second : Int32) (next : AfterValue) (store : Store)
    (calls : CallStack) (history : History) :
    Within (sizeOf next) ⟨.value (.ok second) (.operator op first next), store, calls, history⟩
      ⟨.value ((op.evaluate first second).mapError calls.failure) next, store, calls, history⟩ := by
  refine .single (sizeOf_lt_operator op first next) ?_
  change deliver second (.operator op first next) store calls history = _
  rw [deliver]
  cases (op.evaluate first second : Except (Fault Name) Int32) <;> rfl

/-- The machine finds what the expression comes to, and meanwhile changes nothing. -/
theorem within_of_denotes (h : expr.Denotes (store.lookup? Scope.integers scope) outcome) (next : AfterValue)
    (calls : CallStack) (history : History) :
    Within (sizeOf next) ⟨.evaluate expr scope next, store, calls, history⟩
      ⟨.value (outcome.mapError calls.failure) next, store, calls, history⟩ := by
  induction h generalizing next with
  | literal value => exact .single trivial rfl
  | @reference name value bound =>
      refine .single trivial ?_
      change evaluate (.reference name) scope next store calls history = _
      rw [evaluate, Store.getVariable_eq, bound]
      rfl
  | @unbound name missing =>
      refine .single trivial ?_
      change evaluate (.reference name) scope next store calls history = _
      rw [evaluate, Store.getVariable_eq, missing]
      rfl
  | left op right failed ih =>
      have hLarger := sizeOf_lt_rightOperand op right scope next
      exact .step trivial (((ih _).mono (Nat.le_of_lt hLarger)).trans (.single hLarger rfl))
  | @right left right first fault op before failed ihBefore ihFailed =>
      have hLarger := sizeOf_lt_rightOperand op right scope next
      have hLast := sizeOf_lt_operator op first next
      have hLeft := (ihBefore (.rightOperand op right scope next)).mono (Nat.le_of_lt hLarger)
      have hRight := (ihFailed (.operator op first next)).mono (Nat.le_of_lt hLast)
      exact .step trivial (hLeft.trans (.step hLarger (hRight.trans (.single hLast rfl))))
  | @binary left right first second op before after ihBefore ihAfter =>
      have hLarger := sizeOf_lt_rightOperand op right scope next
      have hLast := sizeOf_lt_operator op first next
      have hLeft := (ihBefore (.rightOperand op right scope next)).mono (Nat.le_of_lt hLarger)
      have hRight := (ihAfter (.operator op first next)).mono (Nat.le_of_lt hLast)
      exact .step trivial (hLeft.trans (.step hLarger
        (hRight.trans (within_operator op first second next store calls history))))

/-- A result is handed on once, so there is one state in which that happens first. -/
theorem During.eq_of_handsTo {base : Pending} {state later other : State} (h : During base state later)
    (hHands : later.control.handsTo base) (hOther : During base state other)
    (hOtherHands : other.control.handsTo base) : later = other := by
  induction h with
  | here state =>
      cases hOther with
      | here => rfl
      | step waits => exact absurd hHands waits
  | step waits _ ih =>
      cases hOther with
      | here => exact absurd hOtherHands waits
      | step _ further => exact ih hHands further

/-- In this scope the expression comes to the outcome, whatever waits for it: it does come to an end, and
when its result is handed on, the scopes, the running functions and the calls of builtins are what they
were. A fault is reported with the functions that are running. -/
structure Settles (store : Store) (scope : ScopeId) (expr : Expr) (outcome : Except (Fault Name) Int32) :
    Prop where
  ends : ∀ next calls history, ∃ final,
    During (.value next) ⟨.evaluate expr scope next, store, calls, history⟩ final ∧
      final.control.handsTo (.value next)
  final_eq : ∀ next calls history final,
    During (.value next) ⟨.evaluate expr scope next, store, calls, history⟩ final →
      final.control.handsTo (.value next) →
        final = ⟨.value (outcome.mapError calls.failure) next, store, calls, history⟩

/-- By induction on the relation, so each way to a fault is a case of its own. -/
theorem settles_of_denotes (h : expr.Denotes (store.lookup? Scope.integers scope) outcome) :
    Settles store scope expr outcome := by
  have hDuring (next : AfterValue) (calls : CallStack) (history : History) :=
    (within_of_denotes h next calls history).during
  constructor
  · exact fun next calls history => ⟨_, hDuring next calls history, rfl⟩
  · intro next calls history final hFinal hHands
    exact hFinal.eq_of_handsTo hHands (hDuring next calls history) rfl

/-- Evaluating an expression without calls changes nothing, and what it comes to is decided by the nearest
declarations of its variables: it is the same from every scope of every store from which these variables
have the same values, or none. So it is the same if it is evaluated again at once, and the same from a
child of the scope that declares none of them. -/
theorem evaluate_callFree (hFree : expr.CallFree) (store : Store) (scope : ScopeId) :
    ∃ outcome, expr.Denotes (store.lookup? Scope.integers scope) outcome ∧
      Settles store scope expr outcome ∧
      (∀ other start, (∀ name, .integer name ∈ expr.uses →
          other.lookup? Scope.integers start name = store.lookup? Scope.integers scope name) →
        Settles other start expr outcome) ∧
      (∀ next calls history final,
        During (.value next) ⟨.evaluate expr scope next, store, calls, history⟩ final →
        final.control.handsTo (.value next) → Settles final.store scope expr outcome) ∧
      (store.Older → ∀ inner child, store.scope? inner = some child → child.parent = some scope →
        (∀ name, .integer name ∈ expr.uses → child.integers.has name = false) →
        Settles store inner expr outcome) := by
  obtain ⟨outcome, hOutcome⟩ := hFree.exists_denotes (store.lookup? Scope.integers scope)
  have hSettles := settles_of_denotes hOutcome
  refine ⟨outcome, hOutcome, hSettles, fun other start hSame => ?_, ?_, ?_⟩
  · exact settles_of_denotes (hOutcome.congr hSame)
  · intro next calls history final hDuring hHands
    rw [hSettles.final_eq next calls history final hDuring hHands]
    exact hSettles
  · intro hOlder inner child hChild hParent hUndeclared
    refine settles_of_denotes (hOutcome.congr fun name hMem => ?_)
    exact hOlder.lookup?_of_undeclared hChild hParent (hUndeclared name hMem)

/-- `x / 0 + y`, where the root declares `x` and a child of it declares neither. The division fails before
it is noticed that nothing declares `y`. -/
theorem evaluate_callFree_fromChild :
    let requests : List Request :=
      [.root, .declareVariable 0 ⟨8⟩ 6, .child 0, .declareVariable 1 ⟨10⟩ 4]
    let store := Store.empty.serveAll requests
    let expr : Expr := .binary .add (.binary .div (.reference ⟨8⟩) (.literal 0)) (.reference ⟨9⟩)
    expr.CallFree ∧
    ∃ outcome, expr.Denotes (store.lookup? Scope.integers 0) outcome ∧ Settles store 0 expr outcome ∧
      Settles store 1 expr outcome := by
  intro requests store expr
  have hFree : expr.CallFree := by
    intro callee hMem
    simp [expr, Expr.uses] at hMem
  have hPermits : Ledger.empty.PermitsAll requests := by decide
  have hOlder : store.Older := (Store.accounts_serveAll hPermits).toCounts.storeOlder
  obtain ⟨outcome, hDenotes, hHere, -, -, hBelow⟩ := evaluate_callFree hFree store 0
  refine ⟨hFree, outcome, hDenotes, hHere, ?_⟩
  have hChild : store.scope? 1 = some { Scope.fresh (some 0) with integers := [(⟨10⟩, 4)] } := rfl
  refine hBelow hOlder 1 _ hChild rfl (fun name hMem => ?_)
  have hName : name = ⟨8⟩ ∨ name = ⟨9⟩ := by simpa [expr, Expr.uses] using hMem
  rcases hName with rfl | rfl <;> rfl

end Machine

end IntScript
