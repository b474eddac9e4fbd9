import IntScript.Proofs.Renaming
import IntScript.Proofs.Scope.Lookup

/-! Scopes that bind the same under paired names. Every operation on scopes does the same to both. -/
namespace IntScript

section

variable (pairs : Name → Name → Prop)

structure Function.Like (first second : Function) : Prop where
  name : pairs first.name second.name
  parameters : List.Forall₂ pairs first.parameters second.parameters
  body : Block.Like pairs first.body second.body

inductive Callable.Like : Callable → Callable → Prop where
  | builtin (builtin : Builtin) : Like (.builtin builtin) (.builtin builtin)
  | user {first second : Function} (sameFunction : first.Like pairs second) (home : ScopeId) :
      Like (.user first home) (.user second home)

abbrev Table.Like {α : Type} (like : α → α → Prop) : Table α → Table α → Prop :=
  List.Forall₂ (fun entry other => pairs entry.1 other.1 ∧ like entry.2 other.2)

/-- Scopes that bind the same under paired names and are kept alive alike. -/
structure Scope.Like (first second : Scope) : Prop where
  integers : Table.Like pairs Eq first.integers second.integers
  functions : Table.Like pairs (Callable.Like pairs) first.functions second.functions
  parent : first.parent = second.parent
  handles : first.handles = second.handles
  children : first.children = second.children

/-- The same scopes are alive, and they are alike. -/
structure Store.Like (first second : Store) : Prop where
  size : first.slots.size = second.slots.size
  scopes : ∀ id, Option.Rel (Scope.Like pairs) (first.scope? id) (second.scope? id)

inductive ScopeError.Like : ScopeError → ScopeError → Prop where
  | duplicateVariable {first second : Name} (paired : pairs first second) :
      Like (.duplicateVariable first) (.duplicateVariable second)
  | duplicateFunction {first second : Name} (paired : pairs first second) :
      Like (.duplicateFunction first) (.duplicateFunction second)
  | undefinedVariable {first second : Name} (paired : pairs first second) :
      Like (.undefinedVariable first) (.undefinedVariable second)
  | undefinedFunction {first second : Name} (paired : pairs first second) :
      Like (.undefinedFunction first) (.undefinedFunction second)

/-- The change is made in both stores, or it fails in both alike. -/
inductive ChangeLike : Except ScopeError Unit × Store → Except ScopeError Unit × Store → Prop where
  | ok {first second : Store} (sameStore : first.Like pairs second) :
      ChangeLike (.ok (), first) (.ok (), second)
  | error {error other : ScopeError} {first second : Store} (sameError : error.Like pairs other)
      (sameStore : first.Like pairs second) : ChangeLike (.error error, first) (.error other, second)

end

variable {pairs : Name → Name → Prop}

namespace Table.Like

variable {α : Type} {like : α → α → Prop} {table other : Table α} {name partner : Name}

theorem has (h : Table.Like pairs like table other) (hOne : OneToOne pairs) (hName : pairs name partner) :
    table.has name = other.has partner := by
  induction h with
  | nil => rfl
  | @cons entry entry' rest rest' hEntry _ ih =>
      have hSame : (entry.1 == name) = (entry'.1 == partner) := by
        rw [Bool.eq_iff_iff, beq_iff_eq, beq_iff_eq]
        exact hOne hEntry.1 hName
      rw [Table.has, Table.has, List.any_cons, List.any_cons, hSame]
      exact congrArg _ ih

theorem get? (h : Table.Like pairs like table other) (hOne : OneToOne pairs)
    (hName : pairs name partner) : Option.Rel like (table.get? name) (other.get? partner) := by
  induction h with
  | nil => exact .none
  | @cons entry entry' rest rest' hEntry _ ih =>
      rw [Table.get?_cons entry.1, Table.get?_cons entry'.1]
      simp only [hOne hName hEntry.1]
      split
      next => exact .some hEntry.2
      next => exact ih

theorem put (h : Table.Like pairs like table other) (hOne : OneToOne pairs) (hName : pairs name partner)
    {value value' : α} (hValue : like value value') :
    Table.Like pairs like (table.put name value) (other.put partner value') := by
  induction h with
  | nil => exact .nil
  | @cons entry entry' rest rest' hEntry _ ih =>
      refine .cons ?_ ih
      simp only [hOne hEntry.1 hName]
      split
      next => exact ⟨hName, hValue⟩
      next => exact hEntry

end Table.Like

namespace Scope.Like

variable {first second : Scope}

theorem isOwned (h : first.Like pairs second) : first.isOwned = second.isOwned := by
  rw [Scope.isOwned, Scope.isOwned, h.handles, h.children]

theorem setHandles (h : first.Like pairs second) (f : Nat → Nat) :
    Scope.Like pairs { first with handles := f first.handles }
      { second with handles := f second.handles } :=
  { h with handles := congrArg f h.handles }

theorem setChildren (h : first.Like pairs second) (f : Nat → Nat) :
    Scope.Like pairs { first with children := f first.children }
      { second with children := f second.children } :=
  { h with children := congrArg f h.children }

theorem fresh (parent : Option ScopeId) : (Scope.fresh parent).Like pairs (Scope.fresh parent) :=
  ⟨.nil, .nil, rfl, rfl, rfl⟩

end Scope.Like

namespace Store.Like

section

variable {first second : Store} (h : first.Like pairs second)

include h

theorem isLive (id : ScopeId) : first.isLive id = second.isLive id := by
  have hScope := h.scopes id
  rw [Store.isLive, Store.isLive]
  generalize first.scope? id = scope at hScope ⊢
  generalize second.scope? id = scope' at hScope ⊢
  cases hScope <;> rfl

/-- Tests that agree on like scopes agree on the scope with that number. -/
theorem any (id : ScopeId) {test test' : Scope → Bool}
    (hTest : ∀ scope scope', scope.Like pairs scope' → test scope = test' scope') :
    (first.scope? id).any test = (second.scope? id).any test' := by
  have hScope := h.scopes id
  generalize first.scope? id = scope at hScope ⊢
  generalize second.scope? id = scope' at hScope ⊢
  cases hScope with
  | none => rfl
  | some hScope => exact hTest _ _ hScope

/-- Like changes keep scopes alike. -/
theorem modify (id : ScopeId) {f g : Scope → Scope}
    (hChange : ∀ scope scope', scope.Like pairs scope' → (f scope).Like pairs (g scope')) :
    (first.modify id f).Like pairs (second.modify id g) := by
  constructor
  · rw [size_modify, size_modify, h.size]
  · intro other
    rw [scope?_modify, scope?_modify]
    split
    next =>
      have hScope := h.scopes id
      generalize first.scope? id = scope at hScope ⊢
      generalize second.scope? id = scope' at hScope ⊢
      cases hScope with
      | none => exact .none
      | some hScope => exact .some (hChange _ _ hScope)
    next => exact h.scopes other

theorem push {scope scope' : Scope} (hScope : scope.Like pairs scope') :
    Store.Like pairs ⟨first.slots.push (some scope)⟩ ⟨second.slots.push (some scope')⟩ := by
  constructor
  · rw [Array.size_push, Array.size_push, h.size]
  · intro id
    rw [scope?_push, scope?_push, h.size]
    split
    next => exact .some hScope
    next => exact h.scopes id

theorem child (parent : ScopeId) : (first.child parent).2.Like pairs (second.child parent).2 := by
  rw [Store.child, Store.child]
  refine Store.Like.push (h.modify parent fun _ _ hScope => ?_) (.fresh (some parent))
  exact hScope.setChildren (· + 1)

theorem remove (id : ScopeId) :
    Store.Like pairs ⟨first.slots.modify id (fun _ => none)⟩ ⟨second.slots.modify id (fun _ => none)⟩ := by
  constructor
  · rw [Array.size_modify, Array.size_modify, h.size]
  · intro other
    rw [scope?_remove, scope?_remove]
    split
    next => exact .none
    next => exact h.scopes other

/-- Which scopes go is a matter of counts and links, where names have no part. -/
theorem collect (id : ScopeId) : (first.collect id).Like pairs (second.collect id) := by
  induction id using Nat.strongRecOn generalizing first second with
  | ind id ih =>
      have hScope := h.scopes id
      rw [Store.collect, Store.collect]
      generalize first.scope? id = scope at hScope ⊢
      generalize second.scope? id = scope' at hScope ⊢
      cases hScope with
      | none => exact h
      | some hScope =>
          simp only [hScope.isOwned, hScope.parent]
          split
          next => exact h
          next =>
            split
            next => exact h.remove id
            next parent _ =>
              split
              next hOlder =>
                refine ih parent hOlder ((h.remove id).modify parent fun _ _ hOuter => ?_)
                exact hOuter.setChildren (· - 1)
              next => exact h.remove id

theorem release (id : ScopeId) : (first.release id).Like pairs (second.release id) := by
  rw [Store.release, Store.release]
  refine Store.Like.collect (h.modify id fun _ _ hScope => ?_) id
  exact hScope.setHandles (· - 1)

/-- The way outward is the same in both, and so is the place where it ends. -/
theorem nearest? {found found' : Scope → Bool}
    (hFound : ∀ scope scope', scope.Like pairs scope' → found scope = found' scope') (id : ScopeId) :
    first.nearest? found id = second.nearest? found' id := by
  induction id using Nat.strongRecOn with
  | ind id ih =>
      have hScope := h.scopes id
      rw [Store.nearest?, Store.nearest?]
      generalize first.scope? id = scope at hScope ⊢
      generalize second.scope? id = scope' at hScope ⊢
      cases hScope with
      | none => rfl
      | some hScope =>
          simp only [hFound _ _ hScope, hScope.parent]
          split
          next => rfl
          next =>
            split
            next => rfl
            next parent _ =>
              split
              next hOlder => exact ih parent hOlder
              next => rfl

variable (hOne : OneToOne pairs) {name partner : Name} (hName : pairs name partner)

include hOne hName

theorem declareVariable (id : ScopeId) (value : Int32) :
    ChangeLike pairs (first.declareVariable id name value) (second.declareVariable id partner value) := by
  rw [Store.declareVariable, Store.declareVariable,
    h.any id (fun _ _ hScope => hScope.integers.has hOne hName)]
  split
  next => exact .error (.duplicateVariable hName) h
  next =>
    refine .ok (h.modify id fun _ _ hScope => ?_)
    exact { hScope with integers := .cons ⟨hName, rfl⟩ hScope.integers }

theorem declareFunction (id : ScopeId) {callable other : Callable}
    (hCallable : callable.Like pairs other) :
    ChangeLike pairs (first.declareFunction id name callable)
      (second.declareFunction id partner other) := by
  rw [Store.declareFunction, Store.declareFunction,
    h.any id (fun _ _ hScope => hScope.functions.has hOne hName)]
  split
  next => exact .error (.duplicateFunction hName) h
  next =>
    refine .ok (h.modify id fun _ _ hScope => ?_)
    exact { hScope with functions := .cons ⟨hName, hCallable⟩ hScope.functions }

/-- The scope in which the value is changed is the same. -/
theorem setVariable (id : ScopeId) (value : Int32) :
    ChangeLike pairs (first.setVariable id name value) (second.setVariable id partner value) := by
  rw [Store.setVariable, Store.setVariable,
    h.nearest? (fun _ _ hScope => hScope.integers.has hOne hName)]
  split
  next => exact .error (.undefinedVariable hName) h
  next owner _ =>
    refine .ok (h.modify owner fun _ _ hScope => ?_)
    exact { hScope with integers := hScope.integers.put hOne hName rfl }

/-- What is found in the scope where a look-up ends. -/
theorem entry {α : Type} {like : α → α → Prop} {table : Scope → Table α}
    (hTable : ∀ scope scope', scope.Like pairs scope' →
      Table.Like pairs like (table scope) (table scope')) (id : ScopeId) :
    Option.Rel like
      ((first.nearest? (fun scope => (table scope).has name) id).bind first.scope? |>.bind
        (fun scope => (table scope).get? name))
      ((second.nearest? (fun scope => (table scope).has partner) id).bind second.scope? |>.bind
        (fun scope => (table scope).get? partner)) := by
  rw [h.nearest? (fun _ _ hScope => (hTable _ _ hScope).has hOne hName)]
  cases second.nearest? (fun scope => (table scope).has partner) id with
  | none => exact .none
  | some owner =>
      rw [Option.bind_some, Option.bind_some]
      have hScope := h.scopes owner
      generalize first.scope? owner = scope at hScope ⊢
      generalize second.scope? owner = scope' at hScope ⊢
      cases hScope with
      | none => exact .none
      | some hScope => exact (hTable _ _ hScope).get? hOne hName

theorem getVariable (id : ScopeId) :
    OutcomeLike (ScopeError.Like pairs) Eq (first.getVariable id name)
      (second.getVariable id partner) := by
  have hEntry := h.entry hOne hName (fun _ _ hScope => hScope.integers) id
  rw [Store.getVariable, Store.getVariable]
  generalize ((first.nearest? _ id).bind first.scope?).bind _ = found at hEntry ⊢
  generalize ((second.nearest? _ id).bind second.scope?).bind _ = found' at hEntry ⊢
  cases hEntry with
  | none => exact .error (.undefinedVariable hName)
  | some same => exact .ok same

theorem getFunction (id : ScopeId) :
    OutcomeLike (ScopeError.Like pairs) (Callable.Like pairs) (first.getFunction id name)
      (second.getFunction id partner) := by
  have hEntry := h.entry hOne hName (fun _ _ hScope => hScope.functions) id
  rw [Store.getFunction, Store.getFunction]
  generalize ((first.nearest? _ id).bind first.scope?).bind _ = found at hEntry ⊢
  generalize ((second.nearest? _ id).bind second.scope?).bind _ = found' at hEntry ⊢
  cases hEntry with
  | none => exact .error (.undefinedFunction hName)
  | some same => exact .ok same

end

/-- A first root binds nothing. -/
theorem root : (Store.empty.root).2.Like pairs (Store.empty.root).2 :=
  push ⟨rfl, fun _ => .none⟩ (.fresh none)

end Store.Like

end IntScript
