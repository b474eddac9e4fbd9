import IntScript.Proofs.Scope.Lookup

/-! What scopes bind, whatever the values of their variables are, and how each operation on the store
changes that. No operation gives a scope another parent. -/
namespace IntScript

/-- A variable by its name, or a function by its name and what it is. -/
inductive Binding where
  | integer (name : Name)
  | function (name : Name) (callable : Callable)

namespace Table

variable {α : Type}

theorem has_put (table : Table α) (name : Name) (value : α) (other : Name) :
    (table.put name value).has other = table.has other := by
  rw [has_eq_isSome, has_eq_isSome, get?_put]
  split
  next hSame => rw [hSame, Option.isSome_map]
  next => rfl

end Table

def Binding.In (scope : Scope) : Binding → Prop
  | integer name => scope.integers.has name = true
  | function name callable => (name, callable) ∈ scope.functions

namespace Store

def Binds (store : Store) (id : ScopeId) (binding : Binding) : Prop :=
  ∃ scope, store.scope? id = some scope ∧ binding.In scope

/-- Between the two stores no scope was made, parents stayed as they were, and no bindings came but
those in `added`. -/
structure Changes (store later : Store) (added : ScopeId → Binding → Prop) : Prop where
  size : later.slots.size = store.slots.size
  parent : ∀ {id : ScopeId} {scope : Scope}, later.scope? id = some scope →
    ∃ old, store.scope? id = some old ∧ old.parent = scope.parent
  binds : ∀ {id : ScopeId} {binding : Binding}, later.Binds id binding →
    store.Binds id binding ∨ added id binding

/-- Between the two stores one scope was made, a child of `parent` under the next number; the other
parents stayed as they were, and no bindings came but those in `added`. -/
structure Opens (store later : Store) (parent : ScopeId) (added : ScopeId → Binding → Prop) : Prop where
  size : later.slots.size = store.slots.size + 1
  parent : ∀ {id : ScopeId} {scope : Scope}, later.scope? id = some scope →
    (id = store.slots.size ∧ scope.parent = some parent) ∨
      ∃ old, store.scope? id = some old ∧ old.parent = scope.parent
  binds : ∀ {id : ScopeId} {binding : Binding}, later.Binds id binding →
    store.Binds id binding ∨ added id binding

section

variable {store later final : Store} {held : List ScopeId} {added : ScopeId → Binding → Prop}

theorem Changes.refl (store : Store) (added : ScopeId → Binding → Prop) : store.Changes store added := by
  constructor
  · rfl
  · intro id scope hScope
    exact ⟨scope, hScope, rfl⟩
  · intro id binding hBinds
    exact Or.inl hBinds

theorem Changes.trans (h : store.Changes later added) (further : later.Changes final added) :
    store.Changes final added := by
  constructor
  · rw [further.size, h.size]
  · intro id scope hScope
    obtain ⟨middle, hMiddle, hSame⟩ := further.parent hScope
    obtain ⟨old, hOld, hParent⟩ := h.parent hMiddle
    exact ⟨old, hOld, by rw [hParent, hSame]⟩
  · intro id binding hBinds
    rcases further.binds hBinds with hEarlier | hAdded
    · exact h.binds hEarlier
    · exact Or.inr hAdded

theorem Changes.mono {more : ScopeId → Binding → Prop} (h : store.Changes later added)
    (hMore : ∀ id binding, added id binding → more id binding) : store.Changes later more :=
  ⟨h.size, h.parent, fun hBinds => (h.binds hBinds).imp_right (hMore _ _)⟩

/-- A change to one scope adds what that scope has got. -/
theorem changes_modify {id : ScopeId} {f : Scope → Scope}
    (hParent : ∀ scope, (f scope).parent = scope.parent)
    (hBinds : ∀ (scope : Scope) (binding : Binding), binding.In (f scope) →
      binding.In scope ∨ added id binding) : store.Changes (store.modify id f) added := by
  constructor
  · exact store.size_modify id f
  · intro other scope hScope
    rw [scope?_modify] at hScope
    split at hScope
    next hSame =>
      obtain ⟨old, hOld, rfl⟩ := Option.map_eq_some_iff.mp hScope
      exact ⟨old, hSame ▸ hOld, (hParent old).symm⟩
    next => exact ⟨scope, hScope, rfl⟩
  · rintro other binding ⟨scope, hScope, hIn⟩
    rw [scope?_modify] at hScope
    split at hScope
    next hSame =>
      subst hSame
      obtain ⟨old, hOld, rfl⟩ := Option.map_eq_some_iff.mp hScope
      exact (hBinds old binding hIn).imp_left (fun hOldIn => ⟨old, hOld, hOldIn⟩)
    next => exact Or.inl ⟨scope, hScope, hIn⟩

/-- A refused declaration adds nothing; this is part of the statement, for nothing says that the
binding came. -/
theorem changes_declareVariable (store : Store) (id : ScopeId) (name : Name) (value : Int32) :
    store.Changes (store.declareVariable id name value).2
      (fun owner binding => owner = id ∧ binding = .integer name) := by
  rw [declareVariable]
  split
  next => exact Changes.refl store _
  next =>
    refine changes_modify (fun _ => rfl) (fun scope binding hIn => ?_)
    cases binding with
    | integer other =>
        have hHas : (name == other || scope.integers.has other) = true := hIn
        rw [Bool.or_eq_true, beq_iff_eq] at hHas
        rcases hHas with rfl | hOld
        · exact Or.inr ⟨rfl, rfl⟩
        · exact Or.inl hOld
    | function other callable => exact Or.inl hIn

/-- Assignments add no name. -/
theorem changes_setVariable (store : Store) (id : ScopeId) (name : Name) (value : Int32) :
    store.Changes (store.setVariable id name value).2 added := by
  rw [setVariable]
  split
  next => exact Changes.refl store _
  next owner _ =>
    refine changes_modify (fun _ => rfl) (fun scope binding hIn => Or.inl ?_)
    cases binding with
    | integer other =>
        have hHas : (scope.integers.put name value).has other = true := hIn
        rwa [Table.has_put] at hHas
    | function other callable => exact hIn

theorem changes_declareFunction (store : Store) (id : ScopeId) (name : Name) (callable : Callable) :
    store.Changes (store.declareFunction id name callable).2
      (fun owner binding => owner = id ∧ binding = .function name callable) := by
  rw [declareFunction]
  split
  next => exact Changes.refl store _
  next =>
    refine changes_modify (fun _ => rfl) (fun scope binding hIn => ?_)
    cases binding with
    | integer other => exact Or.inl hIn
    | function other another =>
        rcases List.mem_cons.mp hIn with hNew | hOld
        · cases hNew
          exact Or.inr ⟨rfl, rfl⟩
        · exact Or.inl hOld

/-- Giving up a scope may remove it, and then its bindings are gone with it. -/
theorem Holds.changes_release {top : ScopeId} (h : store.Holds (top :: held)) (hMore : held ≠ []) :
    store.Changes (store.release top) added := by
  obtain ⟨scope, parent, outer, -, -, hOuter, -, hAfter⟩ := h.scope?_release hMore
  have hOld {id : ScopeId} {inner : Scope} (hInner : (store.release top).scope? id = some inner) :
      ∃ old, store.scope? id = some old ∧ old.parent = inner.parent ∧
        ∀ binding : Binding, binding.In inner → binding.In old := by
    rw [hAfter] at hInner
    split at hInner
    next => cases hInner
    next =>
      split at hInner
      next hSame =>
        cases hInner
        refine ⟨outer, hSame ▸ hOuter, rfl, fun binding hIn => ?_⟩
        cases binding with
        | integer name => exact hIn
        | function name callable => exact hIn
      next => exact ⟨inner, hInner, rfl, fun _ hIn => hIn⟩
  constructor
  · exact store.size_release top
  · intro id inner hInner
    obtain ⟨old, hFound, hParent, -⟩ := hOld hInner
    exact ⟨old, hFound, hParent⟩
  · rintro id binding ⟨inner, hInner, hIn⟩
    obtain ⟨old, hFound, -, hKept⟩ := hOld hInner
    exact Or.inl ⟨old, hFound, hKept binding hIn⟩

/-- A new child binds nothing. -/
theorem binds_child {parent id : ScopeId} {binding : Binding}
    (h : (store.child parent).2.Binds id binding) : store.Binds id binding := by
  obtain ⟨scope, hScope, hIn⟩ := h
  rw [scope?_child] at hScope
  split at hScope
  next =>
    cases hScope
    cases binding with
    | integer name => cases hIn
    | function name callable => cases hIn
  next =>
    split at hScope
    next hSame =>
      obtain ⟨old, hOld, rfl⟩ := Option.map_eq_some_iff.mp hScope
      refine ⟨old, hSame ▸ hOld, ?_⟩
      cases binding with
      | integer name => exact hIn
      | function name callable => exact hIn
    next => exact ⟨scope, hScope, hIn⟩

theorem opens_child (store : Store) (parent : ScopeId) (added : ScopeId → Binding → Prop) :
    store.Opens (store.child parent).2 parent added := by
  constructor
  · exact store.size_child parent
  · intro id scope hScope
    rw [scope?_child] at hScope
    split at hScope
    next hNew =>
      cases hScope
      exact Or.inl ⟨hNew, rfl⟩
    next =>
      split at hScope
      next hSame =>
        obtain ⟨old, hOld, rfl⟩ := Option.map_eq_some_iff.mp hScope
        exact Or.inr ⟨old, hSame ▸ hOld, rfl⟩
      next => exact Or.inr ⟨scope, hScope, rfl⟩
  · intro id binding hBinds
    exact Or.inl (binds_child hBinds)

theorem Changes.opens {parent : ScopeId} (h : store.Changes later added)
    (further : later.Opens final parent added) : store.Opens final parent added := by
  constructor
  · rw [further.size, h.size]
  · intro id scope hScope
    rcases further.parent hScope with ⟨hNew, hParent⟩ | ⟨middle, hMiddle, hSame⟩
    · exact Or.inl ⟨by rw [hNew, h.size], hParent⟩
    · obtain ⟨old, hOld, hParent⟩ := h.parent hMiddle
      exact Or.inr ⟨old, hOld, by rw [hParent, hSame]⟩
  · intro id binding hBinds
    rcases further.binds hBinds with hEarlier | hAdded
    · exact h.binds hEarlier
    · exact Or.inr hAdded

/-- What is declared in a new scope comes after it was made. -/
theorem Opens.changes {parent : ScopeId} (h : store.Opens later parent added)
    (further : later.Changes final added) : store.Opens final parent added := by
  constructor
  · rw [further.size, h.size]
  · intro id scope hScope
    obtain ⟨middle, hMiddle, hSame⟩ := further.parent hScope
    rw [← hSame]
    exact h.parent hMiddle
  · intro id binding hBinds
    rcases further.binds hBinds with hEarlier | hAdded
    · exact h.binds hEarlier
    · exact Or.inr hAdded

end

end Store

end IntScript
