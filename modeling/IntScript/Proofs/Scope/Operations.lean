import IntScript.Scope.Store

/-! What each operation on the store does to each scope. A scope is seen through `Store.scope?` only, so
nothing later depends on how scopes are laid out. -/
namespace IntScript

namespace Store

/-- Only the scope in question changes, and only if it is alive. -/
theorem scope?_modify (store : Store) (id : ScopeId) (f : Scope → Scope) (other : ScopeId) :
    (store.modify id f).scope? other =
      if other = id then (store.scope? id).map f else store.scope? other := by
  rw [modify, scope?, Array.getElem?_modify]
  by_cases hSame : id = other
  · subst hSame
    rw [if_pos rfl, if_pos rfl, scope?]
    cases store.slots[id]? with
    | none => rfl
    | some slot => rfl
  · rw [if_neg hSame, if_neg (Ne.symm hSame), scope?]

theorem scope_after_modify {store : Store} {id other : ScopeId} {f : Scope → Scope} {old : Scope}
    (h : store.scope? other = some old) :
    (store.modify id f).scope? other = some (if other = id then f old else old) := by
  rw [scope?_modify]
  split
  next hSame => rw [← hSame, h, Option.map_some]
  next => exact h

/-- A scope that is there after a change was there before it. -/
theorem scope_before_modify {store : Store} {id other : ScopeId} {f : Scope → Scope} {now : Scope}
    (h : (store.modify id f).scope? other = some now) :
    ∃ old, store.scope? other = some old ∧ now = if other = id then f old else old := by
  rw [scope?_modify] at h
  split at h
  next hSame =>
    obtain ⟨old, hOld, rfl⟩ := Option.map_eq_some_iff.mp h
    exact ⟨old, hSame ▸ hOld, (if_pos hSame).symm⟩
  next hOther => exact ⟨now, h, (if_neg hOther).symm⟩

theorem size_modify (store : Store) (id : ScopeId) (f : Scope → Scope) :
    (store.modify id f).slots.size = store.slots.size :=
  Array.size_modify

/-- Numbers that were not given yet belong to no scope. -/
theorem lt_size_of_scope {store : Store} {id : ScopeId} {scope : Scope}
    (h : store.scope? id = some scope) : id < store.slots.size := by
  rw [scope?, Option.join_eq_some_iff] at h
  exact (Array.getElem?_eq_some_iff.mp h).1

theorem scope?_push (store : Store) (scope : Scope) (id : ScopeId) :
    scope? ⟨store.slots.push (some scope)⟩ id =
      if id = store.slots.size then some scope else store.scope? id := by
  rw [scope?, Array.getElem?_push]
  split
  next => rfl
  next => rfl

/-- The first scope is number zero. -/
theorem scope?_root (id : ScopeId) :
    (Store.empty.root).2.scope? id = if id = 0 then some (Scope.fresh none) else none :=
  Store.empty.scope?_push (Scope.fresh none) id

theorem child_fst (store : Store) (parent : ScopeId) :
    (store.child parent).1 = store.slots.size :=
  store.size_modify parent _

theorem size_child (store : Store) (parent : ScopeId) :
    (store.child parent).2.slots.size = store.slots.size + 1 := by
  rw [child, Array.size_push, size_modify]

/-- A child is new, binds nothing, and is counted by its parent. -/
theorem scope?_child (store : Store) (parent id : ScopeId) :
    (store.child parent).2.scope? id =
      if id = store.slots.size then some (Scope.fresh (some parent))
      else if id = parent then
        (store.scope? parent).map (fun scope => { scope with children := scope.children + 1 })
      else store.scope? id := by
  rw [child, scope?_push, size_modify, scope?_modify]

/-- A new scope binds nothing and has one handle. -/
theorem scope?_child_new (store : Store) (parent : ScopeId) :
    (store.child parent).2.scope? store.slots.size = some (Scope.fresh (some parent)) := by
  rw [scope?_child, if_pos rfl]

/-- A scope that is there after a child was made is the child, or was there before and has one child more at
most. -/
theorem scope_child_cases {store : Store} {parent id : ScopeId} {now : Scope}
    (h : (store.child parent).2.scope? id = some now) :
    (id = store.slots.size ∧ now = Scope.fresh (some parent)) ∨
      ∃ old, store.scope? id = some old ∧
        now = { old with children := old.children + if parent = id then 1 else 0 } := by
  rw [scope?_child] at h
  split at h
  next hNew =>
    cases h
    exact Or.inl ⟨hNew, rfl⟩
  next =>
    split at h
    next hParent =>
      obtain ⟨old, hOld, rfl⟩ := Option.map_eq_some_iff.mp h
      exact Or.inr ⟨old, hParent ▸ hOld, by rw [if_pos hParent.symm]⟩
    next hOther => exact Or.inr ⟨now, h, by rw [if_neg (Ne.symm hOther)]; rfl⟩

/-- Scopes that were there are still there, under the same parents. -/
theorem scope_after_child {store : Store} {parent id : ScopeId} {old : Scope}
    (h : store.scope? id = some old) : ∃ now, (store.child parent).2.scope? id = some now ∧
      now.parent = old.parent := by
  rw [scope?_child, if_neg (Nat.ne_of_lt (lt_size_of_scope h))]
  split
  next hParent =>
    rw [← hParent, h]
    exact ⟨_, rfl, rfl⟩
  next => exact ⟨old, h, rfl⟩

/-- A removed scope leaves its slot empty, so that numbers stay what they are. -/
theorem scope?_remove (store : Store) (id other : ScopeId) :
    scope? ⟨store.slots.modify id (fun _ => none)⟩ other =
      if other = id then none else store.scope? other := by
  rw [scope?, Array.getElem?_modify]
  by_cases hSame : id = other
  · subst hSame
    rw [if_pos rfl, if_pos rfl]
    cases store.slots[id]? with
    | none => rfl
    | some slot => rfl
  · rw [if_neg hSame, if_neg (Ne.symm hSame), scope?]

theorem collect_of_owned {store : Store} {id : ScopeId} {scope : Scope}
    (hScope : store.scope? id = some scope) (hOwned : scope.isOwned) : store.collect id = store := by
  rw [collect, hScope]
  simp only [hOwned, if_true]

/-- A scope whose last handle is given up, and which has no children, is removed, and its parent, which
something else keeps alive, loses a child. -/
theorem scope?_release {store : Store} {id parent : ScopeId} {scope outer : Scope}
    (hScope : store.scope? id = some scope) (hHandles : scope.handles = 1)
    (hChildren : scope.children = 0) (hParent : scope.parent = some parent) (hOlder : parent < id)
    (hOuter : store.scope? parent = some outer) (hHeld : 0 < outer.handles) (other : ScopeId) :
    (store.release id).scope? other =
      if other = id then none
      else if other = parent then some { outer with children := outer.children - 1 }
      else store.scope? other := by
  let released := store.modify id (fun scope => { scope with handles := scope.handles - 1 })
  have hReleased (other : ScopeId) : released.scope? other =
      if other = id then some { scope with handles := 0 } else store.scope? other := by
    rw [scope?_modify, hScope, Option.map_some, hHandles]
  let removed : Store := ⟨released.slots.modify id (fun _ => none)⟩
  have hRemoved (other : ScopeId) : removed.scope? other =
      if other = id then none else store.scope? other := by
    rw [scope?_remove, hReleased]
    split <;> rfl
  let counted := removed.modify parent (fun scope => { scope with children := scope.children - 1 })
  have hCounted (other : ScopeId) : counted.scope? other =
      if other = parent then some { outer with children := outer.children - 1 }
      else if other = id then none else store.scope? other := by
    rw [scope?_modify, hRemoved, hRemoved, if_neg (Nat.ne_of_lt hOlder), hOuter, Option.map_some]
  have hCollected : store.release id = counted.collect parent := by
    rw [release, collect, hReleased, if_pos rfl]
    simp only [Scope.isOwned, hChildren, Nat.lt_irrefl, decide_false, Bool.or_self,
      Bool.false_eq_true, if_false, hParent, hOlder, if_true]
    rfl
  have hParentCounted := hCounted parent
  rw [if_pos rfl] at hParentCounted
  rw [hCollected, collect_of_owned hParentCounted (by simp [Scope.isOwned, hHeld]), hCounted]
  by_cases hId : other = id
  · rw [if_pos hId, if_pos hId, if_neg (hId ▸ Nat.ne_of_gt hOlder)]
  · rw [if_neg hId, if_neg hId]

theorem size_collect (store : Store) (id : ScopeId) :
    (store.collect id).slots.size = store.slots.size := by
  induction id using Nat.strongRecOn generalizing store with
  | ind id ih =>
      rw [collect]
      split
      next => rfl
      next scope _ =>
        split
        next => rfl
        next =>
          split
          next => exact Array.size_modify
          next parent _ =>
            split
            next hOlder => rw [ih parent hOlder, size_modify, Array.size_modify]
            next => exact Array.size_modify

/-- Giving up never frees a number. -/
theorem size_release (store : Store) (id : ScopeId) :
    (store.release id).slots.size = store.slots.size := by
  rw [release, size_collect, size_modify]

/-- These scopes bind what they did and lie where they did. -/
def Keeps (store later : Store) (ids : List ScopeId) : Prop :=
  ∀ id ∈ ids, ∀ scope, store.scope? id = some scope → ∃ now, later.scope? id = some now ∧
    now.integers = scope.integers ∧ now.functions = scope.functions ∧ now.parent = scope.parent

theorem keeps_refl (store : Store) (ids : List ScopeId) : store.Keeps store ids :=
  fun _ _ scope hScope => ⟨scope, hScope, rfl, rfl, rfl⟩

/-- A change to one scope keeps all the others. -/
theorem keeps_modify (store : Store) {id : ScopeId} {ids : List ScopeId} (hOther : id ∉ ids)
    (f : Scope → Scope) : store.Keeps (store.modify id f) ids := by
  intro other hId scope hScope
  have hDistinct : other ≠ id := fun hSame => hOther (hSame ▸ hId)
  rw [scope?_modify, if_neg hDistinct]
  exact ⟨scope, hScope, rfl, rfl, rfl⟩

/-- A new scope changes its parent's count of children, but nothing that it binds. -/
theorem keeps_child (store : Store) (parent : ScopeId) (ids : List ScopeId) :
    store.Keeps (store.child parent).2 ids := by
  intro id _ scope hScope
  rw [scope?_child, if_neg (Nat.ne_of_lt (lt_size_of_scope hScope))]
  split
  next hSame =>
    rw [← hSame, hScope]
    exact ⟨_, rfl, rfl, rfl, rfl⟩
  next => exact ⟨scope, hScope, rfl, rfl, rfl⟩

end Store

end IntScript
