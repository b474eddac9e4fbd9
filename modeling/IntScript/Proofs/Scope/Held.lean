import IntScript.Proofs.Scope.Operations

/-! Stores in which exactly the scopes of a list are alive, each with one handle, the innermost first.
Scopes are made at the front of the list and given up there, so a scope that is given up has no
children left. -/
namespace IntScript

namespace Store

def isChildOf (store : Store) (parent id : ScopeId) : Bool :=
  (store.scope? id).any (fun scope => scope.parent == some parent)

theorem isChildOf_iff {store : Store} {parent id : ScopeId} :
    store.isChildOf parent id = true ↔
      ∃ scope, store.scope? id = some scope ∧ scope.parent = some parent := by
  rw [isChildOf, Option.any_eq_true]
  simp only [beq_iff_eq]

/-- What a scope binds does not matter to whose child it is. -/
theorem isChildOf_modify {store : Store} {id : ScopeId} {f : Scope → Scope}
    (hParent : ∀ scope, (f scope).parent = scope.parent) (parent : ScopeId) :
    (store.modify id f).isChildOf parent = store.isChildOf parent := by
  funext other
  rw [isChildOf, isChildOf, scope?_modify]
  split
  next hSame =>
    subst hSame
    cases store.scope? other with
    | none => rfl
    | some old => simp [hParent]
  next => rfl

/-- Exactly the scopes in `held` are alive, one handle is held on each, and a newer one comes before an
older one. All but the first scope ever made have a parent, which is alive and older. A function of
the program lies under its own name in the scope it was declared in. -/
structure Holds (store : Store) (held : List ScopeId) : Prop where
  descending : held.Pairwise (· > ·)
  live : ∀ id, (∃ scope, store.scope? id = some scope) ↔ id ∈ held
  handles : ∀ {id : ScopeId} {scope : Scope}, store.scope? id = some scope → scope.handles = 1
  children : ∀ {id : ScopeId} {scope : Scope}, store.scope? id = some scope →
    scope.children = held.countP (store.isChildOf id)
  parent : ∀ {id parent : ScopeId} {scope : Scope}, store.scope? id = some scope →
    scope.parent = some parent → parent < id ∧ parent ∈ held
  nested : ∀ {id : ScopeId} {scope : Scope}, store.scope? id = some scope → id ≠ 0 →
    ∃ parent, scope.parent = some parent
  home : ∀ {id home : ScopeId} {scope : Scope} {name : Name} {function : Function},
    store.scope? id = some scope → (name, .user function home) ∈ scope.functions →
      home = id ∧ function.name = name

section

variable {store : Store} {held : List ScopeId}

theorem Holds.exists_scope (h : store.Holds held) {id : ScopeId} (hId : id ∈ held) :
    ∃ scope, store.scope? id = some scope :=
  (h.live id).mpr hId

theorem Holds.mem_of_scope (h : store.Holds held) {id : ScopeId} {scope : Scope}
    (hScope : store.scope? id = some scope) : id ∈ held :=
  (h.live id).mp ⟨scope, hScope⟩

theorem Holds.lt_size (h : store.Holds held) {id : ScopeId} (hId : id ∈ held) :
    id < store.slots.size := by
  obtain ⟨scope, hScope⟩ := h.exists_scope hId
  exact lt_size_of_scope hScope

theorem Holds.isLive (h : store.Holds held) {id : ScopeId} (hId : id ∈ held) :
    store.isLive id = true := by
  obtain ⟨scope, hScope⟩ := h.exists_scope hId
  rw [Store.isLive, hScope, Option.isSome_some]

/-- A change of what a scope binds is no change of which scopes are held. -/
theorem Holds.modify (h : store.Holds held) {id : ScopeId} {f : Scope → Scope}
    (hHandles : ∀ scope, (f scope).handles = scope.handles)
    (hChildren : ∀ scope, (f scope).children = scope.children)
    (hParent : ∀ scope, (f scope).parent = scope.parent)
    (hHome : ∀ scope, store.scope? id = some scope → ∀ name function home,
      (name, .user function home) ∈ (f scope).functions → home = id ∧ function.name = name) :
    (store.modify id f).Holds held := by
  have hBefore {other : ScopeId} {scope : Scope} (hScope : (store.modify id f).scope? other = some scope) :
      ∃ old, store.scope? other = some old ∧ scope.handles = old.handles ∧
        scope.children = old.children ∧ scope.parent = old.parent := by
    obtain ⟨old, hOld, rfl⟩ := scope_before_modify hScope
    refine ⟨old, hOld, ?_⟩
    split
    next => exact ⟨hHandles old, hChildren old, hParent old⟩
    next => exact ⟨rfl, rfl, rfl⟩
  exact {
    descending := h.descending
    live := fun other => by
      refine Iff.trans ⟨fun ⟨_, hScope⟩ => ?_, fun ⟨_, hScope⟩ => ⟨_, scope_after_modify hScope⟩⟩ (h.live other)
      obtain ⟨old, hOld, -⟩ := hBefore hScope
      exact ⟨old, hOld⟩
    handles := fun hScope => by
      obtain ⟨old, hOld, hSame, -, -⟩ := hBefore hScope
      rw [hSame, h.handles hOld]
    children := fun hScope => by
      obtain ⟨old, hOld, -, hSame, -⟩ := hBefore hScope
      rw [hSame, h.children hOld, isChildOf_modify hParent]
    parent := fun hScope hOuter => by
      obtain ⟨old, hOld, -, -, hSame⟩ := hBefore hScope
      exact h.parent hOld (hSame ▸ hOuter)
    nested := fun hScope hInner => by
      obtain ⟨old, hOld, -, -, hSame⟩ := hBefore hScope
      rw [hSame]
      exact h.nested hOld hInner
    home := fun {other home scope name function} hScope hMem => by
      obtain ⟨old, hOld, rfl⟩ := scope_before_modify hScope
      split at hMem
      next hSame =>
        subst hSame
        exact hHome old hOld name function home hMem
      next => exact h.home hOld hMem }

/-- The new scope is a child of one scope, and that adds no link between those that were there. -/
theorem Holds.isChildOf_child (h : store.Holds held) {scope : ScopeId} {id : ScopeId}
    (hId : id ∈ held) (parent : ScopeId) :
    (store.child scope).2.isChildOf parent id = store.isChildOf parent id := by
  have hOld := Nat.ne_of_lt (h.lt_size hId)
  rw [isChildOf, isChildOf, scope?_child, if_neg hOld]
  split
  next hSame =>
    subst hSame
    cases store.scope? id with
    | none => rfl
    | some old => rfl
  next => rfl

/-- A new child of a held scope is held in front of all others. -/
theorem Holds.child (h : store.Holds held) {scope : ScopeId} (hScope : scope ∈ held) :
    (store.child scope).2.Holds (store.slots.size :: held) := by
  have hNew := store.scope?_child_new scope
  have hCount (id : ScopeId) : (store.slots.size :: held).countP ((store.child scope).2.isChildOf id) =
      held.countP (store.isChildOf id) + if scope = id then 1 else 0 := by
    have hHeld : held.countP ((store.child scope).2.isChildOf id) =
        held.countP (store.isChildOf id) :=
      List.countP_congr (fun other hOther => by rw [h.isChildOf_child hOther])
    rw [List.countP_cons, hHeld, isChildOf, hNew]
    simp [Scope.fresh]
  have hChildless : held.countP (store.isChildOf store.slots.size) = 0 := by
    rw [List.countP_eq_zero]
    intro other _ hChild
    obtain ⟨inner, hInner, hParent⟩ := isChildOf_iff.mp hChild
    exact Nat.lt_irrefl _ (h.lt_size (h.parent hInner hParent).2)
  have hOlder : scope ≠ store.slots.size := Nat.ne_of_lt (h.lt_size hScope)
  exact {
    descending := List.Pairwise.cons (fun id hId => h.lt_size hId) h.descending
    live := fun id => by
      rw [List.mem_cons, ← h.live id]
      constructor
      · rintro ⟨inner, hInner⟩
        exact (scope_child_cases hInner).imp And.left (fun ⟨old, hOld, _⟩ => ⟨old, hOld⟩)
      · rintro (rfl | ⟨old, hOld⟩)
        · exact ⟨_, hNew⟩
        · exact (scope_after_child hOld).imp (fun _ hNow => hNow.1)
    handles := fun hInner => by
      rcases scope_child_cases hInner with ⟨-, rfl⟩ | ⟨old, hOld, rfl⟩
      · rfl
      · exact (h.handles hOld :)
    children := fun hInner => by
      rw [hCount]
      rcases scope_child_cases hInner with ⟨rfl, rfl⟩ | ⟨old, hOld, rfl⟩
      · rw [hChildless, if_neg hOlder]
        rfl
      · rw [← h.children hOld]
    parent := fun hInner hParent => by
      rcases scope_child_cases hInner with ⟨rfl, rfl⟩ | ⟨old, hOld, rfl⟩
      · cases hParent
        exact ⟨h.lt_size hScope, List.mem_cons_of_mem _ hScope⟩
      · exact (h.parent hOld hParent).imp_right (List.mem_cons_of_mem _)
    nested := fun hInner hNested => by
      rcases scope_child_cases hInner with ⟨-, rfl⟩ | ⟨old, hOld, rfl⟩
      · exact ⟨scope, rfl⟩
      · exact (h.nested hOld hNested :)
    home := fun hInner hMem => by
      rcases scope_child_cases hInner with ⟨-, rfl⟩ | ⟨old, hOld, rfl⟩
      · cases hMem
      · exact h.home hOld hMem }

/-- What happens to the scopes when the innermost of several is given up: it is gone, and its parent
has a child less. -/
theorem Holds.scope?_release {top : ScopeId} (h : store.Holds (top :: held)) (hMore : held ≠ []) :
    ∃ scope parent outer, store.scope? top = some scope ∧ scope.parent = some parent ∧
      store.scope? parent = some outer ∧ parent ∈ held ∧
      ∀ other, (store.release top).scope? other =
        if other = top then none
        else if other = parent then some { outer with children := outer.children - 1 }
        else store.scope? other := by
  have hTop : top ∈ top :: held := List.mem_cons_self
  have hNewest := (List.pairwise_cons.mp h.descending).1
  obtain ⟨scope, hScope⟩ := h.exists_scope hTop
  obtain ⟨next, hNext⟩ := List.exists_mem_of_ne_nil held hMore
  obtain ⟨parent, hParent⟩ := h.nested hScope (Nat.ne_zero_of_lt (hNewest next hNext))
  obtain ⟨hOlder, hMem⟩ := h.parent hScope hParent
  have hMem := (List.mem_cons.mp hMem).resolve_left (Nat.ne_of_lt hOlder)
  obtain ⟨outer, hOuter⟩ := h.exists_scope (List.mem_cons_of_mem top hMem)
  have hChildren : scope.children = 0 := by
    rw [h.children hScope, List.countP_eq_zero]
    intro other hOther hChild
    obtain ⟨inner, hInner, hTop⟩ := (Option.any_eq_true _ _).mp hChild
    have hYounger := (h.parent hInner (by simpa using hTop)).1
    rcases List.mem_cons.mp hOther with rfl | hOther
    · exact Nat.lt_irrefl _ hYounger
    · exact Nat.lt_asymm hYounger (hNewest other hOther)
  refine ⟨scope, parent, outer, hScope, hParent, hOuter, hMem, fun other => ?_⟩
  exact Store.scope?_release hScope (h.handles hScope) hChildren hParent hOlder hOuter
    (by rw [h.handles hOuter]; decide) other

/-- Only the scope that is given up goes. -/
theorem Holds.keeps_release {top : ScopeId} (h : store.Holds (top :: held)) (hMore : held ≠ []) :
    store.Keeps (store.release top) held := by
  obtain ⟨_, parent, outer, -, -, hOuter, -, hAfter⟩ := h.scope?_release hMore
  intro id hId scope hScope
  have hOther : id ≠ top := Nat.ne_of_lt ((List.pairwise_cons.mp h.descending).1 id hId)
  rw [hAfter, if_neg hOther]
  split
  next hSame =>
    rw [hSame, hOuter] at hScope
    cases hScope
    exact ⟨_, rfl, rfl, rfl, rfl⟩
  next => exact ⟨scope, hScope, rfl, rfl, rfl⟩

/-- Whatever is there after the innermost scope has been given up was there before. Its parent has lost a
child, and nothing else has changed. -/
theorem Holds.scope_before_release {top : ScopeId} (h : store.Holds (top :: held)) (hMore : held ≠ [])
    {id : ScopeId} {later : Scope} (hLater : (store.release top).scope? id = some later) :
    id ≠ top ∧ ∃ old, store.scope? id = some old ∧
      later = { old with children := old.children - if store.isChildOf id top then 1 else 0 } := by
  obtain ⟨scope, parent, outer, hScope, hParent, hOuter, -, hAfter⟩ := h.scope?_release hMore
  have hChild : store.isChildOf id top = true ↔ id = parent := by
    rw [isChildOf_iff]
    constructor
    · rintro ⟨_, hSame, hOuter⟩
      cases hScope.symm.trans hSame
      exact Option.some.inj (hOuter.symm.trans hParent)
    · rintro rfl
      exact ⟨scope, hScope, hParent⟩
  rw [hAfter] at hLater
  split at hLater
  next => cases hLater
  next hOther =>
    refine ⟨hOther, ?_⟩
    split at hLater
    next hSame =>
      cases hLater
      exact ⟨outer, hSame ▸ hOuter, by rw [if_pos (hChild.mpr hSame)]⟩
    next hNot => exact ⟨later, hLater, by rw [if_neg (hNot ∘ hChild.mp), Nat.sub_zero]⟩

/-- Links between scopes that are still held stay as they were. -/
theorem Holds.isChildOf_release {top : ScopeId} (h : store.Holds (top :: held)) (hMore : held ≠ [])
    {id : ScopeId} (hId : id ∈ held) (parent : ScopeId) :
    (store.release top).isChildOf parent id = store.isChildOf parent id := by
  obtain ⟨scope, hScope⟩ := h.exists_scope (List.mem_cons_of_mem top hId)
  obtain ⟨later, hLater, -, -, hParent⟩ := h.keeps_release hMore id hId scope hScope
  rw [isChildOf, isChildOf, hScope, hLater, Option.any_some, Option.any_some, hParent]

/-- When the innermost of several held scopes is given up, the others are held. -/
theorem Holds.release {top : ScopeId} (h : store.Holds (top :: held)) (hMore : held ≠ []) :
    (store.release top).Holds held := by
  have hNewest := (List.pairwise_cons.mp h.descending).1
  have hInside {id : ScopeId} {scope : Scope} (hScope : store.scope? id = some scope) (hOther : id ≠ top) :
      id ∈ held :=
    (List.mem_cons.mp (h.mem_of_scope hScope)).resolve_left hOther
  exact {
    descending := (List.pairwise_cons.mp h.descending).2
    live := fun id => by
      constructor
      · rintro ⟨later, hLater⟩
        obtain ⟨hOther, old, hOld, -⟩ := h.scope_before_release hMore hLater
        exact hInside hOld hOther
      · intro hId
        obtain ⟨scope, hScope⟩ := h.exists_scope (List.mem_cons_of_mem top hId)
        exact (h.keeps_release hMore id hId scope hScope).imp (fun _ hLater => hLater.1)
    handles := fun hLater => by
      obtain ⟨-, old, hOld, rfl⟩ := h.scope_before_release hMore hLater
      exact (h.handles hOld :)
    children := fun {id later} hLater => by
      obtain ⟨-, old, hOld, rfl⟩ := h.scope_before_release hMore hLater
      have hSame : held.countP ((store.release top).isChildOf id) = held.countP (store.isChildOf id) :=
        List.countP_congr (fun other hOther => by rw [h.isChildOf_release hMore hOther])
      rw [hSame, h.children hOld, List.countP_cons, Nat.add_sub_cancel]
    parent := fun {id around later} hLater hAround => by
      obtain ⟨hOther, old, hOld, rfl⟩ := h.scope_before_release hMore hLater
      obtain ⟨hOlder, hMem⟩ := h.parent hOld hAround
      have hBelow : around < top := Nat.lt_trans hOlder (hNewest id (hInside hOld hOther))
      exact ⟨hOlder, (List.mem_cons.mp hMem).resolve_left (Nat.ne_of_lt hBelow)⟩
    nested := fun hLater hNested => by
      obtain ⟨-, old, hOld, rfl⟩ := h.scope_before_release hMore hLater
      exact (h.nested hOld hNested :)
    home := fun hLater hMem => by
      obtain ⟨-, old, hOld, rfl⟩ := h.scope_before_release hMore hLater
      exact h.home hOld hMem }

/-- Variables have nothing to do with which scopes are alive. -/
theorem Holds.declareVariable (h : store.Holds held) (id : ScopeId) (name : Name) (value : Int32) :
    (store.declareVariable id name value).2.Holds held := by
  rw [Store.declareVariable]
  split
  next => exact h
  next =>
    exact h.modify (fun _ => rfl) (fun _ => rfl) (fun _ => rfl)
      (fun scope hScope name function home hMem => h.home hScope hMem)

theorem Holds.setVariable (h : store.Holds held) (id : ScopeId) (name : Name) (value : Int32) :
    (store.setVariable id name value).2.Holds held := by
  rw [Store.setVariable]
  split
  next => exact h
  next =>
    exact h.modify (fun _ => rfl) (fun _ => rfl) (fun _ => rfl)
      (fun scope hScope name function home hMem => h.home hScope hMem)

/-- A function is declared under its own name in the scope it is to run in. -/
theorem Holds.declareFunction (h : store.Holds held) (id : ScopeId) {name : Name}
    {callable : Callable}
    (hHome : ∀ function home, callable = .user function home → home = id ∧ function.name = name) :
    (store.declareFunction id name callable).2.Holds held := by
  rw [Store.declareFunction]
  split
  next => exact h
  next =>
    refine h.modify (fun _ => rfl) (fun _ => rfl) (fun _ => rfl) (fun scope hScope => ?_)
    intro other function home hMem
    rcases List.mem_cons.mp hMem with hNew | hOld
    · obtain ⟨rfl, hCallable⟩ := Prod.mk.inj hNew
      exact hHome function home hCallable.symm
    · exact h.home hScope hOld

/-- A builtin may be declared anywhere. -/
theorem Holds.declareBuiltin (h : store.Holds held) (id : ScopeId) (name : Name) (builtin : Builtin) :
    (store.declareFunction id name (.builtin builtin)).2.Holds held := by
  apply h.declareFunction
  intro function home hUser
  cases hUser

end

/-- After the first request there is the root and nothing else. -/
theorem scope_root_eq {id : ScopeId} {scope : Scope} (h : (Store.empty.root).2.scope? id = some scope) :
    id = 0 ∧ scope = Scope.fresh none := by
  rw [scope?_root] at h
  split at h
  next hFirst =>
    cases h
    exact ⟨hFirst, rfl⟩
  next => cases h

/-- At first the root is held and nothing else. -/
theorem holds_root : (Store.empty.root).2.Holds [0] where
  descending := List.pairwise_singleton _ 0
  live id := by
    rw [List.mem_singleton]
    refine ⟨fun ⟨_, hScope⟩ => (scope_root_eq hScope).1, ?_⟩
    rintro rfl
    exact ⟨_, rfl⟩
  handles hScope := by
    obtain ⟨-, rfl⟩ := scope_root_eq hScope
    rfl
  children {id scope} hScope := by
    have hNone : [0].countP ((Store.empty.root).2.isChildOf id) = 0 := by
      rw [List.countP_eq_zero]
      intro other _ hChild
      obtain ⟨inner, hInner, hParent⟩ := isChildOf_iff.mp hChild
      obtain ⟨-, rfl⟩ := scope_root_eq hInner
      cases hParent
    obtain ⟨-, rfl⟩ := scope_root_eq hScope
    rw [hNone]
    rfl
  parent hScope hParent := by
    obtain ⟨-, rfl⟩ := scope_root_eq hScope
    cases hParent
  nested hScope hNested := absurd (scope_root_eq hScope).1 hNested
  home hScope hMem := by
    obtain ⟨-, rfl⟩ := scope_root_eq hScope
    cases hMem

end Store

end IntScript
