import IntScript.Proofs.Scope.Bindings
import Mathlib.Data.Finset.Card

/-! What someone who holds handles on scopes may ask of a store, and the accounts of the store: each scope
counts the handles that are held on it and its children that are alive, and nothing is alive that has
neither. -/
namespace IntScript

inductive Request where
  | root
  | child (parent : ScopeId)
  | drop (id : ScopeId)
  | declareVariable (id : ScopeId) (name : Name) (value : Int32)
  | declareFunction (id : ScopeId) (name : Name) (callable : Callable)
  | setVariable (id : ScopeId) (name : Name) (value : Int32)

namespace Request

/-- The scope that the request is about, if there is one already. -/
def target? : Request → Option ScopeId
  | root => none
  | child id | drop id | declareVariable id _ _ | declareFunction id _ _ | setVariable id _ _ => some id

def declaresFunction : Request → Bool
  | declareFunction _ _ _ => true
  | _ => false

end Request

/-- What the holder of the handles knows: the parent of each scope that was ever made, in the order of
their numbers, and the scopes on which a handle is still held, once for each handle. -/
structure Ledger where
  parents : List (Option ScopeId)
  held : List ScopeId

namespace Ledger

def empty : Ledger := ⟨[], []⟩

def enter (ledger : Ledger) (parent : Option ScopeId) : Ledger :=
  ⟨ledger.parents ++ [parent], ledger.parents.length :: ledger.held⟩

def note (ledger : Ledger) : Request → Ledger
  | .root => ledger.enter none
  | .child parent => ledger.enter (some parent)
  | .drop id => { ledger with held := ledger.held.erase id }
  | .declareVariable _ _ _ | .declareFunction _ _ _ | .setVariable _ _ _ => ledger

def noteAll (ledger : Ledger) (requests : List Request) : Ledger :=
  requests.foldl note ledger

/-- A handle is held on the scope that the request is about. -/
def Permits (ledger : Ledger) (request : Request) : Prop :=
  ∀ id ∈ request.target?, id ∈ ledger.held

/-- Each request is about a scope on which a handle is held by then. -/
def PermitsAll (ledger : Ledger) : List Request → Prop
  | [] => True
  | request :: requests => ledger.Permits request ∧ (ledger.note request).PermitsAll requests

instance (ledger : Ledger) (request : Request) : Decidable (ledger.Permits request) :=
  inferInstanceAs (Decidable (∀ id ∈ request.target?, id ∈ ledger.held))

instance decidablePermitsAll (ledger : Ledger) : (requests : List Request) →
    Decidable (ledger.PermitsAll requests)
  | [] => inferInstanceAs (Decidable True)
  | request :: requests =>
      have := (ledger.note request).decidablePermitsAll requests
      inferInstanceAs (Decidable (_ ∧ _))

/-- Zero or more links to parents lead from the first scope to the second. -/
inductive Leads (ledger : Ledger) : ScopeId → ScopeId → Prop where
  | refl (id : ScopeId) : Leads ledger id id
  | outward {id parent outer : ScopeId} (hParent : ledger.parents[id]? = some (some parent))
      (further : Leads ledger parent outer) : Leads ledger id outer

/-- A link is added at the outer end here, where the definition has the first link at the inner one. -/
theorem Leads.parent {ledger : Ledger} {id outer parent : ScopeId} (h : ledger.Leads id outer)
    (hParent : ledger.parents[outer]? = some (some parent)) : ledger.Leads id parent := by
  induction h with
  | refl id => exact .outward hParent (.refl parent)
  | outward hFirst _ ih => exact .outward hFirst (ih hParent)

end Ledger

namespace Store

/-- The store after a request, whether that succeeds or fails. -/
def serve (store : Store) : Request → Store
  | .root => store.root.2
  | .child parent => (store.child parent).2
  | .drop id => store.release id
  | .declareVariable id name value => (store.declareVariable id name value).2
  | .declareFunction id name callable => (store.declareFunction id name callable).2
  | .setVariable id name value => (store.setVariable id name value).2

def serveAll (store : Store) (requests : List Request) : Store :=
  requests.foldl serve store

/-- How many scopes that are alive have this one as their parent. -/
def childCount (store : Store) (id : ScopeId) : Nat :=
  ((Finset.range store.slots.size).filter (fun inner => store.isChildOf id inner)).card

/-- The counts of the store agree with the ledger. A scope with a handle on it is alive, and so is the
parent of one that is alive. -/
structure Counts (store : Store) (ledger : Ledger) : Prop where
  size : store.slots.size = ledger.parents.length
  older : ∀ {id parent : ScopeId}, ledger.parents[id]? = some (some parent) → parent < id
  parent : ∀ {id : ScopeId} {scope : Scope}, store.scope? id = some scope →
    ledger.parents[id]? = some scope.parent
  handles : ∀ {id : ScopeId} {scope : Scope}, store.scope? id = some scope →
    scope.handles = ledger.held.count id
  children : ∀ {id : ScopeId} {scope : Scope}, store.scope? id = some scope →
    scope.children = store.childCount id
  held : ∀ id ∈ ledger.held, ∃ scope, store.scope? id = some scope
  outward : ∀ {id parent : ScopeId} {scope : Scope}, store.scope? id = some scope →
    scope.parent = some parent → ∃ outer, store.scope? parent = some outer

/-- The counts agree, and every scope that is alive has a handle or a child. -/
structure Accounts (store : Store) (ledger : Ledger) : Prop extends Counts store ledger where
  owned : ∀ {id : ScopeId} {scope : Scope}, store.scope? id = some scope → scope.isOwned = true

variable {store : Store} {ledger : Ledger}

/-- A parent had its number before the child was made. -/
theorem Counts.parent_lt (h : store.Counts ledger) {id parent : ScopeId} {scope : Scope}
    (hScope : store.scope? id = some scope) (hParent : scope.parent = some parent) : parent < id :=
  h.older (hParent ▸ h.parent hScope)

theorem Counts.storeOlder (h : store.Counts ledger) : store.Older :=
  fun _ _ _ => h.parent_lt

theorem mem_children_iff {id inner : ScopeId} :
    inner ∈ (Finset.range store.slots.size).filter (fun inner => store.isChildOf id inner) ↔
      store.isChildOf id inner = true := by
  rw [Finset.mem_filter, Finset.mem_range, and_iff_right_iff_imp]
  intro hChild
  obtain ⟨scope, hScope, -⟩ := isChildOf_iff.mp hChild
  exact lt_size_of_scope hScope

/-- Counting is only needed for whether there is any child. -/
theorem childCount_pos_iff {id : ScopeId} :
    0 < store.childCount id ↔ ∃ inner, store.isChildOf id inner = true := by
  rw [childCount, Finset.card_pos]
  exact exists_congr (fun inner => mem_children_iff)

theorem childCount_modify {id : ScopeId} {f : Scope → Scope}
    (hParent : ∀ scope, (f scope).parent = scope.parent) (parent : ScopeId) :
    (store.modify id f).childCount parent = store.childCount parent := by
  rw [childCount, childCount, size_modify, isChildOf_modify hParent]

theorem isChildOf_of_map {later : Store} {f : Scope → Scope} {id : ScopeId}
    (hScope : later.scope? id = (store.scope? id).map f)
    (hParent : ∀ scope, (f scope).parent = scope.parent) (parent : ScopeId) :
    later.isChildOf parent id = store.isChildOf parent id := by
  rw [isChildOf, isChildOf, hScope]
  cases store.scope? id with
  | none => rfl
  | some scope => simp [hParent]

def withChild (outer : Option ScopeId) (id : ScopeId) (scope : Scope) : Scope :=
  { scope with children := scope.children + if outer = some id then 1 else 0 }

def withoutChild (outer : Option ScopeId) (id : ScopeId) (scope : Scope) : Scope :=
  { scope with children := scope.children - if outer = some id then 1 else 0 }

/-- Between the two stores a scope was made that binds nothing, and the parent of it counts it. -/
structure Enters (store later : Store) (outer : Option ScopeId) : Prop where
  size : later.slots.size = store.slots.size + 1
  fresh : later.scope? store.slots.size = some (Scope.fresh outer)
  other : ∀ {id : ScopeId}, id ≠ store.slots.size →
    later.scope? id = (store.scope? id).map (withChild outer id)

/-- Between the two stores a scope was removed, and the parent of it no longer counts it. -/
structure Leaves (store later : Store) (id : ScopeId) (outer : Option ScopeId) : Prop where
  size : later.slots.size = store.slots.size
  gone : later.scope? id = none
  other : ∀ {other : ScopeId}, other ≠ id →
    later.scope? other = (store.scope? other).map (withoutChild outer other)

theorem enters_root (store : Store) : store.Enters store.root.2 none where
  size := Array.size_push _
  fresh := (store.scope?_push _ _).trans (if_pos rfl)
  other {id} hOld := by
    refine (store.scope?_push _ _).trans ((if_neg hOld).trans ?_)
    cases store.scope? id <;> rfl

/-- The count of the parent goes up as the child comes. -/
theorem enters_child (store : Store) (parent : ScopeId) :
    store.Enters (store.child parent).2 (some parent) where
  size := store.size_child parent
  fresh := store.scope?_child_new parent
  other {id} hOld := by
    rw [scope?_child, if_neg hOld]
    split
    next hSame =>
      subst hSame
      cases store.scope? id <;> simp [withChild]
    next hOther => cases store.scope? id <;> simp [withChild, Ne.symm hOther]

section

variable {later : Store} {outer : Option ScopeId} {id : ScopeId}

/-- No other scope gets a child. -/
theorem Enters.childCount (h : store.Enters later outer) (parent : ScopeId) :
    later.childCount parent = store.childCount parent + if outer = some parent then 1 else 0 := by
  have hOld : (Finset.range store.slots.size).filter (fun inner => later.isChildOf parent inner) =
      (Finset.range store.slots.size).filter (fun inner => store.isChildOf parent inner) := by
    refine Finset.filter_congr (fun inner hInner => ?_)
    rw [isChildOf_of_map (h.other (Nat.ne_of_lt (Finset.mem_range.mp hInner))) (fun _ => rfl)]
  have hNew : later.isChildOf parent store.slots.size = true ↔ outer = some parent := by
    rw [isChildOf, h.fresh]
    simp [Scope.fresh]
  rw [Store.childCount, h.size, Finset.range_add_one, Finset.filter_insert, hOld]
  by_cases hParent : outer = some parent
  · rw [if_pos (hNew.mpr hParent), if_pos hParent, Finset.card_insert_of_notMem (by simp)]
    rfl
  · rw [if_neg (fun hChild => hParent (hNew.mp hChild)), if_neg hParent]
    rfl

theorem Leaves.childCount (h : store.Leaves later id outer) {scope : Scope}
    (hScope : store.scope? id = some scope) (hOuter : scope.parent = outer) (parent : ScopeId) :
    later.childCount parent = store.childCount parent - if outer = some parent then 1 else 0 := by
  have hErase : (Finset.range store.slots.size).filter (fun inner => later.isChildOf parent inner) =
      ((Finset.range store.slots.size).filter (fun inner => store.isChildOf parent inner)).erase id := by
    ext inner
    rw [Finset.mem_erase, Finset.mem_filter, Finset.mem_filter]
    by_cases hSame : inner = id
    · simp [hSame, isChildOf, h.gone]
    · rw [isChildOf_of_map (h.other hSame) (fun _ => rfl)]
      simp [hSame]
  have hChild : store.isChildOf parent id = true ↔ outer = some parent := by
    rw [isChildOf, hScope, ← hOuter]
    simp
  rw [Store.childCount, h.size, hErase, Store.childCount]
  by_cases hParent : outer = some parent
  · rw [if_pos hParent]
    exact Finset.card_erase_of_mem (mem_children_iff.mpr (hChild.mpr hParent))
  · rw [if_neg hParent, Finset.erase_eq_of_notMem, Nat.sub_zero]
    rw [mem_children_iff]
    exact fun hMem => hParent (hChild.mp hMem)

/-- Every scope that is alive after one was made is the new one or was alive before. -/
theorem Enters.scope_cases (h : store.Enters later outer) {other : ScopeId} {scope : Scope}
    (hScope : later.scope? other = some scope) :
    (other = store.slots.size ∧ scope = Scope.fresh outer) ∨
      other ≠ store.slots.size ∧ ∃ old, store.scope? other = some old ∧
        scope = withChild outer other old := by
  by_cases hNew : other = store.slots.size
  · subst hNew
    rw [h.fresh] at hScope
    exact Or.inl ⟨rfl, (Option.some.inj hScope).symm⟩
  · rw [h.other hNew] at hScope
    obtain ⟨old, hOld, rfl⟩ := Option.map_eq_some_iff.mp hScope
    exact Or.inr ⟨hNew, old, hOld, rfl⟩

/-- No scope that was alive goes. -/
theorem Enters.scope_after (h : store.Enters later outer) {other : ScopeId} {scope : Scope}
    (hScope : store.scope? other = some scope) : later.scope? other = some (withChild outer other scope) := by
  rw [h.other (Nat.ne_of_lt (lt_size_of_scope hScope)), hScope, Option.map_some]

/-- What is left was there before, with one child less at most. -/
theorem Leaves.scope_before (h : store.Leaves later id outer) {other : ScopeId} {scope : Scope}
    (hScope : later.scope? other = some scope) :
    other ≠ id ∧ ∃ old, store.scope? other = some old ∧ scope = withoutChild outer other old := by
  by_cases hSame : other = id
  · rw [hSame, h.gone] at hScope
    cases hScope
  · rw [h.other hSame] at hScope
    obtain ⟨old, hOld, rfl⟩ := Option.map_eq_some_iff.mp hScope
    exact ⟨hSame, old, hOld, rfl⟩

/-- No handle is held on a scope whose number was not given yet, and it has no children. -/
theorem Counts.unheld_new (h : store.Counts ledger) : store.slots.size ∉ ledger.held := by
  intro hMem
  obtain ⟨scope, hScope⟩ := h.held _ hMem
  exact Nat.lt_irrefl _ (lt_size_of_scope hScope)

/-- Children name a parent that was alive, so the next number has none yet. -/
theorem Counts.childCount_new (h : store.Counts ledger) : store.childCount store.slots.size = 0 := by
  rw [← Nat.le_zero, ← Nat.not_lt, childCount_pos_iff]
  rintro ⟨inner, hInner⟩
  obtain ⟨scope, hScope, hParent⟩ := isChildOf_iff.mp hInner
  obtain ⟨around, hAround⟩ := h.outward hScope hParent
  exact Nat.lt_irrefl _ (lt_size_of_scope hAround)

theorem isOwned_iff {scope : Scope} : scope.isOwned = true ↔ 0 < scope.handles ∨ 0 < scope.children := by
  simp [Scope.isOwned]

/-- The ledger has the parent of the new scope behind all others, and the parents of those as before. -/
theorem Counts.parents_enter (h : store.Counts ledger) (outer : Option ScopeId) (id : ScopeId) :
    (ledger.enter outer).parents[id]? =
      if id = store.slots.size then some outer else ledger.parents[id]? := by
  rw [Ledger.enter, h.size]
  rcases Nat.lt_trichotomy id ledger.parents.length with hOld | rfl | hLarge
  · rw [List.getElem?_append_left hOld, if_neg (Nat.ne_of_lt hOld)]
  · rw [List.getElem?_concat_length, if_pos rfl]
  · rw [if_neg (Nat.ne_of_gt hLarge), List.getElem?_eq_none (Nat.le_of_lt hLarge),
      List.getElem?_eq_none (List.length_append ▸ hLarge)]

/-- One handle is held on the new scope, and on the others as many as before. -/
theorem Counts.count_enter (h : store.Counts ledger) (outer : Option ScopeId) (id : ScopeId) :
    (ledger.enter outer).held.count id = ledger.held.count id + if id = store.slots.size then 1 else 0 := by
  rw [Ledger.enter, List.count_cons, h.size]
  simp only [beq_iff_eq, @eq_comm _ id]

/-- The counts agree also when a scope has been made, whose parent was alive. -/
theorem Counts.enters (h : store.Counts ledger) (hEnters : store.Enters later outer)
    (hOuter : ∀ parent, outer = some parent → ∃ scope, store.scope? parent = some scope) :
    later.Counts (ledger.enter outer) where
  size := by
    rw [hEnters.size, h.size, Ledger.enter, List.length_append]
    rfl
  older {id parent} hParent := by
    rw [h.parents_enter] at hParent
    split at hParent
    next hNew =>
      obtain ⟨scope, hScope⟩ := hOuter parent (Option.some.inj hParent)
      exact hNew ▸ lt_size_of_scope hScope
    next => exact h.older hParent
  parent {id scope} hScope := by
    rw [h.parents_enter]
    rcases hEnters.scope_cases hScope with ⟨rfl, rfl⟩ | ⟨hOther, old, hOld, rfl⟩
    · exact if_pos rfl
    · rw [if_neg hOther, h.parent hOld]
      rfl
  handles {id scope} hScope := by
    rw [h.count_enter]
    rcases hEnters.scope_cases hScope with ⟨rfl, rfl⟩ | ⟨hOther, old, hOld, rfl⟩
    · rw [List.count_eq_zero_of_not_mem h.unheld_new, if_pos rfl]
      rfl
    · rw [if_neg hOther, Nat.add_zero, ← h.handles hOld]
      rfl
  children {id scope} hScope := by
    rw [hEnters.childCount]
    rcases hEnters.scope_cases hScope with ⟨rfl, rfl⟩ | ⟨-, old, hOld, rfl⟩
    · have hOther : outer ≠ some store.slots.size := by
        intro hSame
        obtain ⟨scope, hScope⟩ := hOuter _ hSame
        exact Nat.lt_irrefl _ (lt_size_of_scope hScope)
      rw [h.childCount_new, if_neg hOther]
      rfl
    · rw [← h.children hOld]
      rfl
  held id hHeld := by
    rcases List.mem_cons.mp hHeld with rfl | hHeld
    · rw [← h.size]
      exact ⟨_, hEnters.fresh⟩
    · obtain ⟨scope, hScope⟩ := h.held id hHeld
      exact ⟨_, hEnters.scope_after hScope⟩
  outward {id parent scope} hScope hParent := by
    have hAround : ∃ around, store.scope? parent = some around := by
      rcases hEnters.scope_cases hScope with ⟨rfl, rfl⟩ | ⟨-, old, hOld, rfl⟩
      · exact hOuter parent hParent
      · exact h.outward hOld hParent
    obtain ⟨around, hAround⟩ := hAround
    exact ⟨_, hEnters.scope_after hAround⟩

/-- A new scope is entered in the ledger. It is alive by the handle on it, and the others are as they were. -/
theorem Accounts.enters (h : store.Accounts ledger) (hEnters : store.Enters later outer)
    (hOuter : ∀ parent, outer = some parent → ∃ scope, store.scope? parent = some scope) :
    later.Accounts (ledger.enter outer) where
  toCounts := h.toCounts.enters hEnters hOuter
  owned {id scope} hScope := by
    rcases hEnters.scope_cases hScope with ⟨rfl, rfl⟩ | ⟨-, old, hOld, rfl⟩
    · rfl
    · exact isOwned_iff.mpr ((isOwned_iff.mp (h.owned hOld)).imp_right
        (fun hChildren => Nat.lt_of_lt_of_le hChildren (Nat.le_add_right _ _)))

/-- A scope that nothing owns may go without the ledger's taking notice. -/
theorem Counts.leaves (h : store.Counts ledger) {scope : Scope} (hScope : store.scope? id = some scope)
    (hOwned : scope.isOwned = false) (hLeaves : store.Leaves later id scope.parent) :
    later.Counts ledger := by
  have hNone : scope.handles = 0 ∧ scope.children = 0 := by
    simpa [Scope.isOwned] using hOwned
  have hUnheld : id ∉ ledger.held :=
    List.count_eq_zero.mp ((h.handles hScope).symm.trans hNone.1)
  have hChildless (inner : ScopeId) : store.isChildOf id inner ≠ true := by
    intro hChild
    have hPos := childCount_pos_iff.mpr ⟨inner, hChild⟩
    rw [← h.children hScope, hNone.2] at hPos
    exact Nat.lt_irrefl 0 hPos
  have hAlive {other : ScopeId} {now : Scope} (hNow : store.scope? other = some now) (hOther : other ≠ id) :
      ∃ now, later.scope? other = some now := by
    rw [hLeaves.other hOther, hNow]
    exact ⟨_, rfl⟩
  exact {
    size := by
      rw [hLeaves.size, h.size]
    older := h.older
    parent := fun {other now} hNow => by
      obtain ⟨-, old, hOld, rfl⟩ := hLeaves.scope_before hNow
      rw [h.parent hOld]
      rfl
    handles := fun {other now} hNow => by
      obtain ⟨-, old, hOld, rfl⟩ := hLeaves.scope_before hNow
      rw [← h.handles hOld]
      rfl
    children := fun {other now} hNow => by
      obtain ⟨-, old, hOld, rfl⟩ := hLeaves.scope_before hNow
      rw [hLeaves.childCount hScope rfl, ← h.children hOld]
      rfl
    held := fun other hHeld => by
      obtain ⟨now, hNow⟩ := h.held other hHeld
      refine hAlive hNow ?_
      rintro rfl
      exact hUnheld hHeld
    outward := fun {other parent now} hNow hParent => by
      obtain ⟨-, old, hOld, rfl⟩ := hLeaves.scope_before hNow
      obtain ⟨around, hAround⟩ := h.outward hOld hParent
      refine hAlive hAround ?_
      rintro rfl
      exact hChildless other (isChildOf_iff.mpr ⟨old, hOld, hParent⟩) }

end

/-- What collecting a scope does: nothing if it is gone or owned, and else it removes the scope and goes on
with its parent. -/
inductive Collects : Store → ScopeId → Store → Prop where
  | gone {store : Store} {id : ScopeId} (missing : store.scope? id = none) : Collects store id store
  | owned {store : Store} {id : ScopeId} {scope : Scope} (alive : store.scope? id = some scope)
      (owned : scope.isOwned = true) : Collects store id store
  | last {store later : Store} {id : ScopeId} {scope : Scope} (alive : store.scope? id = some scope)
      (unowned : scope.isOwned = false) (leaves : store.Leaves later id scope.parent)
      (outermost : scope.parent = none) : Collects store id later
  | further {store middle later : Store} {id parent : ScopeId} {scope : Scope}
      (alive : store.scope? id = some scope) (unowned : scope.isOwned = false)
      (leaves : store.Leaves middle id scope.parent) (outward : scope.parent = some parent)
      (others : Collects middle parent later) : Collects store id later

theorem Leaves.older {later : Store} {id : ScopeId} {outer : Option ScopeId}
    (h : store.Leaves later id outer) (hOlder : store.Older) : later.Older := by
  intro other parent scope hScope hParent
  obtain ⟨-, old, hOld, rfl⟩ := h.scope_before hScope
  exact hOlder other parent old hOld hParent

/-- The recursion ends since it goes on with older scopes only. -/
theorem Older.collects (h : store.Older) (id : ScopeId) : store.Collects id (store.collect id) := by
  induction id using Nat.strongRecOn generalizing store with
  | ind id ih =>
      let removed : Store := ⟨store.slots.modify id (fun _ => none)⟩
      have hRemoved (other : ScopeId) :
          removed.scope? other = if other = id then none else store.scope? other :=
        store.scope?_remove id other
      rw [collect]
      cases hScope : store.scope? id with
      | none => exact .gone hScope
      | some scope =>
          cases hOwned : scope.isOwned with
          | true =>
              simp only [hOwned, if_true]
              exact .owned hScope hOwned
          | false =>
              cases hParent : scope.parent with
              | none =>
                  simp only [hOwned, hParent, Bool.false_eq_true, if_false]
                  refine .last hScope hOwned ⟨Array.size_modify, ?_, fun {other} hOther => ?_⟩ hParent
                  · exact (hRemoved id).trans (if_pos rfl)
                  · refine (hRemoved other).trans ((if_neg hOther).trans ?_)
                    rw [hParent]
                    cases store.scope? other <;> rfl
              | some parent =>
                  have hYounger := h id parent scope hScope hParent
                  simp only [hOwned, hParent, Bool.false_eq_true, if_false, hYounger, if_true]
                  have hLeaves : store.Leaves (removed.modify parent (fun scope =>
                      { scope with children := scope.children - 1 })) id scope.parent := by
                    refine ⟨(size_modify _ _ _).trans Array.size_modify, ?_, fun {other} hOther => ?_⟩
                    · rw [scope?_modify, if_neg (Nat.ne_of_gt hYounger), hRemoved, if_pos rfl]
                    · rw [scope?_modify, hRemoved, hRemoved, if_neg hOther,
                        if_neg (Nat.ne_of_lt hYounger), hParent]
                      split
                      next hSame =>
                        subst hSame
                        cases store.scope? other <;> simp [withoutChild]
                      next hNot => cases store.scope? other <;> simp [withoutChild, Ne.symm hNot]
                  exact .further hScope hOwned hLeaves hParent (ih parent hYounger (hLeaves.older h))

/-- Collecting a scope sees to it that everything which is left is owned, if only that scope may not have
been. -/
theorem Counts.collects {later : Store} {id : ScopeId} (h : store.Counts ledger)
    (hCollects : store.Collects id later)
    (hOwned : ∀ other scope, other ≠ id → store.scope? other = some scope → scope.isOwned = true) :
    later.Accounts ledger := by
  induction hCollects with
  | gone missing =>
      refine ⟨h, fun {other scope} hOther => hOwned other scope ?_ hOther⟩
      rintro rfl
      rw [missing] at hOther
      cases hOther
  | @owned store id scope alive owned =>
      refine ⟨h, fun {other inner} hInner => ?_⟩
      by_cases hSame : other = id
      · rw [hSame, alive] at hInner
        cases hInner
        exact owned
      · exact hOwned other inner hSame hInner
  | @last store later id scope alive unowned leaves outermost =>
      refine ⟨h.leaves alive unowned leaves, fun {other inner} hInner => ?_⟩
      obtain ⟨hOther, old, hOld, rfl⟩ := leaves.scope_before hInner
      rw [outermost]
      exact hOwned other old hOther hOld
  | @further store middle later id parent scope alive unowned leaves outward _ ih =>
      refine ih (h.leaves alive unowned leaves) (fun other inner hOther hInner => ?_)
      obtain ⟨hLeft, old, hOld, rfl⟩ := leaves.scope_before hInner
      have hSame : withoutChild scope.parent other old = old := by
        rw [withoutChild, outward, if_neg (fun hParent => hOther (Option.some.inj hParent).symm)]
        rfl
      rw [hSame]
      exact hOwned other old hLeft hOld

/-- A change to one scope that leaves it where it is, with handles as the later ledger has them. -/
theorem Counts.modify (h : store.Counts ledger) {id : ScopeId} {f : Scope → Scope} {held : List ScopeId}
    (hHeld : held ⊆ ledger.held) (hChildren : ∀ scope, (f scope).children = scope.children)
    (hParent : ∀ scope, (f scope).parent = scope.parent)
    (hHandles : ∀ other scope, store.scope? other = some scope →
      (if other = id then f scope else scope).handles = held.count other) :
    (store.modify id f).Counts { ledger with held := held } := by
  have hSameChildren (other : ScopeId) (scope : Scope) :
      (if other = id then f scope else scope).children = scope.children := by
    split
    next => exact hChildren scope
    next => rfl
  have hSameParent (other : ScopeId) (scope : Scope) :
      (if other = id then f scope else scope).parent = scope.parent := by
    split
    next => exact hParent scope
    next => rfl
  exact {
    size := by
      rw [size_modify, h.size]
    older := h.older
    parent := fun {other now} hNow => by
      obtain ⟨old, hOld, rfl⟩ := scope_before_modify hNow
      rw [hSameParent]
      exact h.parent hOld
    handles := fun {other now} hNow => by
      obtain ⟨old, hOld, rfl⟩ := scope_before_modify hNow
      exact hHandles other old hOld
    children := fun {other now} hNow => by
      obtain ⟨old, hOld, rfl⟩ := scope_before_modify hNow
      rw [hSameChildren, childCount_modify hParent]
      exact h.children hOld
    held := fun other hMem => by
      obtain ⟨scope, hScope⟩ := h.held other (hHeld hMem)
      exact ⟨_, scope_after_modify hScope⟩
    outward := fun {other parent now} hNow hAround => by
      obtain ⟨old, hOld, rfl⟩ := scope_before_modify hNow
      obtain ⟨around, hOuter⟩ := h.outward hOld ((hSameParent other old).symm.trans hAround)
      exact ⟨_, scope_after_modify hOuter⟩ }

/-- What a scope binds does not matter to the accounts. -/
theorem Accounts.modify (h : store.Accounts ledger) {id : ScopeId} {f : Scope → Scope}
    (hHandles : ∀ scope, (f scope).handles = scope.handles)
    (hChildren : ∀ scope, (f scope).children = scope.children)
    (hParent : ∀ scope, (f scope).parent = scope.parent) : (store.modify id f).Accounts ledger := by
  refine ⟨h.toCounts.modify (List.Subset.refl _) hChildren hParent (fun other scope hScope => ?_),
    fun {other now} hNow => ?_⟩
  · rw [← h.handles hScope]
    split
    next => exact hHandles scope
    next => rfl
  · obtain ⟨old, hOld, rfl⟩ := scope_before_modify hNow
    have hOwned := h.owned hOld
    split
    next => rwa [Scope.isOwned, hHandles, hChildren]
    next => exact hOwned

/-- The ledger strikes out a handle that is given up. -/
theorem Accounts.release (h : store.Accounts ledger) (id : ScopeId) :
    (store.release id).Accounts { ledger with held := ledger.held.erase id } := by
  have hCounts :
      (store.modify id (fun scope => { scope with handles := scope.handles - 1 })).Counts
        { ledger with held := ledger.held.erase id } := by
    refine h.toCounts.modify List.erase_subset (fun _ => rfl) (fun _ => rfl) (fun other scope hScope => ?_)
    split
    next hSame => rw [hSame, List.count_erase_self, ← h.handles (hSame ▸ hScope)]
    next hOther => rw [List.count_erase_of_ne hOther, h.handles hScope]
  refine hCounts.collects (hCounts.storeOlder.collects id) (fun other now hOther hNow => ?_)
  obtain ⟨old, hOld, rfl⟩ := scope_before_modify hNow
  rw [if_neg hOther]
  exact h.owned hOld

/-- The ledger is right after every request that it permits. -/
theorem Accounts.serve (h : store.Accounts ledger) {request : Request} (hPermits : ledger.Permits request) :
    (store.serve request).Accounts (ledger.note request) := by
  cases request with
  | root => exact h.enters store.enters_root nofun
  | child parent =>
      refine h.enters (store.enters_child parent) (fun outer hOuter => ?_)
      cases hOuter
      exact h.held parent (hPermits parent rfl)
  | drop id => exact h.release id
  | declareVariable id name value =>
      rw [Store.serve, declareVariable]
      split
      next => exact h
      next => exact h.modify (fun _ => rfl) (fun _ => rfl) (fun _ => rfl)
  | declareFunction id name callable =>
      rw [Store.serve, declareFunction]
      split
      next => exact h
      next => exact h.modify (fun _ => rfl) (fun _ => rfl) (fun _ => rfl)
  | setVariable id name value =>
      rw [Store.serve, setVariable]
      split
      next => exact h
      next => exact h.modify (fun _ => rfl) (fun _ => rfl) (fun _ => rfl)

/-- The step for one request, carried through all of them. -/
theorem Accounts.serveAll (h : store.Accounts ledger) {requests : List Request}
    (hPermits : ledger.PermitsAll requests) :
    (store.serveAll requests).Accounts (ledger.noteAll requests) := by
  induction requests generalizing store ledger with
  | nil => exact h
  | cons request requests ih => exact ih (h.serve hPermits.1) hPermits.2

theorem accounts_empty : Store.empty.Accounts Ledger.empty := by
  have hNone {id : ScopeId} {scope : Scope} (hScope : Store.empty.scope? id = some scope) : False := by
    cases hScope
  refine ⟨⟨rfl, nofun, ?_, ?_, ?_, nofun, ?_⟩, ?_⟩
  · exact fun hScope => (hNone hScope).elim
  · exact fun hScope => (hNone hScope).elim
  · exact fun hScope => (hNone hScope).elim
  · exact fun hScope => (hNone hScope).elim
  · exact fun hScope => (hNone hScope).elim

/-- Whatever is asked for with the handles that are held, the ledger is right afterwards. -/
theorem accounts_serveAll {requests : List Request} (hPermits : Ledger.empty.PermitsAll requests) :
    (Store.empty.serveAll requests).Accounts (Ledger.empty.noteAll requests) :=
  accounts_empty.serveAll hPermits

end Store

end IntScript
