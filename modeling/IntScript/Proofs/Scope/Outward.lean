import IntScript.Proofs.Scope.LexicalLookup
import IntScript.Proofs.Scope.Lifetimes

/-! Walks outward from a scope along the links to parents. They are given as they are made, and nothing in
them looks at the age of a scope: it is asked, or borrowed so that it may be changed, and then its parent
is. A walk may use a number of calls within each other, and it ends if some number is enough. Where parents
are older than their children, and alive as long as these are, every walk ends, comes to no scope twice,
and does what the store says. -/
namespace IntScript

namespace Store

variable {α : Type} {store : Store}

/-- Ask the scopes from `id` outward for an entry. The result is the scopes that were asked, in their
order, and the entry if one of them had it. There is none if more calls are needed within each other, or if
the walk leads to a scope that is gone. -/
def ask (store : Store) (read : Scope → Option α) : Nat → ScopeId → Option (List ScopeId × Option α)
  | 0, _ => none
  | depth + 1, id => do
      let scope ← store.scope? id
      match read scope with
      | some entry => return ([id], some entry)
      | none =>
          match scope.parent with
          | none => return ([id], none)
          | some parent =>
              (store.ask read depth parent).map (fun result => (id :: result.1, result.2))

/-- What comes of a walk on which every scope stays borrowed until the walk is over. -/
inductive Borrowing where
  /-- The scopes that were borrowed, the last one first, and what was done. -/
  | done (borrowed : List ScopeId) (outcome : Except ScopeError Unit × Store)
  /-- A scope would have to be borrowed that is borrowed already. -/
  | conflict (id : ScopeId)

/-- Borrow the scopes from `id` outward, up to the first one that declares the variable, and change it
there. There is no result if more calls are needed within each other, or if the walk leads to a scope that
is gone. -/
def assign (store : Store) (name : Name) (value : Int32) :
    Nat → List ScopeId → ScopeId → Option Borrowing
  | 0, _, _ => none
  | depth + 1, borrowed, id =>
      if id ∈ borrowed then
        return .conflict id
      else do
        let scope ← store.scope? id
        if scope.integers.has name then
          return .done (id :: borrowed) (.ok (), store.modify id (fun scope =>
            { scope with integers := scope.integers.put name value }))
        else
          match scope.parent with
          | none => return .done (id :: borrowed) (.error (.undefinedVariable name), store)
          | some parent => store.assign name value depth (id :: borrowed) parent

/-- Parents are older than their children and alive as long as these are. -/
structure Linked (store : Store) : Prop where
  older : store.Older
  outward : ∀ {id parent : ScopeId} {scope : Scope}, store.scope? id = some scope →
    scope.parent = some parent → ∃ outer, store.scope? parent = some outer

/-- Counting children keeps a parent alive as long as one of them is. -/
theorem Counts.linked {ledger : Ledger} (h : store.Counts ledger) : store.Linked :=
  ⟨h.storeOlder, h.outward⟩

/-- During a run the parents of held scopes are held. -/
theorem Holds.linked {held : List ScopeId} (h : store.Holds held) : store.Linked :=
  ⟨h.older, fun hScope hParent => h.exists_scope (h.parent hScope hParent).2⟩

/-- One call for the scope, and the others for its parents, which are older. So the number of the
scope is depth enough. -/
theorem ask_of_lt {read : Scope → Option α} {depth : Nat} {id : ScopeId} {scope : Scope}
    (hDepth : id < depth) (hScope : store.scope? id = some scope) :
    store.ask read depth id =
      match read scope, scope.parent with
      | some entry, _ => some ([id], some entry)
      | none, none => some ([id], none)
      | none, some parent =>
          (store.ask read (depth - 1) parent).map (fun result => (id :: result.1, result.2)) := by
  cases depth with
  | zero => exact absurd hDepth (Nat.not_lt_zero id)
  | succ depth =>
      rw [ask, hScope, Option.bind_eq_bind, Option.bind_some]
      cases read scope with
      | some entry => rfl
      | none =>
          cases scope.parent <;> rfl

/-- A scope that is not borrowed yet is borrowed here, and the walk goes on to its parent. -/
theorem assign_of_lt {name : Name} {value : Int32} {depth : Nat} {borrowed : List ScopeId}
    {id : ScopeId} {scope : Scope} (hDepth : id < depth) (hNew : id ∉ borrowed)
    (hScope : store.scope? id = some scope) :
    store.assign name value depth borrowed id =
      if scope.integers.has name then
        some (.done (id :: borrowed) (.ok (), store.modify id (fun scope =>
          { scope with integers := scope.integers.put name value })))
      else
        match scope.parent with
        | none => some (.done (id :: borrowed) (.error (.undefinedVariable name), store))
        | some parent => store.assign name value (depth - 1) (id :: borrowed) parent := by
  cases depth with
  | zero => exact absurd hDepth (Nat.not_lt_zero id)
  | succ depth =>
      rw [assign, if_neg hNew, hScope]
      rfl

/-- A walk that asks for the entry of a name ends with what a look-up takes. It comes to older and older
scopes, so it needs no more calls than there are scopes up to the first. -/
theorem Linked.ask (h : store.Linked) (table : Scope → Table α) (name : Name) {id : ScopeId}
    {scope : Scope} (hScope : store.scope? id = some scope) :
    ∃ asked, (∀ depth : Nat, id < depth → store.ask (fun scope => (table scope).get? name) depth id =
        some (asked, store.lookup? table id name)) ∧
      asked.Pairwise (· > ·) ∧ ∀ other ∈ asked, other ≤ id := by
  induction id using Nat.strongRecOn generalizing scope with
  | ind id ih =>
      rw [h.older.lookup?_eq, hScope, Option.bind_some]
      cases hEntry : (table scope).get? name with
      | some entry =>
          refine ⟨[id], fun depth hDepth => ?_, List.pairwise_singleton _ _, by simp⟩
          rw [ask_of_lt hDepth hScope]
          simp only [hEntry, Option.some_or]
      | none =>
          rw [Option.none_or]
          cases hParent : scope.parent with
          | none =>
              refine ⟨[id], fun depth hDepth => ?_, List.pairwise_singleton _ _, by simp⟩
              rw [ask_of_lt hDepth hScope]
              simp only [hEntry, hParent, Option.bind_none]
          | some parent =>
              obtain ⟨outer, hOuter⟩ := h.outward hScope hParent
              have hOlder := h.older id parent scope hScope hParent
              obtain ⟨asked, hAsked, hDescending, hLast⟩ := ih parent hOlder hOuter
              have hBelow : ∀ other ∈ asked, other < id := fun other hOther =>
                Nat.lt_of_le_of_lt (hLast other hOther) hOlder
              refine ⟨id :: asked, fun depth hDepth => ?_, List.pairwise_cons.mpr ⟨hBelow, hDescending⟩,
                List.forall_mem_cons.mpr ⟨Nat.le_refl id, fun other hOther =>
                  Nat.le_of_lt (hBelow other hOther)⟩⟩
              have hFurther := hAsked (depth - 1) (Nat.lt_of_lt_of_le hOlder (Nat.le_sub_one_of_lt hDepth))
              rw [ask_of_lt hDepth hScope]
              simp only [hEntry, hParent, hFurther, Option.map_some, Option.bind_some]

/-- A new value goes into the scope itself if it declares the variable, and else where it would go from
the parent. -/
theorem Older.setVariable_eq (h : store.Older) (name : Name) (value : Int32) {id : ScopeId}
    {scope : Scope} (hScope : store.scope? id = some scope) :
    store.setVariable id name value =
      if scope.integers.has name then
        (.ok (), store.modify id (fun scope =>
          { scope with integers := scope.integers.put name value }))
      else
        match scope.parent with
        | none => (.error (.undefinedVariable name), store)
        | some parent => store.setVariable parent name value := by
  rw [setVariable, nearest?, hScope]
  cases hHas : scope.integers.has name with
  | true => simp only [hHas, if_true]
  | false =>
      simp only [hHas, Bool.false_eq_true, if_false]
      cases hParent : scope.parent with
      | none => rfl
      | some parent =>
          simp only [if_pos (h id parent scope hScope hParent)]
          rfl

/-- A walk on which scopes stay borrowed ends with what is done to the variable, and no scope is borrowed
twice, if all scopes that are borrowed at first are younger. -/
theorem Linked.assign (h : store.Linked) (name : Name) (value : Int32) {id : ScopeId} {scope : Scope}
    (hScope : store.scope? id = some scope) {borrowed : List ScopeId}
    (hYounger : ∀ other ∈ borrowed, id < other) (hDistinct : borrowed.Nodup) :
    ∃ all, (∀ depth : Nat, id < depth → store.assign name value depth borrowed id =
        some (.done all (store.setVariable id name value))) ∧ all.Nodup := by
  induction id using Nat.strongRecOn generalizing scope borrowed with
  | ind id ih =>
      have hNew : id ∉ borrowed := fun hMem => Nat.lt_irrefl id (hYounger id hMem)
      have hNow : (id :: borrowed).Nodup := List.nodup_cons.mpr ⟨hNew, hDistinct⟩
      rw [h.older.setVariable_eq name value hScope]
      cases hHas : scope.integers.has name with
      | true =>
          refine ⟨id :: borrowed, fun depth hDepth => ?_, hNow⟩
          rw [assign_of_lt hDepth hNew hScope, if_pos hHas, if_pos rfl]
      | false =>
          cases hParent : scope.parent with
          | none =>
              refine ⟨id :: borrowed, fun depth hDepth => ?_, hNow⟩
              rw [assign_of_lt hDepth hNew hScope, hHas, hParent]
              rfl
          | some parent =>
              obtain ⟨outer, hOuter⟩ := h.outward hScope hParent
              have hOlder := h.older id parent scope hScope hParent
              have hStill : ∀ other ∈ id :: borrowed, parent < other :=
                List.forall_mem_cons.mpr ⟨hOlder, fun other hOther =>
                  Nat.lt_trans hOlder (hYounger other hOther)⟩
              obtain ⟨all, hAll, hOnce⟩ := ih parent hOlder hOuter hStill hNow
              refine ⟨all, fun depth hDepth => ?_, hOnce⟩
              rw [assign_of_lt hDepth hNew hScope, hHas, hParent]
              exact hAll (depth - 1) (Nat.lt_of_lt_of_le hOlder (Nat.le_sub_one_of_lt hDepth))

/-- Walks from the scope end with what the store finds there and does there, and each of them comes to
different scopes only. -/
structure Walks (store : Store) (id : ScopeId) : Prop where
  integer : ∀ name, ∃ asked entry,
    (∀ depth : Nat, id < depth →
      store.ask (fun scope => scope.integers.get? name) depth id = some (asked, entry)) ∧
    asked.Nodup ∧ store.getVariable id name = answer (.undefinedVariable name) entry
  function : ∀ name, ∃ asked entry,
    (∀ depth : Nat, id < depth →
      store.ask (fun scope => scope.functions.get? name) depth id = some (asked, entry)) ∧
    asked.Nodup ∧ store.getFunction id name = answer (.undefinedFunction name) entry
  assigned : ∀ name value, ∃ borrowed,
    (∀ depth : Nat, id < depth →
      store.assign name value depth [] id = some (.done borrowed (store.setVariable id name value))) ∧
    borrowed.Nodup

/-- The walks end because parents are older, and come to no scope twice for the same reason. -/
theorem Linked.walks (h : store.Linked) {id : ScopeId} (hLive : store.isLive id = true) :
    store.Walks id := by
  obtain ⟨scope, hScope⟩ := isLive_iff.mp hLive
  refine ⟨fun name => ?_, fun name => ?_, fun name value => ?_⟩
  · obtain ⟨asked, hAsked, hDescending, -⟩ := h.ask Scope.integers name hScope
    exact ⟨asked, _, hAsked, hDescending.imp Nat.ne_of_gt, store.getVariable_eq id name⟩
  · obtain ⟨asked, hAsked, hDescending, -⟩ := h.ask Scope.functions name hScope
    exact ⟨asked, _, hAsked, hDescending.imp Nat.ne_of_gt, store.getFunction_eq id name⟩
  · exact h.assign name value hScope (by simp) List.nodup_nil

/-- From one store to the next, no scope got another parent, and one that is new has none or one that was
alive before. -/
structure Grows (store later : Store) : Prop where
  size : store.slots.size ≤ later.slots.size
  parent : ∀ {id : ScopeId} {scope : Scope}, later.scope? id = some scope →
    (∃ old, store.scope? id = some old ∧ old.parent = scope.parent) ∨
      store.slots.size ≤ id ∧ ∀ parent, scope.parent = some parent →
        ∃ outer, store.scope? parent = some outer

section

variable {later : Store} {added : ScopeId → Binding → Prop}

theorem Changes.grows (h : store.Changes later added) : store.Grows later :=
  ⟨Nat.le_of_eq h.size.symm, fun hScope => Or.inl (h.parent hScope)⟩

/-- The parent of a new scope is alive together with it, and is another scope. -/
theorem Opens.grows {parent : ScopeId} (h : store.Opens later parent added) (hLinked : later.Linked) :
    store.Grows later := by
  refine ⟨h.size ▸ Nat.le_succ _, fun {id scope} hScope => ?_⟩
  rcases h.parent hScope with ⟨rfl, -⟩ | hOld
  · refine Or.inr ⟨Nat.le_refl _, fun outer hOuter => ?_⟩
    have hOlder := hLinked.older _ outer scope hScope hOuter
    obtain ⟨around, hAround⟩ := hLinked.outward hScope hOuter
    rcases h.parent hAround with ⟨hNew, -⟩ | ⟨old, hOld, -⟩
    · exact absurd hNew (Nat.ne_of_lt hOlder)
    · exact ⟨old, hOld⟩
  · exact Or.inl hOld

theorem Collects.parent {id : ScopeId} (h : store.Collects id later) {other : ScopeId} {scope : Scope}
    (hScope : later.scope? other = some scope) :
    ∃ old, store.scope? other = some old ∧ old.parent = scope.parent := by
  induction h generalizing scope with
  | gone | owned => exact ⟨scope, hScope, rfl⟩
  | last _ _ leaves _ =>
      obtain ⟨-, old, hOld, rfl⟩ := leaves.scope_before hScope
      exact ⟨old, hOld, rfl⟩
  | further _ _ leaves _ _ ih =>
      obtain ⟨middle, hMiddle, hSame⟩ := ih hScope
      obtain ⟨-, old, hOld, rfl⟩ := leaves.scope_before hMiddle
      exact ⟨old, hOld, hSame⟩

/-- Giving up removes scopes and leaves the links of all others. -/
theorem Older.grows_release (h : store.Older) (id : ScopeId) : store.Grows (store.release id) := by
  have hCollects := ((store.changes_giveUp id).older h).collects id
  refine ⟨Nat.le_of_eq (store.size_release id).symm, fun {other scope} hScope => Or.inl ?_⟩
  obtain ⟨middle, hMiddle, hSame⟩ := hCollects.parent hScope
  obtain ⟨old, hOld, hBefore⟩ := (store.changes_giveUp id).parent hMiddle
  exact ⟨old, hOld, hBefore.trans hSame⟩

/-- Whatever is asked of a store with a handle that is held, the links to parents only become more. -/
theorem Accounts.grows_serve {ledger : Ledger} (h : store.Accounts ledger) {request : Request}
    (hPermits : ledger.Permits request) : store.Grows (store.serve request) := by
  cases request with
  | root =>
      refine ⟨store.enters_root.size ▸ Nat.le_succ _, fun {id scope} hScope => ?_⟩
      rcases store.enters_root.scope_cases hScope with ⟨rfl, rfl⟩ | ⟨-, old, hOld, rfl⟩
      · exact Or.inr ⟨Nat.le_refl _, nofun⟩
      · exact Or.inl ⟨old, hOld, rfl⟩
  | child parent =>
      exact (store.opens_child parent (fun _ _ => False)).grows (h.serve hPermits).toCounts.linked
  | drop id => exact h.toCounts.storeOlder.grows_release id
  | declareVariable id name value => exact (store.changes_declareVariable id name value).grows
  | declareFunction id name callable => exact (store.changes_declareFunction id name callable).grows
  | setVariable id name value =>
      have hChanges : store.Changes (store.setVariable id name value).2 (fun _ _ => False) :=
        changes_setVariable store id name value
      exact hChanges.grows

end

section

variable {stores : Nat → Store} (hGrows : ∀ moment, (stores moment).Grows (stores (moment + 1)))

include hGrows

/-- A scope that was made by some moment, and is alive later on, was alive then and had the same parent. -/
theorem parent_kept {moment later : Nat} (hLater : moment ≤ later) {id : ScopeId} {scope : Scope}
    (hScope : (stores later).scope? id = some scope) (hMade : id < (stores moment).slots.size) :
    ∃ old, (stores moment).scope? id = some old ∧ old.parent = scope.parent := by
  induction later, hLater using Nat.le_induction generalizing scope with
  | base => exact ⟨scope, hScope, rfl⟩
  | succ later hLater ih =>
      rcases (hGrows later).parent hScope with ⟨middle, hMiddle, hSame⟩ | ⟨hNew, -⟩
      · obtain ⟨old, hOld, hBefore⟩ := ih hMiddle
        exact ⟨old, hOld, hBefore.trans hSame⟩
      · have hSize := monotone_nat_of_le_succ (fun moment => (hGrows moment).size) hLater
        exact absurd (Nat.le_trans hSize hNew) (Nat.not_le_of_lt hMade)

/-- At some moment the parent was alive and the scope was not made yet. -/
theorem exists_parent_before (hStart : ∀ id scope, (stores 0).scope? id = some scope → scope.parent = none)
    {moment : Nat} {id parent : ScopeId} {scope : Scope}
    (hScope : (stores moment).scope? id = some scope) (hParent : scope.parent = some parent) :
    ∃ earlier < moment, (stores earlier).isLive parent = true ∧
      (stores earlier).slots.size ≤ id := by
  induction moment generalizing scope with
  | zero =>
      rw [hStart id scope hScope] at hParent
      cases hParent
  | succ moment ih =>
      rcases (hGrows moment).parent hScope with ⟨old, hOld, hSame⟩ | ⟨hNew, hAlive⟩
      · obtain ⟨earlier, hEarlier, hBefore⟩ := ih hOld (hSame.trans hParent)
        exact ⟨earlier, Nat.lt_succ_of_lt hEarlier, hBefore⟩
      · exact ⟨moment, Nat.lt_succ_self moment, isLive_iff.mpr (hAlive parent hParent), hNew⟩

end

end Store

end IntScript
