import IntScript.Proofs.Scope.Bindings

/-! What work in one scope may do to the scopes that there are when it begins: it declares in that scope
what its own statements declare, it gives new values to variables that can be seen from there, and it
leaves everything else as it is. -/
namespace IntScript

namespace Store

/-- The second scope is the first or one around it. -/
inductive Chain (store : Store) : ScopeId → ScopeId → Prop where
  | here (id : ScopeId) : Chain store id id
  | outward {id parent owner : ScopeId} {scope : Scope} (hScope : store.scope? id = some scope)
      (hParent : scope.parent = some parent) (further : Chain store parent owner) : Chain store id owner

theorem Chain.parent {store : Store} {id owner around : ScopeId} {scope : Scope}
    (h : store.Chain id owner) (hScope : store.scope? owner = some scope)
    (hParent : scope.parent = some around) : store.Chain id around := by
  induction h with
  | here id => exact Chain.outward hScope hParent (Chain.here around)
  | outward hFirst hFirstParent _ ih => exact Chain.outward hFirst hFirstParent (ih hScope)

section

variable {store : Store} {top : ScopeId} {held : List ScopeId}

/-- Only the scope that is given up goes; the others bind what they did. -/
theorem Holds.scope?_after_release (h : store.Holds (top :: held)) (hMore : held ≠ []) {id : ScopeId}
    {scope : Scope} (hScope : store.scope? id = some scope) (hOther : id ≠ top) :
    ∃ later, (store.release top).scope? id = some later ∧ later.integers = scope.integers ∧
      later.functions = scope.functions := by
  have hHeld := (List.mem_cons.mp (h.mem_of_scope hScope)).resolve_left hOther
  obtain ⟨later, hLater, hIntegers, hFunctions, -⟩ := h.keeps_release hMore id hHeld scope hScope
  exact ⟨later, hLater, hIntegers, hFunctions⟩

/-- The way outward from a scope is the same as before. -/
theorem Holds.chain_of_release (h : store.Holds (top :: held)) (hMore : held ≠ []) {id owner : ScopeId}
    (hChain : (store.release top).Chain id owner) : store.Chain id owner := by
  induction hChain with
  | here id => exact Chain.here id
  | outward hScope hParent _ ih =>
      obtain ⟨-, old, hOld, rfl⟩ := h.scope_before_release hMore hScope
      exact Chain.outward hOld hParent ih

end

end Store

namespace Scope

/-- The scope binds what it did; only the values of its variables may have changed. -/
structure Revalued (scope later : Scope) : Prop where
  functions : later.functions = scope.functions
  integers : ∀ name, later.integers.has name = scope.integers.has name

/-- The scope binds what it did, and besides only what the statements declare, under names that were
free. No function is replaced, but variables may have other values. -/
structure Enlarged (id : ScopeId) (block : Block) (scope later : Scope) : Prop where
  functions : ∃ added, later.functions = added ++ scope.functions ∧ ∀ entry ∈ added,
    scope.functions.has entry.1 = false ∧ ∃ parameters body,
      .function entry.1 parameters body ∈ block ∧ entry.2 = .user ⟨entry.1, parameters, body⟩ id
  kept : ∀ name, scope.integers.has name = true → later.integers.has name = true
  integers : ∀ name, later.integers.has name = true →
    scope.integers.has name = true ∨ ∃ value, .declare name value ∈ block

variable {id : ScopeId} {block : Block} {scope middle later : Scope}

theorem Enlarged.refl (id : ScopeId) (block : Block) (scope : Scope) : scope.Enlarged id block scope := by
  constructor
  · exact ⟨[], rfl, fun entry hEntry => absurd hEntry List.not_mem_nil⟩
  · exact fun _ hHas => hHas
  · exact fun _ hHas => Or.inl hHas

theorem Enlarged.trans (h : scope.Enlarged id block middle) (further : middle.Enlarged id block later) :
    scope.Enlarged id block later := by
  obtain ⟨first, hFirst, hFirstNew⟩ := h.functions
  obtain ⟨second, hSecond, hSecondNew⟩ := further.functions
  constructor
  · refine ⟨second ++ first, by rw [hSecond, hFirst, List.append_assoc], fun entry hEntry => ?_⟩
    rcases List.mem_append.mp hEntry with hLate | hEarly
    · obtain ⟨hFree, hStands⟩ := hSecondNew entry hLate
      rw [hFirst, Table.has, List.any_append, Bool.or_eq_false_iff] at hFree
      exact ⟨hFree.2, hStands⟩
    · exact hFirstNew entry hEarly
  · exact fun name hHas => further.kept name (h.kept name hHas)
  · intro name hHas
    rcases further.integers name hHas with hMiddle | hDeclared
    · exact h.integers name hMiddle
    · exact Or.inr hDeclared

/-- What a scope is kept alive by does not matter. -/
theorem Enlarged.of_eq (h : scope.Enlarged id block middle) (hIntegers : later.integers = middle.integers)
    (hFunctions : later.functions = middle.functions) : scope.Enlarged id block later := by
  constructor
  · rw [hFunctions]
    exact h.functions
  · rw [hIntegers]
    exact h.kept
  · rw [hIntegers]
    exact h.integers

/-- Where nothing may be declared, only values change. -/
theorem Enlarged.revalued (h : scope.Enlarged id [] later) : scope.Revalued later := by
  obtain ⟨added, hAdded, hStands⟩ := h.functions
  constructor
  · cases added with
    | nil => exact hAdded
    | cons entry added =>
        obtain ⟨-, parameters, body, hMem, -⟩ := hStands entry List.mem_cons_self
        cases hMem
  · intro name
    rw [Bool.eq_iff_iff]
    constructor
    · intro hHas
      rcases h.integers name hHas with hOld | ⟨value, hMem⟩
      · exact hOld
      · cases hMem
    · exact h.kept name

/-- An assignment changes a value and no more. -/
theorem enlarged_put (id : ScopeId) (block : Block) (scope : Scope) (name : Name) (value : Int32) :
    scope.Enlarged id block { scope with integers := scope.integers.put name value } := by
  constructor
  · exact ⟨[], rfl, fun entry hEntry => absurd hEntry List.not_mem_nil⟩
  · intro other hHas
    rwa [Table.has_put]
  · intro other hHas
    rw [Table.has_put] at hHas
    exact Or.inl hHas

/-- The name was free, or the declaration would have been refused. -/
theorem enlarged_declareVariable {name : Name} {initial : Expr} (id : ScopeId) (scope : Scope)
    (value : Int32) (hStands : .declare name initial ∈ block) :
    scope.Enlarged id block { scope with integers := (name, value) :: scope.integers } := by
  constructor
  · exact ⟨[], rfl, fun entry hEntry => absurd hEntry List.not_mem_nil⟩
  · intro other hHas
    exact (Bool.or_eq_true _ _).mpr (Or.inr hHas)
  · intro other hHas
    rcases (Bool.or_eq_true _ _).mp hHas with hNew | hOld
    · have hSame : name = other := by simpa using hNew
      exact Or.inr ⟨initial, hSame ▸ hStands⟩
    · exact Or.inl hOld

/-- A function is declared with the body that its statement has, and in this scope. -/
theorem enlarged_declareFunction {name : Name} {parameters : List Name} {body : Block} (id : ScopeId)
    (hFree : scope.functions.has name = false) (hStands : .function name parameters body ∈ block) :
    scope.Enlarged id block
      { scope with functions := (name, .user ⟨name, parameters, body⟩ id) :: scope.functions } := by
  constructor
  · refine ⟨[(name, .user ⟨name, parameters, body⟩ id)], rfl, fun entry hEntry => ?_⟩
    obtain rfl := List.mem_singleton.mp hEntry
    exact ⟨hFree, parameters, body, hStands, rfl⟩
  · exact fun _ hHas => hHas
  · exact fun _ hHas => Or.inl hHas

end Scope

/-- A scope in which work is done, with the scopes that there are when it begins and the statements of
the work that stand in that scope itself. -/
structure Region where
  before : Store
  scope : ScopeId
  block : Block

namespace Region

def New (region : Region) (id : ScopeId) : Prop :=
  region.before.slots.size ≤ id

/-- The work goes on in this scope: the one it began in or one it has made. -/
def Inside (region : Region) (id : ScopeId) : Prop :=
  region.New id ∨ id = region.scope

/-- What the scope binds can be found by the work. -/
def Sees (region : Region) (id : ScopeId) : Prop :=
  region.New id ∨ region.before.Chain region.scope id

/-- The statements may be executed in the scope: any in a new one, and those of the work itself where it
began. -/
def Runs (region : Region) (id : ScopeId) (block : Block) : Prop :=
  region.New id ∨ id = region.scope ∧ block ⊆ region.block

/-- The function may be called: it was declared where the work can see. -/
def Admits (region : Region) : Callable → Prop
  | .builtin _ => True
  | .user _ home => region.Sees home

/-- The statements that may declare something in a scope that was there before. -/
def declarations (region : Region) (id : ScopeId) : Block :=
  if id = region.scope then region.block else []

/-- Of the scopes that were there, none is lost; those that the work can see bind what they did and what
it may declare in them, and the others bind exactly what they did. What the work can see is closed
outward. -/
structure Respects (region : Region) (store : Store) : Prop where
  size : region.before.slots.size ≤ store.slots.size
  known : ∀ {id : ScopeId} {later : Scope}, store.scope? id = some later →
    region.New id ∨ ∃ scope, region.before.scope? id = some scope
  kept : ∀ {id : ScopeId} {scope : Scope}, region.before.scope? id = some scope →
    ∃ later, store.scope? id = some later ∧
      (region.before.Chain region.scope id → scope.Enlarged id (region.declarations id) later) ∧
      (¬ region.before.Chain region.scope id →
        later.integers = scope.integers ∧ later.functions = scope.functions)
  outward : ∀ {id parent : ScopeId} {scope : Scope}, store.scope? id = some scope →
    scope.parent = some parent → region.Sees id → region.Sees parent

variable {region : Region} {store : Store} {held : List ScopeId}

theorem Runs.inside {id : ScopeId} {block : Block} (h : region.Runs id block) : region.Inside id :=
  h.imp_right And.left

/-- Fewer statements declare no more. -/
theorem Runs.mono {id : ScopeId} {block fewer : Block} (h : region.Runs id block)
    (hFewer : fewer ⊆ block) : region.Runs id fewer :=
  h.imp_right (fun hHere => ⟨hHere.1, fun _ hMem => hHere.2 (hFewer hMem)⟩)

theorem Inside.sees {id : ScopeId} (h : region.Inside id) : region.Sees id := by
  rcases h with hNew | rfl
  · exact Or.inl hNew
  · exact Or.inr (Store.Chain.here _)

theorem respects_before (region : Region) : region.Respects region.before where
  size := Nat.le_refl _
  known {id later} hLater := Or.inr ⟨later, hLater⟩
  kept {id scope} hScope := ⟨scope, hScope, fun _ => Scope.Enlarged.refl id _ scope, fun _ => ⟨rfl, rfl⟩⟩
  outward {id parent scope} hScope hParent hSees := by
    rcases hSees with hNew | hChain
    · exact absurd (Store.lt_size_of_scope hScope) (Nat.not_lt.mpr hNew)
    · exact Or.inr (hChain.parent hScope hParent)

/-- A look-up from a scope that the work can see ends in one that it can see. -/
theorem Respects.sees_of_finds (h : region.Respects store) {found : Scope → Bool} {id owner : ScopeId}
    (hFinds : store.Finds found id owner) (hSees : region.Sees id) : region.Sees owner := by
  induction hFinds with
  | here => exact hSees
  | outward hScope _ hParent _ ih => exact ih (h.outward hScope hParent hSees)

/-- A function that the work finds may be called by it. -/
theorem Respects.admits (h : region.Respects store) (hHolds : store.Holds held) {id : ScopeId}
    {name : Name} {callable : Callable} (hFound : store.getFunction id name = .ok callable)
    (hSees : region.Sees id) : region.Admits callable := by
  obtain ⟨owner, scope, hFinds, hScope, hEntry⟩ := hHolds.older.entry_of_getFunction hFound
  cases callable with
  | builtin builtin => trivial
  | user function home =>
      obtain ⟨rfl, -⟩ := hHolds.home hScope hEntry
      exact h.sees_of_finds hFinds hSees

/-- A change of what a scope binds is allowed in a new scope, and in an old one if the scope is enlarged
as it may be. -/
theorem Respects.modify (h : region.Respects store) {id : ScopeId} {f : Scope → Scope}
    (hParent : ∀ scope, (f scope).parent = scope.parent) (hSees : region.Sees id)
    (hOld : ¬ region.New id → ∀ scope, store.scope? id = some scope →
      scope.Enlarged id (region.declarations id) (f scope)) :
    region.Respects (store.modify id f) where
  size := by
    rw [Store.size_modify]
    exact h.size
  known hLater := by
    obtain ⟨old, hFound, -⟩ := Store.scope_before_modify hLater
    exact h.known hFound
  kept {other scope} hScope := by
    obtain ⟨later, hLater, hSeen, hUnseen⟩ := h.kept hScope
    rw [Store.scope?_modify]
    split
    next hSame =>
      subst hSame
      have hNotNew : ¬ region.New other := Nat.not_le.mpr (Store.lt_size_of_scope hScope)
      have hChain := hSees.resolve_left hNotNew
      refine ⟨f later, by rw [hLater, Option.map_some], fun _ => ?_, fun hNot => absurd hChain hNot⟩
      exact (hSeen hChain).trans (hOld hNotNew later hLater)
    next => exact ⟨later, hLater, hSeen, hUnseen⟩
  outward {other parent scope} hScope hOuter := by
    obtain ⟨old, hFound, rfl⟩ := Store.scope_before_modify hScope
    split at hOuter
    next => exact h.outward hFound (hParent old ▸ hOuter)
    next => exact h.outward hFound hOuter

/-- The work may make a scope inside one that it can see. -/
theorem Respects.child (h : region.Respects store) {parent : ScopeId} (hSees : region.Sees parent) :
    region.Respects (store.child parent).2 where
  size := by
    rw [Store.size_child]
    exact Nat.le_succ_of_le h.size
  known hLater := by
    rcases Store.scope_child_cases hLater with ⟨rfl, -⟩ | ⟨old, hFound, -⟩
    · exact Or.inl h.size
    · exact h.known hFound
  kept {id scope} hScope := by
    obtain ⟨later, hLater, hSeen, hUnseen⟩ := h.kept hScope
    have hOld := Nat.ne_of_lt (Store.lt_size_of_scope hLater)
    rw [Store.scope?_child, if_neg hOld]
    split
    next hSame =>
      subst hSame
      refine ⟨{ later with children := later.children + 1 }, by rw [hLater, Option.map_some], ?_, hUnseen⟩
      exact fun hChain => (hSeen hChain).of_eq rfl rfl
    next => exact ⟨later, hLater, hSeen, hUnseen⟩
  outward hScope hAround hInside := by
    rcases Store.scope_child_cases hScope with ⟨rfl, rfl⟩ | ⟨old, hFound, rfl⟩
    · cases hAround
      exact hSees
    · exact h.outward hFound hAround hInside

/-- The work may give up a scope that it has made. -/
theorem Respects.release {top : ScopeId} (h : region.Respects store) (hHolds : store.Holds (top :: held))
    (hMore : held ≠ []) (hNew : region.New top) : region.Respects (store.release top) where
  size := by
    rw [Store.size_release]
    exact h.size
  known {id later} hLater := by
    obtain ⟨-, old, hFound, -⟩ := hHolds.scope_before_release hMore hLater
    exact h.known hFound
  kept {id first} hFirst := by
    obtain ⟨middle, hMiddle, hSeen, hUnseen⟩ := h.kept hFirst
    have hNotTop : id ≠ top := by
      rintro rfl
      exact absurd (Store.lt_size_of_scope hFirst) (Nat.not_lt.mpr hNew)
    obtain ⟨later, hLater, hIntegers, hFunctions⟩ := hHolds.scope?_after_release hMore hMiddle hNotTop
    refine ⟨later, hLater, fun hChain => ?_, fun hNot => ?_⟩
    · exact (hSeen hChain).of_eq hIntegers hFunctions
    · rw [hIntegers, hFunctions]
      exact hUnseen hNot
  outward {id around later} hLater hAround := by
    obtain ⟨-, old, hFound, rfl⟩ := hHolds.scope_before_release hMore hLater
    exact h.outward hFound hAround

/-- In a new scope anything may be declared, and in the scope of the work what its statements say. -/
theorem Respects.declareVariable (h : region.Respects store) {id : ScopeId} {name : Name}
    {initial : Expr} (hRuns : region.Runs id [.declare name initial]) (value : Int32) :
    region.Respects (store.declareVariable id name value).2 := by
  rw [Store.declareVariable]
  split
  next => exact h
  next =>
    refine h.modify (fun _ => rfl) hRuns.inside.sees (fun hOld scope _ => ?_)
    obtain ⟨hHere, hBlock⟩ := hRuns.resolve_left hOld
    have hStands : .declare name initial ∈ region.declarations id := by
      rw [declarations, if_pos hHere]
      exact hBlock List.mem_cons_self
    exact Scope.enlarged_declareVariable id scope value hStands

/-- Any variable may be declared in a new scope. -/
theorem Respects.declareVariable_new (h : region.Respects store) {id : ScopeId} (hNew : region.New id)
    (name : Name) (value : Int32) : region.Respects (store.declareVariable id name value).2 := by
  have hRuns : region.Runs id [.declare name (.literal value)] := Or.inl hNew
  exact h.declareVariable hRuns value

/-- A function declared by the work has its home inside, so it may be called by it. -/
theorem Respects.declareFunction (h : region.Respects store) {id : ScopeId} {name : Name}
    {parameters : List Name} {body others : Block}
    (hRuns : region.Runs id (.function name parameters body :: others)) :
    region.Respects (store.declareFunction id name (.user ⟨name, parameters, body⟩ id)).2 := by
  rw [Store.declareFunction]
  split
  next => exact h
  next hFree =>
    refine h.modify (fun _ => rfl) hRuns.inside.sees (fun hOld scope hScope => ?_)
    obtain ⟨hHere, hBlock⟩ := hRuns.resolve_left hOld
    refine Scope.enlarged_declareFunction id ?_ ?_
    · simpa [hScope] using hFree
    · rw [declarations, if_pos hHere]
      exact hBlock List.mem_cons_self

/-- An assignment changes a variable that the work can see. -/
theorem Respects.setVariable (h : region.Respects store) (hHolds : store.Holds held) {id : ScopeId}
    (hSees : region.Sees id) (name : Name) (value : Int32) :
    region.Respects (store.setVariable id name value).2 := by
  rcases hHolds.older.setVariable_cases id name value with ⟨owner, hFinds, hSet⟩ | ⟨-, hSet⟩
  · rw [hSet]
    exact h.modify (fun _ => rfl) (h.sees_of_finds hFinds hSees)
      (fun _ scope _ => Scope.enlarged_put owner _ scope name value)
  · rw [hSet]
    exact h

end Region

end IntScript
