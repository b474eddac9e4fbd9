import IntScript.Proofs.Scope.Requests

/-! Which scopes are alive: those that links to parents lead to from a scope on which a handle is held.
Functions name the scopes that they run in, and that keeps none of them alive. -/
namespace IntScript

namespace Store

variable {store : Store} {ledger : Ledger}

theorem isLive_iff {id : ScopeId} : store.isLive id = true ↔ ∃ scope, store.scope? id = some scope :=
  Option.isSome_iff_exists

/-- The scopes around one that is alive are alive. -/
theorem Counts.exists_scope_of_leads (h : store.Counts ledger) {id outer : ScopeId}
    (hLeads : ledger.Leads id outer) (hLive : ∃ scope, store.scope? id = some scope) :
    ∃ scope, store.scope? outer = some scope := by
  induction hLeads with
  | refl id => exact hLive
  | outward hParent _ ih =>
      obtain ⟨scope, hScope⟩ := hLive
      rw [h.parent hScope, Option.some.injEq] at hParent
      exact ih (h.outward hScope hParent)

/-- A scope without a handle is alive because of a younger one that is, so some handle holds it. -/
theorem Accounts.exists_held (h : store.Accounts ledger) {id : ScopeId} {scope : Scope}
    (hScope : store.scope? id = some scope) : ∃ held ∈ ledger.held, ledger.Leads held id := by
  induction hRoom : store.slots.size - id using Nat.strongRecOn generalizing id scope with
  | ind room ih =>
      rcases isOwned_iff.mp (h.owned hScope) with hHandles | hChildren
      · rw [h.handles hScope, List.count_pos_iff] at hHandles
        exact ⟨id, hHandles, .refl id⟩
      · rw [h.children hScope, childCount_pos_iff] at hChildren
        obtain ⟨inner, hInner⟩ := hChildren
        obtain ⟨child, hChild, hParent⟩ := isChildOf_iff.mp hInner
        have hYounger := h.parent_lt hChild hParent
        have hLess : store.slots.size - inner < room :=
          hRoom ▸ Nat.sub_lt_sub_left (lt_size_of_scope hScope) hYounger
        obtain ⟨held, hHeld, hLeads⟩ := ih _ hLess hChild rfl
        exact ⟨held, hHeld, hLeads.parent (hParent ▸ h.parent hChild)⟩

/-- Counts and reachability agree on every scope. The counts go wrong only if there is a cycle, and
parents are older. -/
theorem Accounts.isLive_iff_leads (h : store.Accounts ledger) (id : ScopeId) :
    store.isLive id = true ↔ ∃ held ∈ ledger.held, ledger.Leads held id := by
  rw [isLive_iff]
  constructor
  · rintro ⟨scope, hScope⟩
    exact h.exists_held hScope
  · rintro ⟨held, hHeld, hLeads⟩
    exact h.exists_scope_of_leads hLeads (h.held held hHeld)

/-- A look-up follows the links to parents. -/
theorem Counts.leads_of_finds (h : store.Counts ledger) {found : Scope → Bool} {id owner : ScopeId}
    (hFinds : store.Finds found id owner) : ledger.Leads id owner := by
  induction hFinds with
  | here _ _ => exact .refl _
  | outward hScope _ hParent _ ih => exact .outward (hParent ▸ h.parent hScope) ih

/-- Removing a scope adds no binding to any other. -/
theorem Leaves.binds {later : Store} {id : ScopeId} {outer : Option ScopeId}
    (h : store.Leaves later id outer) {owner : ScopeId} {binding : Binding}
    (hBinds : later.Binds owner binding) : store.Binds owner binding := by
  obtain ⟨scope, hScope, hIn⟩ := hBinds
  obtain ⟨-, old, hOld, rfl⟩ := h.scope_before hScope
  cases binding with
  | integer name => exact ⟨old, hOld, hIn⟩
  | function name callable => exact ⟨old, hOld, hIn⟩

/-- Nothing is bound after scopes were collected that was not bound before. -/
theorem Collects.binds {later : Store} {id : ScopeId} (h : store.Collects id later) {owner : ScopeId}
    {binding : Binding} (hBinds : later.Binds owner binding) : store.Binds owner binding := by
  induction h with
  | gone | owned => exact hBinds
  | last _ _ leaves _ => exact leaves.binds hBinds
  | further _ _ leaves _ _ ih => exact leaves.binds (ih hBinds)

theorem Changes.older {later : Store} {added : ScopeId → Binding → Prop} (h : store.Changes later added)
    (hOlder : store.Older) : later.Older := by
  intro id parent scope hScope hParent
  obtain ⟨old, hOld, hSame⟩ := h.parent hScope
  exact hOlder id parent old hOld (hSame.trans hParent)

/-- Giving up a handle changes nothing else, until the scope is collected. -/
theorem changes_giveUp (store : Store) (id : ScopeId) :
    store.Changes (store.modify id (fun scope => { scope with handles := scope.handles - 1 }))
      (fun _ _ => False) :=
  changes_modify (fun _ => rfl) (fun _ binding hIn => by cases binding <;> exact Or.inl hIn)

/-- Every function that is bound after a request was bound before, or the request declares it. -/
theorem Older.function_of_serve (h : store.Older) {request : Request} {owner : ScopeId} {name : Name}
    {callable : Callable} (hBinds : (store.serve request).Binds owner (.function name callable)) :
    store.Binds owner (.function name callable) ∨ request = .declareFunction owner name callable := by
  cases request with
  | root =>
      obtain ⟨scope, hScope, hIn⟩ := hBinds
      rcases store.enters_root.scope_cases hScope with ⟨-, rfl⟩ | ⟨-, old, hOld, rfl⟩
      · cases hIn
      · exact Or.inl ⟨old, hOld, hIn⟩
  | child parent => exact Or.inl (binds_child hBinds)
  | drop id =>
      have hCollects := ((store.changes_giveUp id).older h).collects id
      exact Or.inl (((store.changes_giveUp id).binds (hCollects.binds hBinds)).resolve_right
        (fun hNone => hNone))
  | declareVariable id other value =>
      rcases (store.changes_declareVariable id other value).binds hBinds with hOld | ⟨-, hNew⟩
      · exact Or.inl hOld
      · cases hNew
  | declareFunction id other another =>
      rcases (store.changes_declareFunction id other another).binds hBinds with hOld | ⟨rfl, hNew⟩
      · exact Or.inl hOld
      · cases hNew
        exact Or.inr rfl
  | setVariable id other value =>
      have hChanges : store.Changes (store.setVariable id other value).2 (fun _ _ => False) :=
        changes_setVariable store id other value
      exact Or.inl ((hChanges.binds hBinds).resolve_right (fun hNone => hNone))

/-- Every function that is bound was declared by a request. -/
theorem Accounts.function_of_serveAll (h : store.Accounts ledger) {requests : List Request}
    (hPermits : ledger.PermitsAll requests) {owner : ScopeId} {name : Name} {callable : Callable}
    (hBinds : (store.serveAll requests).Binds owner (.function name callable)) :
    store.Binds owner (.function name callable) ∨
      Request.declareFunction owner name callable ∈ requests := by
  induction requests generalizing store ledger with
  | nil => exact Or.inl hBinds
  | cons request requests ih =>
      rcases ih (h.serve hPermits.1) hPermits.2 hBinds with hEarlier | hMem
      · rcases h.toCounts.storeOlder.function_of_serve hEarlier with hOld | rfl
        · exact Or.inl hOld
        · exact Or.inr List.mem_cons_self
      · exact Or.inr (List.mem_cons_of_mem request hMem)

end Store

namespace Ledger

/-- The ledger knows of handles and parents, and declaring changes neither. -/
theorem note_of_declaresFunction {request : Request} (h : request.declaresFunction = true)
    (ledger : Ledger) : ledger.note request = ledger := by
  cases request <;> first | rfl | cases h

/-- Without its declarations of functions a row of requests leaves the same ledger. -/
theorem noteAll_filter (ledger : Ledger) (requests : List Request) :
    ledger.noteAll (requests.filter (fun request => !request.declaresFunction)) =
      ledger.noteAll requests := by
  induction requests generalizing ledger with
  | nil => rfl
  | cons request requests ih =>
      cases hFunction : request.declaresFunction with
      | true =>
          rw [List.filter_cons_of_neg (by simp [hFunction]), ih]
          exact congrArg (noteAll · requests) (note_of_declaresFunction hFunction ledger).symm
      | false =>
          rw [List.filter_cons_of_pos (by simp [hFunction])]
          exact ih (ledger.note request)

theorem PermitsAll.filter {ledger : Ledger} {requests : List Request} (h : ledger.PermitsAll requests) :
    ledger.PermitsAll (requests.filter (fun request => !request.declaresFunction)) := by
  induction requests generalizing ledger with
  | nil => trivial
  | cons request requests ih =>
      cases hFunction : request.declaresFunction with
      | true =>
          rw [List.filter_cons_of_neg (by simp [hFunction])]
          have hOthers := h.2
          rw [note_of_declaresFunction hFunction] at hOthers
          exact ih hOthers
      | false =>
          rw [List.filter_cons_of_pos (by simp [hFunction])]
          exact ⟨h.1, ih h.2⟩

end Ledger

namespace Store

/-- After any requests about scopes with handles, a scope is alive, and a function that names it can still
enter it, exactly if links to parents lead to it from a scope with a handle. Declarations of functions
make no difference to that. A function that is found was declared in the scope in which the look-up ends,
and it can be entered if it was declared to run in that scope or in one around it. -/
theorem isLive_serveAll {requests : List Request} (hPermits : Ledger.empty.PermitsAll requests) :
    let store := Store.empty.serveAll requests
    let ledger := Ledger.empty.noteAll requests
    (∀ id, store.isLive id = true ↔ ∃ held ∈ ledger.held, ledger.Leads held id) ∧
    (∀ id, store.isLive id =
      (Store.empty.serveAll (requests.filter (fun request => !request.declaresFunction))).isLive id) ∧
    ∀ id ∈ ledger.held, ∀ name function home, store.getFunction id name = .ok (.user function home) →
      ∃ owner, store.FindsEntry Scope.functions name id owner ∧
        Request.declareFunction owner name (.user function home) ∈ requests ∧
        (ledger.Leads owner home → store.isLive home = true) := by
  intro store ledger
  have hAccounts : store.Accounts ledger := accounts_serveAll hPermits
  have hLive := hAccounts.isLive_iff_leads
  refine ⟨hLive, fun id => ?_, fun id hHeld name function home hFound => ?_⟩
  · have hQuiet := (accounts_serveAll hPermits.filter).isLive_iff_leads id
    rw [Ledger.noteAll_filter, ← hLive id] at hQuiet
    exact Bool.eq_iff_iff.mpr hQuiet.symm
  · obtain ⟨owner, scope, hFinds, hScope, hEntry⟩ :=
      hAccounts.toCounts.storeOlder.entry_of_getFunction hFound
    refine ⟨owner, hFinds, ?_, fun hLeads => ?_⟩
    · refine (accounts_empty.function_of_serveAll hPermits ⟨scope, hScope, hEntry⟩).resolve_left ?_
      rintro ⟨none, hNone, -⟩
      cases hNone
    · refine isLive_iff.mpr (hAccounts.toCounts.exists_scope_of_leads hLeads ?_)
      exact hAccounts.toCounts.exists_scope_of_leads (hAccounts.toCounts.leads_of_finds hFinds)
        (hAccounts.held id hHeld)

/-- Two scopes declare functions that run in each other. The first is gone when its handle is given up,
the second stays alive because of its child. -/
theorem isLive_serveAll_mutual :
    let first : Callable := .user ⟨⟨8⟩, [], []⟩ 0
    let second : Callable := .user ⟨⟨8⟩, [], []⟩ 1
    let requests : List Request :=
      [.root, .root, .declareFunction 0 ⟨8⟩ second, .declareFunction 1 ⟨8⟩ first, .child 1,
        .declareFunction 2 ⟨9⟩ second, .drop 0, .drop 1]
    let store := Store.empty.serveAll requests
    let ledger := Ledger.empty.noteAll requests
    Ledger.empty.PermitsAll requests ∧
    (∀ id, store.isLive id = true ↔ ∃ held ∈ ledger.held, ledger.Leads held id) ∧
    (∀ id, store.isLive id =
      (Store.empty.serveAll (requests.filter (fun request => !request.declaresFunction))).isLive id) ∧
    ∀ id ∈ ledger.held, ∀ name function home, store.getFunction id name = .ok (.user function home) →
      ∃ owner, store.FindsEntry Scope.functions name id owner ∧
        Request.declareFunction owner name (.user function home) ∈ requests ∧
        (ledger.Leads owner home → store.isLive home = true) := by
  have hPermits : Ledger.empty.PermitsAll [.root, .root, .declareFunction 0 ⟨8⟩ (.user ⟨⟨8⟩, [], []⟩ 1),
      .declareFunction 1 ⟨8⟩ (.user ⟨⟨8⟩, [], []⟩ 0), .child 1,
      .declareFunction 2 ⟨9⟩ (.user ⟨⟨8⟩, [], []⟩ 1), .drop 0, .drop 1] := by decide
  exact ⟨hPermits, isLive_serveAll hPermits⟩

end Store

end IntScript
