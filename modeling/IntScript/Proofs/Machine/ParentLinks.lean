import IntScript.Proofs.Machine.Runs
import IntScript.Proofs.Machine.Start
import IntScript.Proofs.Scope.Outward

/-! Links to parents in the stores that there are one after another, while requests are served or a
program runs. A scope is made in one that is there already, also when a function that was declared early
is called late, and it keeps its parent. So the links form no cycle, whatever was done, and a look-up goes
through each scope once at most. -/
namespace IntScript

namespace Ledger

/-- What is permitted all along is so up to any moment. -/
theorem PermitsAll.take {ledger : Ledger} {requests : List Request} (h : ledger.PermitsAll requests)
    (count : Nat) : ledger.PermitsAll (requests.take count) := by
  induction requests generalizing ledger count with
  | nil => rwa [List.take_nil]
  | cons request requests ih =>
      cases count with
      | zero => trivial
      | succ count => exact ⟨h.1, ih h.2 count⟩

/-- Each request is permitted after those before it. -/
theorem PermitsAll.permits {ledger : Ledger} {requests : List Request} (h : ledger.PermitsAll requests)
    {count : Nat} {request : Request} (hNext : requests[count]? = some request) :
    (ledger.noteAll (requests.take count)).Permits request := by
  induction requests generalizing ledger count with
  | nil => cases hNext
  | cons first requests ih =>
      cases count with
      | zero =>
          cases hNext
          exact h.1
      | succ count => exact ih h.2 hNext

end Ledger

open Machine Store

/-- The stores that there are one after another: while requests are served that are permitted, or while a
program runs. -/
inductive Timeline : (Nat → Store) → Prop where
  | requests {requests : List Request} (hPermits : Ledger.empty.PermitsAll requests) :
      Timeline (fun count => Store.empty.serveAll (requests.take count))
  | run {interpreter : Interpreter} {names later : Interner} {store : Store}
      (hSeeded : Interpreter.declareBuiltins (Store.empty.root).2 0 interpreter.builtins.entries names =
        ((.ok (), store), later)) (program : Block) :
      Timeline (fun steps => (after steps (interpreter.start program store 0)).store)

namespace Timeline

variable {stores : Nat → Store}

/-- In the stores of a timeline every parent is alive and older. -/
theorem linked (h : Timeline stores) (moment : Nat) : (stores moment).Linked := by
  cases h with
  | requests hPermits => exact (accounts_serveAll (hPermits.take moment)).toCounts.linked
  | run hSeeded program =>
      exact ((Interpreter.disciplined_start hSeeded program).reaches ⟨moment, rfl⟩).store.linked

/-- A step makes a scope only in one that is alive. -/
theorem grows_step {state : State} (h : state.Disciplined) :
    state.store.Grows (Machine.step state).store := by
  rcases h.evolves with hChanges | ⟨parent, -, hOpens⟩
  · exact hChanges.grows
  · exact hOpens.grows h.step.store.linked

/-- From one store of a timeline to the next, links are kept and new scopes come behind the old
ones. -/
theorem grows (h : Timeline stores) (moment : Nat) :
    (stores moment).Grows (stores (moment + 1)) := by
  cases h with
  | @requests requests hPermits =>
      have hAccounts := accounts_serveAll (hPermits.take moment)
      simp only [List.take_add_one, serveAll, List.foldl_append]
      cases hNext : requests[moment]? with
      | none => exact (Changes.refl _ (fun _ _ => False)).grows
      | some request => exact hAccounts.grows_serve (hPermits.permits hNext)
  | run hSeeded program =>
      have hState := (Interpreter.disciplined_start hSeeded program).reaches ⟨moment, rfl⟩
      simp only [after_add moment 1]
      exact grows_step hState

/-- At the start there is the root at most, and it has no parent. -/
theorem parent_start (h : Timeline stores) (id : ScopeId) (scope : Scope)
    (hScope : (stores 0).scope? id = some scope) : scope.parent = none := by
  cases h with
  | requests hPermits => cases hScope
  | run hSeeded program => exact Interpreter.parent_start hSeeded hScope

end Timeline

/-- At every moment a parent is older than the scope: it was alive at an earlier one at which the scope was
not made yet, and the scope keeps it as long as it lives. So a look-up from a scope that is alive ends,
asks every scope once at most, and borrows none twice when it is to change a variable. -/
theorem walks_of_timeline {stores : Nat → Store} (hTimeline : Timeline stores) (moment : Nat) :
    (∀ id scope, (stores moment).scope? id = some scope →
      (∀ parent, scope.parent = some parent → parent < id ∧
        ∃ earlier < moment, (stores earlier).isLive parent = true ∧
          (stores earlier).slots.size ≤ id) ∧
      ∀ later now, moment ≤ later → (stores later).scope? id = some now →
        now.parent = scope.parent) ∧
    ∀ id, (stores moment).isLive id = true → (stores moment).Walks id := by
  have hGrows := hTimeline.grows
  have hLinked := hTimeline.linked moment
  refine ⟨fun id scope hScope => ⟨fun parent hParent => ⟨?_, ?_⟩, fun later now hLater hNow => ?_⟩,
    fun id hLive => hLinked.walks hLive⟩
  · exact hLinked.older id parent scope hScope hParent
  · exact exists_parent_before hGrows hTimeline.parent_start hScope hParent
  · obtain ⟨old, hOld, hSame⟩ := parent_kept hGrows hLater hNow (lt_size_of_scope hScope)
    rw [hScope] at hOld
    cases hOld
    exact hSame.symm

/-- `var x = 1`, `fun f() { x = 2 }`, `if (1) { f() }`: the scope of the call is made in the root, which
is the oldest, while younger scopes are there. -/
def callsOutward : Block :=
  [.declare ⟨8⟩ (.literal 1), .function ⟨9⟩ [] [.assign ⟨8⟩ (.literal 2)],
    .branch (.literal 1) [.evaluate (.call ⟨9⟩ [])] []]

/-- In the run of it, the scope of the call has number 3. -/
theorem walks_of_timeline_callsOutward :
    let stores := fun steps =>
      (after steps ((Interpreter.new Builtins.none none).start callsOutward (Store.empty.root).2 0)).store
    Timeline stores ∧ ((stores 12).scope? 3).bind Scope.parent = some 0 ∧
    (∃ earlier < 12, (stores earlier).isLive 0 = true ∧ (stores earlier).slots.size ≤ 3) ∧
    (∀ later now, 12 ≤ later → (stores later).scope? 3 = some now → now.parent = some 0) ∧
    (stores 12).Walks 3 := by
  intro stores
  have hSeeded : Interpreter.declareBuiltins (Store.empty.root).2 0
      (Interpreter.new Builtins.none none).builtins.entries Interner.initial =
        ((.ok (), (Store.empty.root).2), Interner.initial) := rfl
  have hTimeline : Timeline stores := .run hSeeded callsOutward
  have hRoot : ((stores 12).scope? 3).bind Scope.parent = some 0 := by decide +kernel
  obtain ⟨scope, hScope, hParent⟩ := Option.bind_eq_some_iff.mp hRoot
  obtain ⟨hLinks, hWalks⟩ := walks_of_timeline hTimeline 12
  obtain ⟨hOlder, hKept⟩ := hLinks 3 scope hScope
  refine ⟨hTimeline, hRoot, (hOlder 0 hParent).2, fun later now hLater hNow => ?_,
    hWalks 3 (isLive_iff.mpr ⟨scope, hScope⟩)⟩
  exact (hKept later now hLater hNow).trans hParent

end IntScript
