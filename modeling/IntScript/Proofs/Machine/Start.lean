import IntScript.Interpreter
import IntScript.Proofs.Machine.Declarations

/-! The scopes with which a program starts: a root that binds the builtins and nothing else. -/
namespace IntScript.Interpreter

open Machine Store

/-- The builtins, each under the number that its name has or gets. -/
def registered : List Builtin → Interner → List (Name × Builtin)
  | [], _ => []
  | builtin :: others, names =>
      ((names.intern builtin.name).1, builtin) :: registered others (names.intern builtin.name).2

/-- Declaring builtins in a scope makes and removes none. -/
theorem holds_declareBuiltins {store : Store} {held : List ScopeId} (h : store.Holds held)
    (scope : ScopeId) (entries : List Builtin) (names : Interner) :
    (declareBuiltins store scope entries names).1.2.Holds held := by
  induction entries generalizing store names with
  | nil => exact h
  | cons builtin others ih =>
      have hDeclared := h.declareBuiltin scope (names.intern builtin.name).1 builtin
      rw [declareBuiltins]
      simp only
      split
      next later hLater =>
        rw [hLater] at hDeclared
        exact ih hDeclared _
      next error later hLater =>
        rw [hLater] at hDeclared
        exact hDeclared

/-- Builtins are declared in the one scope, and nothing else is. -/
theorem changes_declareBuiltins (store : Store) (scope : ScopeId) (entries : List Builtin)
    (names : Interner) :
    store.Changes (declareBuiltins store scope entries names).1.2 (fun owner binding =>
      owner = scope ∧ ∃ entry ∈ registered entries names, binding = .function entry.1 (.builtin entry.2)) := by
  induction entries generalizing store names with
  | nil => exact Changes.refl store _
  | cons builtin others ih =>
      have hFirst : store.Changes
          (store.declareFunction scope (names.intern builtin.name).1 (.builtin builtin)).2
          (fun owner binding => owner = scope ∧
            ∃ entry ∈ registered (builtin :: others) names, binding = .function entry.1 (.builtin entry.2)) := by
        refine (store.changes_declareFunction scope _ _).mono ?_
        rintro owner binding ⟨hOwner, hBinding⟩
        exact ⟨hOwner, _, List.mem_cons_self, hBinding⟩
      rw [declareBuiltins]
      simp only
      split
      next later hLater =>
        rw [hLater] at hFirst
        refine hFirst.trans ((ih later (names.intern builtin.name).2).mono ?_)
        rintro owner binding ⟨hOwner, entry, hEntry, hBinding⟩
        exact ⟨hOwner, entry, List.mem_cons_of_mem _ hEntry, hBinding⟩
      next error later hLater =>
        rw [hLater] at hFirst
        exact hFirst

/-- Where two builtins get one name, no program runs. -/
theorem runWithin_unseeded {interpreter : Interpreter} {names later : Interner} {store : Store}
    {error : ScopeError}
    (hUnseeded : declareBuiltins (Store.empty.root).2 0 interpreter.builtins.entries names =
      ((.error error, store), later)) (program : Block) (steps : Nat) :
    interpreter.runWithin steps program names =
      (some (⟨.error ((interpreter.calls.failure error.fault).map later.lookup), []⟩, interpreter),
        later) := by
  have hRoot : Store.empty.root = (0, (Store.empty.root).2) := rfl
  rw [runWithin, hRoot]
  simp only [hUnseeded]

section

variable {interpreter : Interpreter} {names later : Interner} {store : Store}
  (hSeeded : declareBuiltins (Store.empty.root).2 0 interpreter.builtins.entries names =
    ((.ok (), store), later))

include hSeeded

/-- The program runs on the machine, from the state in which the root binds the builtins. -/
theorem runWithin_eq (program : Block) (steps : Nat) :
    interpreter.runWithin steps program names =
      ((Machine.run steps (interpreter.start program store 0)).map
        (fun state => interpreter.finish state later), later) := by
  have hRoot : Store.empty.root = (0, (Store.empty.root).2) := rfl
  rw [runWithin, hRoot]
  simp only [hSeeded]

/-- What a run came to is what is made of the state in which its machine rests. -/
theorem runWithin_eq_some_iff {program : Block} {steps : Nat} {result : RunResult}
    {ended : Interpreter} {last : Interner} :
    interpreter.runWithin steps program names = (some (result, ended), last) ↔
      ∃ final, Machine.run steps (interpreter.start program store 0) = some final ∧
        interpreter.finish final later = (result, ended) ∧ last = later := by
  rw [runWithin_eq hSeeded, Prod.mk.injEq, Option.map_eq_some_iff]
  constructor
  · rintro ⟨⟨final, hRun, hFinish⟩, rfl⟩
    exact ⟨final, hRun, hFinish, rfl⟩
  · rintro ⟨final, hRun, hFinish, rfl⟩
    exact ⟨⟨final, hRun, hFinish⟩, rfl⟩

/-- At the start exactly the root is held. -/
theorem disciplined_start (program : Block) : (interpreter.start program store 0).Disciplined := by
  have hStore := holds_declareBuiltins holds_root 0 interpreter.builtins.entries names
  rw [hSeeded] at hStore
  exact ⟨⟨rfl, trivial⟩, hStore⟩

/-- At the start there is one scope. -/
theorem size_start : store.slots.size = 1 := by
  have hChanges := changes_declareBuiltins (Store.empty.root).2 0 interpreter.builtins.entries names
  rw [hSeeded] at hChanges
  exact hChanges.size

/-- At the start no scope has a parent. -/
theorem parent_start {id : ScopeId} {scope : Scope} (hScope : store.scope? id = some scope) :
    scope.parent = none := by
  have hChanges := changes_declareBuiltins (Store.empty.root).2 0 interpreter.builtins.entries names
  rw [hSeeded] at hChanges
  obtain ⟨old, hOld, hSame⟩ := hChanges.parent hScope
  rw [Store.scope?_root] at hOld
  split at hOld
  next =>
    cases hOld
    exact hSame.symm
  next => cases hOld

/-- At the start the root binds builtins, and nothing else is bound. -/
theorem binds_start {id : ScopeId} {binding : Binding} (hBinds : store.Binds id binding) :
    id = 0 ∧ ∃ entry ∈ registered interpreter.builtins.entries names,
      binding = .function entry.1 (.builtin entry.2) := by
  have hChanges := changes_declareBuiltins (Store.empty.root).2 0 interpreter.builtins.entries names
  rw [hSeeded] at hChanges
  rcases hChanges.binds hBinds with ⟨old, hOld, hIn⟩ | hAdded
  · rw [Store.scope?_root] at hOld
    split at hOld
    next =>
      cases hOld
      cases binding with
      | integer name => cases hIn
      | function name callable => cases hIn
    next => cases hOld
  · exact hAdded

end

end IntScript.Interpreter
