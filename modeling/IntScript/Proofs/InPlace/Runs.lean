import IntScript.Proofs.InPlace.Simulation
import IntScript.Proofs.Machine.Start

/-! What a program comes to does not depend on the scopes for arguments, nor on statements that follow a
`return`. -/
namespace IntScript

namespace Interpreter

open Machine Store

section

variable {interpreter : Interpreter} {names later : Interner} {store : Store}

/-- If builtins cannot be declared, no program is run on either machine. -/
theorem runInPlace_unseeded {error : ScopeError}
    (hUnseeded : declareBuiltins (Store.empty.root).2 0 interpreter.builtins.entries names =
      ((.error error, store), later)) (program : Block) (steps : Nat) :
    interpreter.runInPlace steps program names =
      (some (⟨.error ((interpreter.calls.failure error.fault).map later.lookup), []⟩, interpreter),
        later) := by
  have hRoot : Store.empty.root = (0, (Store.empty.root).2) := rfl
  rw [runInPlace, hRoot]
  simp only [hUnseeded]

variable (hSeeded : declareBuiltins (Store.empty.root).2 0 interpreter.builtins.entries names =
  ((.ok (), store), later))

include hSeeded

/-- The root scope and the names of the builtins are the same as for the other machine. -/
theorem runInPlace_eq (program : Block) (steps : Nat) :
    interpreter.runInPlace steps program names =
      ((InPlace.run steps (interpreter.start program store 0)).map
        (fun state => interpreter.finish state later), later) := by
  have hRoot : Store.empty.root = (0, (Store.empty.root).2) := rfl
  rw [runInPlace, hRoot]
  simp only [hSeeded]

/-- At the start there is one scope, which is its own counterpart, and nothing waits. -/
theorem collapses_start {program program' : Block} (hProgram : Block.Prunes false program program') :
    State.Collapses [.scope 0 0] (interpreter.start program store 0)
      (interpreter.start program' store 0) := by
  have hStore : store.Collapses [.scope 0 0] store :=
    (disciplined_start hSeeded program).store.collapses fun _ => parent_start hSeeded
  exact ⟨.execute hProgram List.mem_cons_self .halt, hStore, rfl, rfl⟩

end

/-- A program comes to the same as it does on the other machine without statements that follow a
`return`, in as many steps. -/
theorem runWithin_eq_runInPlace_of_prunes (interpreter : Interpreter) {program program' : Block}
    (hProgram : Block.Prunes false program program') (names : Interner) (steps : Nat) :
    interpreter.runWithin steps program names = interpreter.runInPlace steps program' names := by
  rcases hDeclared : declareBuiltins (Store.empty.root).2 0 interpreter.builtins.entries names with
    ⟨⟨⟨error⟩ | ⟨⟨⟩⟩, store⟩, later⟩
  · rw [runWithin_unseeded hDeclared, runInPlace_unseeded hDeclared]
  · have hRun := (collapses_start hDeclared hProgram).run steps
    rw [runWithin_eq hDeclared, runInPlace_eq hDeclared]
    generalize Machine.run steps (interpreter.start program store 0) = rested at hRun ⊢
    generalize InPlace.run steps (interpreter.start program' store 0) = rested' at hRun ⊢
    cases hRun with
    | none => rfl
    | some same =>
        obtain ⟨tiers, hSame⟩ := same
        rw [Option.map_some, Option.map_some, finish, finish, hSame.result?, hSame.calls, hSame.history]

/-- At any time the same builtins have been called. -/
theorem history_after_of_prunes {interpreter : Interpreter} {names later : Interner} {store : Store}
    (hSeeded : declareBuiltins (Store.empty.root).2 0 interpreter.builtins.entries names =
      ((.ok (), store), later)) {program program' : Block}
    (hProgram : Block.Prunes false program program') (now : Nat) :
    (after now (interpreter.start program store 0)).history =
      (InPlace.after now (interpreter.start program' store 0)).history := by
  obtain ⟨tiers, hSame⟩ := (collapses_start hSeeded hProgram).after now
  exact hSame.history

/-- No program can tell whether its arguments are evaluated in scopes of their own. It comes to the same
result by the same calls of builtins, or it does not end in either case, and then it calls the same
builtins for as long as it runs. -/
theorem arguments_inPlace (interpreter : Interpreter) (program : Block) (names : Interner) :
    (∀ steps, interpreter.runWithin steps program names =
      interpreter.runInPlace steps program names) ∧
    ∀ store later, declareBuiltins (Store.empty.root).2 0 interpreter.builtins.entries names =
        ((.ok (), store), later) →
      ∀ now, (after now (interpreter.start program store 0)).history =
        (InPlace.after now (interpreter.start program store 0)).history := by
  have hProgram := Block.Prunes.refl false program
  constructor
  · exact interpreter.runWithin_eq_runInPlace_of_prunes hProgram names
  · intro store later hSeeded
    exact history_after_of_prunes hSeeded hProgram

/-- Statements that follow a `return` of the same block, however deep it lies, may be left out. Whether
the program ends, with which result, and which builtins it calls is the same without them. -/
theorem statements_after_return (interpreter : Interpreter) {program program' : Block}
    (hProgram : Block.Prunes false program program') (names : Interner) :
    (∀ steps, interpreter.runWithin steps program names =
      interpreter.runWithin steps program' names) ∧
    ∀ store later, declareBuiltins (Store.empty.root).2 0 interpreter.builtins.entries names =
        ((.ok (), store), later) →
      ∀ now, (after now (interpreter.start program store 0)).history =
        (after now (interpreter.start program' store 0)).history := by
  have hPruned := Block.Prunes.refl false program'
  constructor
  · intro steps
    rw [interpreter.runWithin_eq_runInPlace_of_prunes hProgram,
      interpreter.runWithin_eq_runInPlace_of_prunes hPruned]
  · intro store later hSeeded now
    rw [history_after_of_prunes hSeeded hProgram, history_after_of_prunes hSeeded hPruned]

/-- `fun f(n) { while (n) { return n  println(1) } return 2  f(n) }`, `println(f(3))`. -/
def returnsEarly : Block :=
  [.function ⟨8⟩ [⟨9⟩] [.loop (.reference ⟨9⟩)
        [.yield (.reference ⟨9⟩), .evaluate (.call ⟨7⟩ [.literal 1])],
      .yield (.literal 2), .evaluate (.call ⟨8⟩ [.reference ⟨9⟩])],
    .evaluate (.call ⟨7⟩ [.call ⟨8⟩ [.literal 3]])]

/-- `fun f(n) { while (n) { return n } return 2 }`, `println(f(3))`. -/
def returnsEarlyPruned : Block :=
  [.function ⟨8⟩ [⟨9⟩] [.loop (.reference ⟨9⟩) [.yield (.reference ⟨9⟩)], .yield (.literal 2)],
    .evaluate (.call ⟨7⟩ [.call ⟨8⟩ [.literal 3]])]

/-- Both write the same line. -/
theorem statements_after_return_returnsEarly :
    Block.Prunes false returnsEarly returnsEarlyPruned ∧
      ∃ result ended names,
        (new Builtins.standard none).runWithin 40 returnsEarly Interner.initial =
          (some (result, ended), names) ∧
        (new Builtins.standard none).runWithin 40 returnsEarlyPruned Interner.initial =
          (some (result, ended), names) ∧
        result.history.map (·.arguments) = [[3]] := by
  have hBody : Block.Prunes false
      [.yield (.reference ⟨9⟩), .evaluate (.call ⟨7⟩ [.literal 1])] [.yield (.reference ⟨9⟩)] :=
    .keep (.yield _) (.drop _ (.nil true))
  have hProgram : Block.Prunes false returnsEarly returnsEarlyPruned :=
    .keep (.function _ _ (.keep (.loop _ hBody) (.keep (.yield _) (.drop _ (.nil true)))))
      (Block.Prunes.refl false _)
  obtain ⟨hRuns, -⟩ := statements_after_return (new Builtins.standard none) hProgram Interner.initial
  generalize hOutcome : (new Builtins.standard none).runWithin 40 returnsEarly Interner.initial = outcome
  have hCalls : outcome.1.map (·.1.history.map (·.arguments)) = some [[3]] := by
    rw [← hOutcome]
    decide +kernel
  obtain ⟨_ | ⟨result, ended⟩, names⟩ := outcome
  · cases hCalls
  · exact ⟨hProgram, result, ended, names, rfl, (hRuns 40).symm.trans hOutcome, Option.some.inj hCalls⟩

end Interpreter

end IntScript
