import IntScript.Proofs.Machine.Start
import IntScript.Proofs.Semantics.Derivation

/-! The interpreter and the natural semantics agree on every program: on whether it ends, on how, and on
which builtins it calls. -/
namespace IntScript

namespace Semantics

open Machine

/-- The root scope and the initial frame bind nothing. -/
theorem agrees_root : Agrees (Store.empty.root).2 World.initial := by
  constructor
  · rfl
  · intro id scope hScope
    rw [Store.scope?_root] at hScope
    split at hScope
    next hId =>
      cases hScope
      subst hId
      exact ⟨Frame.fresh none, rfl, rfl, rfl, rfl⟩
    next => cases hScope

theorem Seeds.history {world final : World} {builtins : List Builtin} {names later : Interner}
    {outcome : Outcome Unit} (h : Seeds world builtins names outcome final later) :
    final.history = world.history := by
  induction h with
  | nil => rfl
  | cons _ _ ih => exact ih
  | twice => rfl

/-- The interpreter declares the builtins as the semantics derives. -/
theorem Seeds.declares {world final : World} {builtins : List Builtin} {names later : Interner}
    {outcome : Outcome Unit} (h : Seeds world builtins names outcome final later) {store : Store}
    (hAgrees : Agrees store world) (hHeld : store.Holds [0]) :
    ∃ result seeded, Interpreter.declareBuiltins store 0 builtins names = ((result, seeded), later) ∧
      result.mapError ScopeError.fault = outcome ∧ Agrees seeded final := by
  induction h generalizing store with
  | nil world names => exact ⟨_, _, rfl, rfl, hAgrees⟩
  | @cons world final builtin others names later outcome free further ih =>
      obtain ⟨declared, hDeclared, hAgrees⟩ :=
        hAgrees.declareFunction_of_free hHeld List.mem_cons_self free (.builtin builtin)
      have hStillHeld := hHeld.declareBuiltin 0 (names.intern builtin.name).1 builtin
      rw [hDeclared] at hStillHeld
      rw [Interpreter.declareBuiltins]
      simp only [hDeclared]
      exact ih hAgrees hStillHeld
  | @twice world builtin others names old bound =>
      rw [Interpreter.declareBuiltins]
      simp only [hAgrees.declareFunction_of_bound hHeld List.mem_cons_self bound]
      exact ⟨_, _, rfl, rfl, hAgrees⟩

/-- Builtins can always be seeded, if with a fault. -/
theorem exists_seeds (world : World) (builtins : List Builtin) (names : Interner) :
    ∃ outcome final later, Seeds world builtins names outcome final later := by
  induction builtins generalizing world names with
  | nil => exact ⟨_, _, _, Seeds.nil world names⟩
  | cons builtin others ih =>
      rcases world.binds_or_free Frame.functions 0 (names.intern builtin.name).1 with
        ⟨old, hOld⟩ | hFree
      · exact ⟨_, _, _, Seeds.twice hOld⟩
      · obtain ⟨outcome, final, later, hOthers⟩ := ih _ _
        exact ⟨outcome, final, later, Seeds.cons hFree hOthers⟩

/-- The interpreter with these builtins, and without a limit on nested calls, ends the program with an
outcome after these calls of builtins. -/
def Finishes (builtins : Builtins) (names : Interner) (program : Block)
    (outcome : Except (Fault String) Unit) (trace : List HostCall) : Prop :=
  ∃ steps result interpreter later,
    (Interpreter.new builtins none).runWithin steps program names = (some (result, interpreter), later) ∧
      result.outcome.mapError Failure.fault = outcome ∧ result.history.reverse = trace

/-- Where the builtins cannot be seeded, the interpreter ends at once. -/
theorem runWithin_of_refused {builtins : Builtins} {names later : Interner} {fault : Fault Name}
    {world : World} (h : Seeds World.initial builtins.entries names (.error fault) world later)
    (program : Block) (steps : Nat) :
    (Interpreter.new builtins none).runWithin steps program names =
      (some (⟨.error ⟨fault.map later.lookup, []⟩, []⟩, Interpreter.new builtins none), later) := by
  obtain ⟨result, seeded, hDeclared, hResult, -⟩ := h.declares agrees_root Store.holds_root
  obtain ⟨error, rfl, rfl⟩ := mapError_eq_error hResult
  have hRoot : Store.empty.root = (0, (Store.empty.root).2) := rfl
  have hEntries : (Interpreter.new builtins none).builtins.entries = builtins.entries := rfl
  rw [Interpreter.runWithin, hRoot, hEntries]
  simp only [hDeclared]
  rfl

/-- Where they can, the machine runs the program, from scopes that are the frames of the semantics. -/
theorem runWithin_of_seeded {builtins : Builtins} {names later : Interner} {world : World}
    (h : Seeds World.initial builtins.entries names (.ok ()) world later) (program : Block) :
    ∃ store, Agrees store world ∧
      State.Disciplined ⟨.execute program 0 .halt, store, CallStack.empty none, world.history⟩ ∧
      ∀ steps, (Interpreter.new builtins none).runWithin steps program names =
        ((Machine.run steps ⟨.execute program 0 .halt, store, CallStack.empty none, world.history⟩).map
          (fun state => (Interpreter.new builtins none).finish state later), later) := by
  obtain ⟨result, seeded, hDeclared, hResult, hAgrees⟩ := h.declares agrees_root Store.holds_root
  obtain rfl := mapError_eq_ok hResult
  have hSeeded : Interpreter.declareBuiltins (Store.empty.root).2 0
      (Interpreter.new builtins none).builtins.entries names = ((.ok (), seeded), later) := hDeclared
  have hHistory : world.history = [] := h.history
  rw [hHistory]
  exact ⟨seeded, hAgrees, Interpreter.disciplined_start hSeeded program,
    Interpreter.runWithin_eq hSeeded program⟩

/-- A completed program is where the machine rests, and this is how its run is reported. -/
theorem run_of_completes {state : State} {outcome : Outcome Completion} {calls : CallStack}
    {final : World} (h : Completes state outcome .halt calls final) :
    ∃ result store, result.mapError Failure.fault = outcome ∧
      (∃ steps, Machine.run steps state =
        some ⟨.completed result .halt, store, calls, final.history⟩) ∧
      ∀ steps later, Machine.run steps state = some later →
        later = ⟨.completed result .halt, store, calls, final.history⟩ := by
  obtain ⟨result, store, ⟨steps, hSteps⟩, hResult, -⟩ := h
  have hRests : State.Rests ⟨.completed result .halt, store, calls, final.history⟩ := rfl
  refine ⟨result, store, hResult, ⟨steps, (run_eq_some_iff ..).mpr ⟨hSteps, hRests⟩⟩, ?_⟩
  intro more later hMore
  exact run_unique hMore ((run_eq_some_iff ..).mpr ⟨hSteps, hRests⟩)

/-- For every program, every registry of builtins and every table of names, the interpreter without a
limit on nested calls ends with an outcome after a sequence of calls of builtins exactly if the
natural semantics derives both. Programs that do not end are those without a derivation. -/
theorem finishes_iff_run (builtins : Builtins) (names : Interner) (program : Block)
    (outcome : Except (Fault String) Unit) (trace : List HostCall) :
    Finishes builtins names program outcome trace ↔ Run builtins names program outcome trace := by
  constructor
  · rintro ⟨steps, report, interpreter, last, hRun, rfl, rfl⟩
    obtain ⟨seeding, world, later, hSeeds⟩ := exists_seeds World.initial builtins.entries names
    cases seeding with
    | error fault =>
        rw [runWithin_of_refused hSeeds] at hRun
        cases hRun
        exact Run.refused hSeeds
    | ok done =>
        obtain ⟨store, hAgrees, hWork, hRuns⟩ := runWithin_of_seeded hSeeds program
        rw [hRuns, Prod.mk.injEq, Option.map_eq_some_iff] at hRun
        obtain ⟨⟨final, hFinal, hReport⟩, rfl⟩ := hRun
        have hRest : RestsWithin steps _ := run_rests hFinal
        obtain ⟨outcome, after, hExecutes⟩ := executesAll_of_rests hAgrees hRest rfl hWork
        obtain ⟨result, store, hResult, -, hUnique⟩ :=
          run_of_completes (hExecutes.completes rfl hAgrees hWork)
        obtain rfl := hUnique steps final hFinal
        cases hReport
        subst hResult
        cases result with
        | error failure => exact Run.failed hSeeds hExecutes
        | ok completion => exact Run.returned hSeeds hExecutes
  · intro hRun
    cases hRun with
    | refused seeded => exact ⟨0, _, _, _, runWithin_of_refused seeded program 0, rfl, rfl⟩
    | returned seeded executed =>
        obtain ⟨store, hAgrees, hWork, hRuns⟩ := runWithin_of_seeded seeded program
        obtain ⟨result, store, hResult, ⟨steps, hSteps⟩, -⟩ :=
          run_of_completes (executed.completes rfl hAgrees hWork)
        obtain rfl := mapError_eq_ok hResult
        exact ⟨steps, _, _, _, by rw [hRuns, hSteps]; rfl, rfl, rfl⟩
    | failed seeded executed =>
        obtain ⟨store, hAgrees, hWork, hRuns⟩ := runWithin_of_seeded seeded program
        obtain ⟨result, store, hResult, ⟨steps, hSteps⟩, -⟩ :=
          run_of_completes (executed.completes rfl hAgrees hWork)
        obtain ⟨failure, rfl, rfl⟩ := mapError_eq_error hResult
        exact ⟨steps, _, _, _, by rw [hRuns, hSteps]; rfl, rfl, rfl⟩

end Semantics

end IntScript
