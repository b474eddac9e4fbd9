import IntScript.Proofs.Machine.Start
import IntScript.Proofs.Renaming.Machine
import IntScript.Proofs.Renaming.Tables

/-! A program comes to the same by way of two tables of names, and a run leaves its interpreter as it was. -/
namespace IntScript

open Interner Machine Store

/-- A report has no names but only their texts, which are the same. -/
theorem Fault.Like.texts {table other : Interner} {first second : Fault Name}
    (h : first.Like (SameText table other) second) : first.map table.lookup = second.map other.lookup := by
  cases h with
  | divisionByZero | moduloByZero | callDepthExceeded => rfl
  | duplicateVariable paired | duplicateFunction paired | undefinedVariable paired
  | undefinedFunction paired | arityMismatch paired => rw [Fault.map, Fault.map, paired.lookup]

/-- Failures about the same texts are reported the same. -/
theorem Failure.Like.texts {table other : Interner} {first second : Failure Name}
    (h : first.Like (SameText table other) second) : first.map table.lookup = second.map other.lookup := by
  have hFrames : first.backtrace.map table.lookup = second.backtrace.map other.lookup := by
    have hBacktrace := h.backtrace
    generalize first.backtrace = frames at hBacktrace ⊢
    generalize second.backtrace = frames' at hBacktrace ⊢
    induction hBacktrace with
    | nil => rfl
    | cons paired _ ih => rw [List.map_cons, List.map_cons, paired.lookup, ih]
  rw [Failure.map, Failure.map, h.fault.texts, hFrames]

/-- Where no function is running, there are no names to pair. -/
theorem CallStack.like_of_depth {calls : CallStack} (h : calls.depth = 0) (pairs : Name → Name → Prop) :
    calls.Like pairs calls := by
  refine ⟨?_, rfl⟩
  rw [← CallStack.length_backtrace, List.length_eq_zero_iff] at h
  rw [h]
  exact .nil

namespace Interpreter

section

variable {store seeded : Store} {scope : ScopeId} {names later : Interner}

/-- Builtins are numbered in order, up to one whose name is taken. -/
theorem declareBuiltins_table (store : Store) (scope : ScopeId) (entries : List Builtin) (names : Interner) :
    ∃ texts, texts <+: entries.map (·.name) ∧
      (declareBuiltins store scope entries names).2 = (names.internAll texts).2 := by
  induction entries generalizing store names with
  | nil => exact ⟨[], List.nil_prefix, rfl⟩
  | cons builtin others ih =>
      rw [declareBuiltins]
      simp only
      split
      next further _ =>
        obtain ⟨texts, hPrefix, hTable⟩ := ih further (names.intern builtin.name).2
        exact ⟨builtin.name :: texts, (List.prefix_cons_inj _).mpr hPrefix, hTable⟩
      next => exact ⟨[builtin.name], (List.prefix_cons_inj _).mpr List.nil_prefix, rfl⟩

/-- Even if a builtin is refused, no more is numbered than the names of all of them. -/
theorem growsTo_declareBuiltins (store : Store) (scope : ScopeId) (entries : List Builtin)
    (names : Interner) :
    (declareBuiltins store scope entries names).2.GrowsTo (names.internAll (entries.map (·.name))).2 := by
  obtain ⟨texts, hPrefix, hTable⟩ := declareBuiltins_table store scope entries names
  rw [hTable]
  exact names.growsTo_of_prefix hPrefix

/-- A run numbers nothing but names of builtins. -/
theorem runWithin_table (steps : Nat) (interpreter : Interpreter) (program : Block) (names : Interner) :
    ∃ texts, texts <+: interpreter.builtins.names ∧
      (interpreter.runWithin steps program names).2 = (names.internAll texts).2 := by
  obtain ⟨texts, hPrefix, hTable⟩ :=
    declareBuiltins_table (Store.empty.root).2 0 interpreter.builtins.entries names
  refine ⟨texts, hPrefix, ?_⟩
  rw [← hTable]
  rcases hSeeding : declareBuiltins (Store.empty.root).2 0 interpreter.builtins.entries names with
    ⟨⟨_ | _, seeded⟩, later⟩
  · rw [runWithin_unseeded hSeeding]
  · rw [runWithin_eq hSeeding]

/-- Where all builtins are declared, all their names are numbered. -/
theorem table_of_seeded {entries : List Builtin}
    (h : declareBuiltins store scope entries names = ((.ok (), seeded), later)) :
    later = (names.internAll (entries.map (·.name))).2 := by
  induction entries generalizing store names with
  | nil =>
      cases h
      rfl
  | cons builtin others ih =>
      rw [declareBuiltins] at h
      simp only at h
      split at h
      next => exact ih h
      next => cases h

/-- A name that is taken has its text in the table. -/
theorem text_of_unseeded {entries : List Builtin} {error : ScopeError}
    (h : declareBuiltins store scope entries names = ((.error error, seeded), later))
    (hFits : later.size ≤ capacity) :
    ∃ name text, error = .duplicateFunction name ∧ later.text? name = some text := by
  induction entries generalizing store names with
  | nil => cases h
  | cons builtin others ih =>
      rw [declareBuiltins] at h
      simp only at h
      split at h
      next => exact ih h
      next failed _ hDeclared =>
        cases h
        exact ⟨_, builtin.name, declareFunction_error hDeclared, text?_intern hFits⟩

end

section

variable {last final : Interner} (hOne : OneToOne (SameText last final)) (hFits : last.size ≤ capacity)
  (hRoom : final.size ≤ capacity)

include hOne hFits hRoom

/-- The same builtins are declared by way of both tables. -/
theorem declareBuiltins_like {store store' : Store} (hStore : store.Like (SameText last final) store')
    (scope : ScopeId) {entries : List Builtin} {names others : Interner}
    (hFirst : (names.internAll (entries.map (·.name))).2.GrowsTo last)
    (hSecond : (others.internAll (entries.map (·.name))).2.GrowsTo final) :
    ChangeLike (SameText last final) (declareBuiltins store scope entries names).1
      (declareBuiltins store' scope entries others).1 := by
  induction entries generalizing store store' names others with
  | nil => exact .ok hStore
  | cons builtin entries ih =>
      have hName := sameText_intern ((growsTo_internAll _ _).trans hFirst) hFits
        ((growsTo_internAll _ _).trans hSecond) hRoom
      have hDeclared := hStore.declareFunction hOne hName scope (.builtin builtin)
      rw [declareBuiltins, declareBuiltins]
      simp only
      generalize store.declareFunction scope _ _ = change at hDeclared ⊢
      generalize store'.declareFunction scope _ _ = change' at hDeclared ⊢
      cases hDeclared with
      | ok sameStore => exact ih sameStore hFirst hSecond
      | error sameError sameStore => exact .error sameError sameStore

end

section

variable {interpreter : Interpreter} (hIdle : interpreter.calls.depth = 0) {names others : Interner}

/-- What a run came to is told in texts. -/
theorem finish_like {state state' : State} (h : state.Like (SameText names others) state') :
    (interpreter.finish state names).1 = (interpreter.finish state' others).1 := by
  have hResult := h.result?
  rw [finish, finish, h.history]
  generalize state.result? = result at hResult ⊢
  generalize state'.result? = result' at hResult ⊢
  cases hResult with
  | none => rfl
  | some same =>
      cases same with
      | ok => rfl
      | error sameFailure =>
          simp only
          rw [sameFailure.texts]

include hIdle

/-- Where no program runs, the same name is reported as taken. -/
theorem runWithin_like_of_unseeded {seeded seeded' : Store} {later later' : Interner}
    {error error' : ScopeError}
    (hFirst : declareBuiltins (Store.empty.root).2 0 interpreter.builtins.entries names =
      ((.error error, seeded), later))
    (hSecond : declareBuiltins (Store.empty.root).2 0 interpreter.builtins.entries others =
      ((.error error', seeded'), later'))
    (hFits : (names.internAll interpreter.builtins.names).2.size ≤ capacity)
    (hRoom : (others.internAll interpreter.builtins.names).2.size ≤ capacity)
    (hError : error.Like (SameText (names.internAll interpreter.builtins.names).2
      (others.internAll interpreter.builtins.names).2) error') (program program' : Block) (steps : Nat) :
    (interpreter.runWithin steps program names).1.map Prod.fst =
      (interpreter.runWithin steps program' others).1.map Prod.fst := by
  have hLater := growsTo_declareBuiltins (Store.empty.root).2 0 interpreter.builtins.entries names
  have hLater' := growsTo_declareBuiltins (Store.empty.root).2 0 interpreter.builtins.entries others
  rw [hFirst] at hLater
  rw [hSecond] at hLater'
  obtain ⟨name, text, rfl, hText⟩ := text_of_unseeded hFirst (Nat.le_trans hLater.size hFits)
  obtain ⟨name', text', rfl, hText'⟩ := text_of_unseeded hSecond (Nat.le_trans hLater'.size hRoom)
  cases hError with
  | duplicateFunction paired =>
      have hName := paired.of_growsTo hLater hLater' hText hText'
      have hFailure := (CallStack.like_of_depth hIdle (SameText later later')).failure
        (Fault.Like.duplicateFunction hName)
      rw [runWithin_unseeded hFirst, runWithin_unseeded hSecond]
      simp only [Option.map_some, ScopeError.fault, hFailure.texts]

/-- What a program comes to does not depend on how names are numbered. -/
theorem runWithin_like (hFits : (names.internAll interpreter.builtins.names).2.size ≤ capacity)
    (hRoom : (others.internAll interpreter.builtins.names).2.size ≤ capacity) {program program' : Block}
    (hProgram : Block.Like (SameText (names.internAll interpreter.builtins.names).2
      (others.internAll interpreter.builtins.names).2) program program') (steps : Nat) :
    (interpreter.runWithin steps program names).1.map Prod.fst =
      (interpreter.runWithin steps program' others).1.map Prod.fst := by
  have hOne : OneToOne (SameText (names.internAll interpreter.builtins.names).2
      (others.internAll interpreter.builtins.names).2) :=
    oneToOne_sameText _ _
  have hSeeding := declareBuiltins_like hOne hFits hRoom Store.Like.root 0
    (GrowsTo.refl _) (GrowsTo.refl _)
  rcases hFirst : declareBuiltins (Store.empty.root).2 0 interpreter.builtins.entries names with
    ⟨⟨outcome, seeded⟩, later⟩
  rcases hSecond : declareBuiltins (Store.empty.root).2 0 interpreter.builtins.entries others with
    ⟨⟨outcome', seeded'⟩, later'⟩
  rw [hFirst, hSecond] at hSeeding
  cases hSeeding with
  | ok sameStore =>
      have hStart : (interpreter.start program seeded 0).Like _ (interpreter.start program' seeded' 0) :=
        ⟨.execute hProgram 0 .halt, sameStore, CallStack.like_of_depth hIdle _, rfl⟩
      have hRun := hStart.run hOne steps
      rw [runWithin_eq hFirst, runWithin_eq hSecond, table_of_seeded hFirst, table_of_seeded hSecond]
      generalize Machine.run steps (interpreter.start program seeded 0) = rested at hRun ⊢
      generalize Machine.run steps (interpreter.start program' seeded' 0) = rested' at hRun ⊢
      cases hRun with
      | none => rfl
      | some same => exact congrArg some (finish_like same)
  | error sameError sameStore =>
      exact runWithin_like_of_unseeded hIdle hFirst hSecond hFits hRoom sameError program program' steps

/-- However a run ends, no function of it is left running. -/
theorem runWithin_idle {program : Block} {steps : Nat} {result : RunResult} {ended : Interpreter}
    (h : (interpreter.runWithin steps program names).1 = some (result, ended)) :
    ended = interpreter := by
  rcases hFirst : declareBuiltins (Store.empty.root).2 0 interpreter.builtins.entries names with
    ⟨⟨outcome, seeded⟩, later⟩
  cases outcome with
  | error error =>
      rw [runWithin_unseeded hFirst] at h
      cases h
      rfl
  | ok =>
      rw [runWithin_eq hFirst] at h
      obtain ⟨final, hRun, hFinish⟩ := Option.map_eq_some_iff.mp h
      obtain ⟨rfl, hRests⟩ := (run_eq_some_iff ..).mp hRun
      have hBalanced : (interpreter.start program seeded 0).Balanced := hIdle
      have hDepth := (hBalanced.after steps).depth_of_rests hRests
      have hLimit := limit_after steps (interpreter.start program seeded 0)
      have hCalls := CallStack.eq_of_depth hDepth hIdle hLimit
      cases hFinish
      rw [hCalls]

end

end Interpreter

end IntScript
