import IntScript.Proofs.Machine.Discipline

/-! Runs of the machine, counted in steps. A machine at rest stays as it is, so a run may be looked at
after any number of steps that is large enough. -/
namespace IntScript.Machine

def after : (steps : Nat) → State → State
  | 0, state => state
  | steps + 1, state => after steps (step state)

def State.Rests (state : State) : Prop :=
  state.result?.isSome

def Reaches (state later : State) : Prop :=
  ∃ steps, after steps state = later

theorem after_add (first second : Nat) (state : State) :
    after (first + second) state = after second (after first state) := by
  induction first generalizing state with
  | zero => rw [Nat.zero_add, after]
  | succ first ih => rw [Nat.succ_add, after, after, ih]

/-- A machine is at rest where the whole program has been completed, with whatever result. -/
theorem State.rests_iff (state : State) :
    state.Rests ↔ ∃ result, state.control = .completed result .halt := by
  obtain ⟨control, store, calls, history⟩ := state
  rw [Rests, result?]
  split
  next result hControl => exact ⟨fun _ => ⟨result, hControl⟩, fun _ => rfl⟩
  next hOther =>
    constructor
    · intro hNone
      cases hNone
    · rintro ⟨result, hControl⟩
      exact absurd hControl (hOther result)

theorem State.Rests.step {state : State} (h : state.Rests) : Machine.step state = state := by
  obtain ⟨result, hControl⟩ := state.rests_iff.mp h
  obtain ⟨control, store, calls, history⟩ := state
  cases hControl
  rfl

theorem State.Rests.after {state : State} (h : state.Rests) (steps : Nat) :
    Machine.after steps state = state := by
  induction steps with
  | zero => rfl
  | succ steps ih => rw [Machine.after, h.step, ih]

/-- A run that ends within a number of steps ends in the state after that many steps. -/
theorem run_eq_some_iff (steps : Nat) (state final : State) :
    run steps state = some final ↔ after steps state = final ∧ final.Rests := by
  induction steps generalizing state with
  | zero =>
      rw [run, after]
      split
      next hRests =>
        rw [Option.some.injEq]
        constructor
        · rintro rfl
          exact ⟨rfl, hRests⟩
        · exact fun h => h.1
      next hRuns =>
        constructor
        · intro h
          cases h
        · rintro ⟨rfl, hRests⟩
          exact absurd hRests hRuns
  | succ steps ih =>
      rw [run]
      split
      next hRests =>
        have hRests : state.Rests := hRests
        rw [hRests.after, Option.some.injEq]
        constructor
        · rintro rfl
          exact ⟨rfl, hRests⟩
        · exact fun h => h.1
      next => exact ih (step state)

theorem Reaches.refl (state : State) : Reaches state state :=
  ⟨0, rfl⟩

theorem Reaches.trans {first second third : State} (h : Reaches first second)
    (further : Reaches second third) : Reaches first third := by
  obtain ⟨before, rfl⟩ := h
  obtain ⟨beyond, rfl⟩ := further
  exact ⟨before + beyond, after_add before beyond first⟩

/-- A run that begins with a step. -/
theorem Reaches.of_step {state later : State} (h : Reaches (step state) later) :
    Reaches state later := by
  obtain ⟨steps, rfl⟩ := h
  exact ⟨steps + 1, rfl⟩

/-- The work is in order in every state of a run. -/
theorem State.Disciplined.reaches {state later : State} (h : state.Disciplined)
    (hReaches : Reaches state later) : later.Disciplined := by
  obtain ⟨steps, rfl⟩ := hReaches
  induction steps generalizing state with
  | zero => exact h
  | succ steps ih => exact ih h.step

def RestsWithin (steps : Nat) (state : State) : Prop :=
  (after steps state).Rests

/-- A machine that is not at rest needs at least one step. -/
theorem RestsWithin.step {steps : Nat} {state : State} (h : RestsWithin steps state)
    (hRuns : ¬ state.Rests) : ∃ fewer, fewer < steps ∧ RestsWithin fewer (Machine.step state) := by
  cases steps with
  | zero => exact absurd h hRuns
  | succ steps => exact ⟨steps, Nat.lt_succ_self steps, h⟩

/-- A run that ends within a number of steps is at rest after them. -/
theorem run_rests {steps : Nat} {state final : State} (h : run steps state = some final) :
    RestsWithin steps state := by
  obtain ⟨rfl, hRests⟩ := (run_eq_some_iff ..).mp h
  exact hRests

/-- However many steps are granted, a run ends in one state. -/
theorem run_unique {first second : Nat} {state final other : State}
    (h : run first state = some final) (hOther : run second state = some other) : final = other := by
  obtain ⟨rfl, hRests⟩ := (run_eq_some_iff ..).mp h
  obtain ⟨rfl, hOtherRests⟩ := (run_eq_some_iff ..).mp hOther
  rw [← hRests.after second, ← after_add, Nat.add_comm, after_add, hOtherRests.after]

/-- A run that begins with a step. -/
theorem run_of_step {steps : Nat} {state final : State} (h : run steps (step state) = some final) :
    run (steps + 1) state = some final := by
  obtain ⟨hAfter, hRests⟩ := (run_eq_some_iff ..).mp h
  exact (run_eq_some_iff ..).mpr ⟨hAfter, hRests⟩

/-- What is left of a run that comes to rest comes to rest as well. -/
theorem RestsWithin.reaches {steps : Nat} {state later : State} (h : RestsWithin steps state)
    (hReaches : Reaches state later) : ∃ fewer, fewer ≤ steps ∧ RestsWithin fewer later := by
  obtain ⟨used, rfl⟩ := hReaches
  refine ⟨steps - used, Nat.sub_le steps used, ?_⟩
  rw [RestsWithin] at h ⊢
  rcases Nat.le_total used steps with hLe | hGe
  · rwa [← after_add, Nat.add_sub_cancel' hLe]
  · rw [Nat.sub_eq_zero_of_le hGe, after]
    have hSplit := after_add steps (used - steps) state
    rw [Nat.add_sub_cancel' hGe, h.after] at hSplit
    rwa [hSplit]

def Control.failure? : Control → Option (Failure Name)
  | value (.error failure) _ | completed (.error failure) _ => some failure
  | _ => none

mutual

/-- A failure is handed on until nothing is pending, and nothing changes it. -/
theorem AfterValue.unwinds (next : AfterValue) (failure : Failure Name) (store : Store)
    (calls : CallStack) (history : History) :
    ∃ final, Reaches ⟨.value (.error failure) next, store, calls, history⟩ final ∧
      final.result? = some (.error failure) := by
  match next with
  | .rightOperand _ _ _ next | .operator _ _ next | .argument _ _ _ _ next =>
      obtain ⟨final, hReaches, hResult⟩ := next.unwinds failure _ calls history
      exact ⟨final, Reaches.of_step hReaches, hResult⟩
  | .declare _ _ next | .assign _ _ next | .yield next | .discard next | .branch _ _ _ next
  | .test _ _ _ next =>
      obtain ⟨final, hReaches, hResult⟩ := next.unwinds failure store calls history
      exact ⟨final, Reaches.of_step hReaches, hResult⟩

/-- A failure is handed on through all that waits, so it always ends the run. -/
theorem AfterBlock.unwinds (next : AfterBlock) (failure : Failure Name) (store : Store)
    (calls : CallStack) (history : History) :
    ∃ final, Reaches ⟨.completed (.error failure) next, store, calls, history⟩ final ∧
      final.result? = some (.error failure) := by
  match next with
  | .halt => exact ⟨_, Reaches.refl _, rfl⟩
  | .sequence _ _ next | .leave _ next | .again _ _ _ next =>
      obtain ⟨final, hReaches, hResult⟩ := next.unwinds failure _ calls history
      exact ⟨final, Reaches.of_step hReaches, hResult⟩
  | .finish _ next =>
      obtain ⟨final, hReaches, hResult⟩ := next.unwinds failure _ calls.pop history
      exact ⟨final, Reaches.of_step hReaches, hResult⟩

end

/-- A run in which a failure is handed on ends with that failure. -/
theorem exists_run_of_failure {state : State} {failure : Failure Name}
    (h : state.control.failure? = some failure) :
    ∃ steps final, run steps state = some final ∧ final.result? = some (.error failure) := by
  have hEnds : ∃ final, Reaches state final ∧ final.result? = some (.error failure) := by
    obtain ⟨control, store, calls, history⟩ := state
    cases control with
    | value result next =>
        cases result with
        | ok value => cases h
        | error cause =>
            cases h
            exact next.unwinds failure store calls history
    | completed result next =>
        cases result with
        | ok completion => cases h
        | error cause =>
            cases h
            exact next.unwinds failure store calls history
    | evaluate expr scope next | apply callee known pending inner next | execute block scope next =>
        cases h
  obtain ⟨final, ⟨steps, hSteps⟩, hResult⟩ := hEnds
  refine ⟨steps, final, (run_eq_some_iff ..).mpr ⟨hSteps, ?_⟩, hResult⟩
  rw [State.Rests, hResult, Option.isSome_some]

end IntScript.Machine
