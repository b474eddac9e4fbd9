import IntScript.Proofs.Machine.Balance
import IntScript.Proofs.Machine.Framing
import IntScript.Proofs.Machine.Truncation
import Mathlib.Data.List.Sort

/-! Backtraces. A failure names the functions of the calls that are in progress when it is raised, and
names the same ones when the run ends. -/
namespace IntScript

namespace Machine

section

variable {region : Region} {base : AfterValue}

mutual

/-- What is done before some work is no part of it. -/
theorem AfterValue.Above.sizeOf_le {next : AfterValue} (h : next.Above region (.value base)) :
    sizeOf base ≤ sizeOf next := by
  cases h with
  | base same =>
      cases same
      exact Nat.le_refl _
  | rightOperand _ above | operator above | argument _ _ above =>
      exact Nat.le_trans above.sizeOf_le (Nat.le_add_left _ _)
  | declare _ above | assign _ above | yield above | discard above | branch _ above | test _ above =>
      exact Nat.le_trans above.sizeOf_le (Nat.le_add_left _ _)

/-- Work before another one is larger than it. -/
theorem AfterBlock.Above.sizeOf_le {next : AfterBlock} (h : next.Above region (.value base)) :
    sizeOf base ≤ sizeOf next := by
  cases h with
  | base same => cases same
  | sequence _ above | leave _ above | again _ above =>
      exact Nat.le_trans above.sizeOf_le (Nat.le_add_left _ _)
  | finish _ above => exact Nat.le_trans above.sizeOf_le (Nat.le_add_left _ _)

end

/-- A call made before some work hands its value on before that work as well. -/
theorem Control.Above.of_called {control : Control} {pending : Pending}
    (h : control.Above region pending) {name : Name} {next : AfterValue}
    (hCalled : control.called? = some (name, next)) : next.Above region pending := by
  unfold called? at hCalled
  split at hCalled
  next =>
    cases hCalled
    exact h.2.2
  next => cases hCalled

end

/-- Of the faults that a call raises, only that of a parameter given twice is raised when the function
has been entered. -/
theorem Raises.called {state : State} {fault : Fault Name} (h : Raises state fault) {name : Name}
    {next : AfterValue} (hCalled : state.control.called? = some (name, next)) :
    ((∀ parameter, fault ≠ .duplicateVariable parameter) ∧
        (step state).control = .value (.error (state.calls.failure fault)) next ∧
        (step state).calls = state.calls) ∨
      (∃ parameter, fault = .duplicateVariable parameter) ∧
        (step state).control.waiting = next :: state.control.waiting ∧
        (step state).calls = ⟨state.calls.frames.push name, state.calls.limit⟩ := by
  cases h with
  | reference | callee | operator | declare | assign | function => cases hCalled
  | arity mismatch =>
      cases hCalled
      rw [step, call, if_pos mismatch]
      exact Or.inl ⟨fun _ hSame => (by cases hSame), rfl, rfl⟩
  | released matching gone =>
      cases hCalled
      rw [step, call, if_neg (not_not_intro matching), if_pos (by rw [gone]; rfl)]
      exact Or.inl ⟨fun _ hSame => (by cases hSame), rfl, rfl⟩
  | depth matching live full =>
      cases hCalled
      rw [step, call, if_neg (not_not_intro matching), if_neg (by rw [live]; decide),
        CallStack.push_of_full full]
      exact Or.inl ⟨fun _ hSame => (by cases hSame), rfl, rfl⟩
  | parameter matching live free twice =>
      cases hCalled
      rw [step, call, if_neg (not_not_intro matching), if_neg (by rw [live]; decide),
        CallStack.push_of_free free]
      simp only [twice]
      obtain ⟨parameter, -, rfl⟩ := bindParameters_error twice
      exact Or.inr ⟨⟨parameter, rfl⟩, rfl, trivial⟩

/-- Where no function of the program is called, raising a fault enters and leaves none. -/
theorem Raises.uncalled {state : State} {fault : Fault Name} (h : Raises state fault)
    (hCalled : state.control.called? = none) :
    (step state).control.waiting = state.control.waiting ∧ (step state).calls = state.calls := by
  cases state.switch with
  | stays _ waiting calls _ | consults _ _ waiting calls _ => exact ⟨waiting, calls⟩
  | refuses called _ _ _ _ | enters called _ _ _ _ =>
      rw [hCalled] at called
      cases called
  | leaves finished _ _ _ => cases h <;> cases finished

/-- The calls in progress are listed in one way. -/
theorem Lists.unique {start : State} {now : Nat} {entries others : List (Nat × Name)}
    (h : Lists start now entries) (hOthers : Lists start now others) : entries = others := by
  have : Std.Irrefl (fun entry other : Nat × Name => other.1 < entry.1) := ⟨fun _ => Nat.lt_irrefl _⟩
  have : Std.Antisymm (fun entry other : Nat × Name => other.1 < entry.1) :=
    ⟨fun _ _ hLess hMore => absurd hLess (Nat.lt_asymm hMore)⟩
  refine List.Pairwise.eq_of_mem_iff h.descending hOthers.descending ?_
  rintro ⟨since, name⟩
  rw [h.exact, hOthers.exact]

section

variable {start : State} {moment : Nat} {entries : List (Nat × Name)} {fault : Fault Name}

/-- The calls in progress are the same when the fault has been raised, except that the call of a function
with a parameter given twice is one of them. -/
theorem Tracks.raises (h : Tracks start moment entries) (hRaises : Raises (after moment start) fault) :
    (Tracks start (moment + 1) entries ∧ ∀ name next parameter,
        (after moment start).control.called? = some (name, next) →
        fault ≠ .duplicateVariable parameter) ∨
      ∃ name next parameter, (after moment start).control.called? = some (name, next) ∧
        fault = .duplicateVariable parameter ∧ Tracks start (moment + 1) ((moment, name) :: entries) := by
  cases hCalled : (after moment start).control.called? with
  | none =>
      obtain ⟨hWaiting, hCalls⟩ := hRaises.uncalled hCalled
      refine Or.inl ⟨h.keeps (fun name next hOther => ?_) hWaiting hCalls,
        fun name next parameter hOther => ?_⟩
      · rw [hCalled] at hOther
        cases hOther
      · cases hOther
  | some called =>
      obtain ⟨name, next⟩ := called
      rcases hRaises.called hCalled with
        ⟨hOther, hControl, hCalls⟩ | ⟨⟨parameter, hFault⟩, hWaiting, hCalls⟩
      · refine Or.inl ⟨h.keeps (fun other found hFound => ?_) ?_ hCalls,
          fun _ _ parameter _ => hOther parameter⟩
        · rw [hCalled] at hFound
          cases hFound
          rw [hControl, Control.handsTo]
        · rw [hControl, Control.waiting_of_called hCalled, Control.waiting]
      · exact Or.inr ⟨name, next, parameter, rfl, hFault, h.enters hCalled hWaiting hCalls⟩

end

/-- The step after `moment` steps raises the fault, and the entries are the calls in progress then. -/
structure FailsAt (start : State) (moment : Nat) (fault : Fault Name) (entries : List (Nat × Name)) :
    Prop where
  raised : Raises (after moment start) fault
  listed : Lists start (moment + 1) entries
  /-- The failure names their functions, and is handed on as it is. -/
  kept : ∀ later, moment < later →
    (after later start).control.failure? = some ⟨fault, entries.map Prod.snd⟩
  /-- A call that is refused is not one of them: they were in progress before. -/
  refused : (∀ name next parameter, (after moment start).control.called? = some (name, next) →
    fault ≠ .duplicateVariable parameter) → Lists start moment entries
  /-- A call that fails for a parameter given twice is the latest of them. -/
  entered : ∀ name next parameter, (after moment start).control.called? = some (name, next) →
    fault = .duplicateVariable parameter →
    ∃ others, entries = (moment, name) :: others ∧ Lists start moment others
  /-- A call whose argument fails is not one of them. They are those that were in progress when the
  argument was begun, after those that it has made. -/
  argument : ∀ since expr callee known pending inner next, since ≤ moment →
    (after since start).control = .evaluate expr inner (.argument callee known pending inner next) →
    (∀ earlier, since ≤ earlier → earlier ≤ moment →
      ¬ (after earlier start).control.handsTo (.value (.argument callee known pending inner next))) →
    ∃ within outside, entries = within ++ outside ∧ Lists start since outside ∧
      ∀ entry ∈ within, since ≤ entry.1 ∧
        ∀ name, (after entry.1 start).control.called? ≠ some (name, next)
  /-- A fault outside of all calls has none. -/
  outermost : (∀ since name, ¬ InProgress start (moment + 1) since name) → entries = []
  /-- At the limit there are as many as the limit allows. -/
  exceeding : ∀ limit, fault = .callDepthExceeded limit → entries.length = limit

section

variable {start : State} {moment : Nat} {entries : List (Nat × Name)} {fault : Fault Name}

/-- While an argument is evaluated, the calls in progress are those that were when it was begun, after
those that it has made. The call that it is an argument of is not among them. -/
theorem Tracks.argument {now since : Nat} (h : Tracks start now entries) (hSince : since ≤ now)
    {others : List (Nat × Name)} (hOthers : Tracks start since others)
    (hWork : (after since start).Disciplined) {expr : Expr} {callee : Callable} {known : List Int32}
    {pending : List Expr} {inner : ScopeId} {next : AfterValue}
    (hBegins : (after since start).control =
      .evaluate expr inner (.argument callee known pending inner next))
    (hWaits : ∀ earlier, since ≤ earlier → earlier < now →
      ¬ (after earlier start).control.handsTo (.value (.argument callee known pending inner next))) :
    ∃ within, entries = within ++ others ∧ ∀ entry ∈ within, since ≤ entry.1 ∧
      ∀ name, (after entry.1 start).control.called? ≠ some (name, next) := by
  obtain ⟨count, rfl⟩ := Nat.exists_eq_add_of_le hSince
  have hDuring (more : Nat) (hMore : more ≤ count) :
      During (.value (.argument callee known pending inner next)) (after since start)
        (after (since + more) start) := by
    rw [after_add]
    refine During.after fun earlier hEarlier => ?_
    rw [← after_add]
    exact hWaits (since + earlier) (Nat.le_add_right since earlier) (by omega)
  have hConfined := State.confined_of_evaluate hBegins
  obtain ⟨within, hNow, hMade⟩ := hOthers.during hWork hConfined (by rw [hBegins]; rfl) hDuring
  obtain rfl := h.lists.unique hNow.lists
  refine ⟨within, rfl, fun entry hEntry => ⟨hMade entry hEntry, fun name hCalled => ?_⟩⟩
  have hProgress := (h.lists.exact entry.1 entry.2).mp (List.mem_append_left others hEntry)
  obtain ⟨more, hMoment⟩ := Nat.exists_eq_add_of_le (hMade entry hEntry)
  rw [hMoment] at hCalled
  have hMore : more ≤ count := by
    have hBefore := hProgress.1
    omega
  have hAbove := (hConfined.during hWork (hDuring more hMore)).control.of_called hCalled
  have hSize := hAbove.sizeOf_le
  rw [AfterValue.argument.sizeOf_spec] at hSize
  omega

/-- In a run that starts with nothing in progress. -/
theorem failsAt_of_raises (hStart : start.control.waiting = []) (hDepth : start.calls.depth = 0)
    (hWork : ∀ now, (after now start).Disciplined) {failure : Failure Name}
    (hRaises : Raises (after moment start) failure.fault)
    (hFailure : failure = (after (moment + 1) start).calls.failure failure.fault)
    (hRaised : (after (moment + 1) start).control.failure? = some failure) :
    ∃ entries, FailsAt start moment failure.fault entries ∧
      failure = ⟨failure.fault, entries.map Prod.snd⟩ := by
  obtain ⟨before, hBefore⟩ := exists_tracks hStart hDepth moment
  obtain ⟨entries, hTracks⟩ := exists_tracks hStart hDepth (moment + 1)
  have hNamed : failure = ⟨failure.fault, entries.map Prod.snd⟩ := by
    rw [← hTracks.backtrace]
    exact hFailure
  refine ⟨entries, ⟨hRaises, hTracks.lists, fun later hLater => ?_, fun hOther => ?_,
    fun name next parameter hCalled hFault => ?_, ?_, fun hNone => ?_, fun limit hFault => ?_⟩, hNamed⟩
  · rw [← hNamed]
    exact failure?_after hRaised hLater
  · rcases hBefore.raises hRaises with ⟨hSame, -⟩ | ⟨name, next, parameter, hCalled, hFault, -⟩
    · exact hTracks.lists.unique hSame.lists ▸ hBefore.lists
    · exact absurd hFault (hOther name next parameter hCalled)
  · rcases hBefore.raises hRaises with ⟨-, hOther⟩ | ⟨other, found, -, hFound, -, hEntered⟩
    · exact absurd hFault (hOther name next parameter hCalled)
    · rw [hCalled] at hFound
      cases hFound
      exact ⟨before, hTracks.lists.unique hEntered.lists, hBefore.lists⟩
  · intro since expr callee known pending inner next hSince hBegins hWaits
    obtain ⟨outside, hOutside⟩ := exists_tracks hStart hDepth since
    obtain ⟨within, hSplit, hWithin⟩ := hTracks.argument (Nat.le_succ_of_le hSince) hOutside
      (hWork since) hBegins (fun earlier hLate hSoon => hWaits earlier hLate (Nat.le_of_lt_succ hSoon))
    exact ⟨within, outside, hSplit, hOutside.lists, hWithin⟩
  · refine List.eq_nil_iff_forall_not_mem.mpr ?_
    rintro ⟨since, name⟩ hEntry
    exact hNone since name ((hTracks.lists.exact since name).mp hEntry)
  · rw [hFault] at hRaises
    obtain ⟨hLimit, hFull⟩ := hRaises.at_limit
    rcases hBefore.raises hRaises with ⟨hSame, -⟩ | ⟨_, _, _, _, hOther, -⟩
    · have hMost := depth_le_limit ((limit_after moment start).symm.trans hLimit)
        (hDepth ▸ Nat.zero_le limit) moment
      have hLeast : limit ≤ (after moment start).calls.depth := by
        rw [CallStack.isFull, hLimit] at hFull
        exact of_decide_eq_true hFull
      rw [hTracks.lists.unique hSame.lists, ← List.length_map (f := Prod.snd), ← hBefore.backtrace,
        CallStack.length_backtrace]
      omega
    · cases hOther

end

end Machine

def RunResult.failure? (result : RunResult) : Option (Failure String) :=
  match result.outcome with
  | .error failure => some failure
  | .ok _ => none

namespace Interpreter

open Machine

/-- What is reported of a failure is the failure that the machine rests with. -/
theorem exists_failure_of_finish (interpreter : Interpreter) {state : State} (hRests : state.Rests)
    {names : Interner} {failure : Failure String}
    (h : (interpreter.finish state names).1.failure? = some failure) :
    ∃ raised, state.control.failure? = some raised ∧ failure = raised.map names.lookup := by
  obtain ⟨control, store, calls, history⟩ := state
  obtain ⟨result, rfl⟩ := (State.rests_iff _).mp hRests
  cases result with
  | ok completion => cases h
  | error raised =>
      cases h
      exact ⟨raised, rfl, rfl⟩

/-- A run that fails has a failing step, unless two builtins have one name and no step is made. Its
backtrace names, the innermost first, the functions of the calls that are in progress then, and at the
limit it is as long as the limit allows. -/
theorem backtrace_exact {interpreter ended : Interpreter} (hIdle : interpreter.calls.depth = 0)
    {program : Block} {names last : Interner} {steps : Nat} {result : RunResult}
    {failure : Failure String}
    (hRun : interpreter.runWithin steps program names = (some (result, ended), last))
    (hFailed : result.failure? = some failure) :
    ((∃ error store, declareBuiltins (Store.empty.root).2 0 interpreter.builtins.entries names =
        ((.error error, store), last) ∧ failure = ⟨error.fault.map last.lookup, []⟩) ∨
      ∃ store moment fault entries,
        declareBuiltins (Store.empty.root).2 0 interpreter.builtins.entries names =
          ((.ok (), store), last) ∧
        moment < steps ∧ FailsAt (interpreter.start program store 0) moment fault entries ∧
        failure = Failure.map last.lookup ⟨fault, entries.map Prod.snd⟩) ∧
    ∀ limit, failure.fault = .callDepthExceeded limit → failure.backtrace.length = limit := by
  cases hDeclared : declareBuiltins (Store.empty.root).2 0 interpreter.builtins.entries names with
  | mk answer seeded =>
      obtain ⟨⟨error⟩ | ⟨⟨⟩⟩, store⟩ := answer
      · rw [runWithin_unseeded hDeclared] at hRun
        cases hRun
        cases hFailed
        have hNone : (interpreter.calls.failure error.fault).map last.lookup =
            ⟨error.fault.map last.lookup, []⟩ := by
          rw [CallStack.failure,
            List.length_eq_zero_iff.mp (interpreter.calls.length_backtrace.trans hIdle)]
          rfl
        refine ⟨Or.inl ⟨error, store, rfl, hNone⟩, fun limit hFault => ?_⟩
        exact absurd (Fault.eq_callDepthExceeded_of_map hFault) (error.fault_ne_callDepthExceeded limit)
      · obtain ⟨final, hFinal, hFinish, rfl⟩ := (runWithin_eq_some_iff hDeclared).mp hRun
        obtain ⟨rfl, hRests⟩ := (run_eq_some_iff ..).mp hFinal
        obtain ⟨rfl, -⟩ := Prod.mk.inj hFinish
        obtain ⟨raised, hRaised, rfl⟩ := exists_failure_of_finish interpreter hRests hFailed
        obtain ⟨moment, hMoment, -, hRaises, hNamed, hThere⟩ := exists_raises rfl hRaised
        have hWork (now : Nat) : (after now (interpreter.start program store 0)).Disciplined :=
          (disciplined_start hDeclared program).reaches ⟨now, rfl⟩
        obtain ⟨entries, hFails, hEntries⟩ :=
          failsAt_of_raises rfl hIdle hWork hRaises hNamed hThere
        refine ⟨Or.inr ⟨store, moment, raised.fault, entries, rfl, hMoment, hFails, ?_⟩,
          fun limit hFault => ?_⟩
        · rw [← hEntries]
        · have hLength := hFails.exceeding limit (Fault.eq_callDepthExceeded_of_map hFault)
          rw [hEntries, Failure.map, List.length_map, List.length_map, hLength]

/-- `fun f(n) { return n / 0 }`, `f(f(1))`. -/
def dividesInArgument : Block :=
  [.function ⟨8⟩ [⟨9⟩] [.yield (.binary .div (.reference ⟨9⟩) (.literal 0))],
    .evaluate (.call ⟨8⟩ [.call ⟨8⟩ [.literal 1]])]

/-- The inner call fails, and the outer one is not begun: there is one frame. -/
theorem backtrace_exact_dividesInArgument :
    ∃ result ended names store moment entries,
      (new Builtins.standard none).runWithin 30 dividesInArgument (Interner.initial.intern "f").2 =
        (some (result, ended), names) ∧
      result.failure? = some ⟨.divisionByZero, ["f"]⟩ ∧
      FailsAt ((new Builtins.standard none).start dividesInArgument store 0) moment .divisionByZero
        entries ∧ entries.length = 1 := by
  have hIdle : (new Builtins.standard none).calls.depth = 0 := rfl
  generalize hOutcome : (new Builtins.standard none).runWithin 30 dividesInArgument
    (Interner.initial.intern "f").2 = outcome
  have hFailed : outcome.1.bind (·.1.failure?) = some ⟨.divisionByZero, ["f"]⟩ := by
    rw [← hOutcome]
    decide +kernel
  obtain ⟨_ | ⟨result, ended⟩, names⟩ := outcome
  · cases hFailed
  · obtain ⟨⟨error, store, -, hRefused⟩ | ⟨store, moment, fault, entries, -, -, hFails, hFailure⟩, -⟩ :=
      backtrace_exact hIdle hOutcome hFailed
    · cases congrArg Failure.backtrace hRefused
    · rw [Failure.map, Failure.mk.injEq] at hFailure
      obtain ⟨hFault, hFrames⟩ := hFailure
      have hLength := congrArg List.length hFrames
      rw [List.length_map, List.length_map] at hLength
      cases fault <;> cases hFault
      exact ⟨result, ended, names, store, moment, entries, rfl, hFailed, hFails, hLength.symm⟩

end Interpreter

end IntScript
