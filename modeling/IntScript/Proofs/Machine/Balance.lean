import IntScript.Proofs.Machine.Activations
import IntScript.Proofs.Renaming.Runs

/-! The stack of calls is balanced. Whatever is evaluated or executed, and however it ends, leaves the
stack as it found it; the stack holds the functions of the calls in progress and no others. -/
namespace IntScript

/-- A stack is known by its limit and by what it lists. -/
theorem CallStack.eq_of_backtrace {calls other : CallStack} (h : calls.backtrace = other.backtrace)
    (hLimit : calls.limit = other.limit) : calls = other := by
  obtain ⟨frames, limit⟩ := calls
  obtain ⟨frames', limit'⟩ := other
  rw [backtrace, backtrace, List.reverse_inj, Array.toList_inj] at h
  rw [CallStack.mk.injEq]
  exact ⟨h, hLimit⟩

namespace Machine

/-- What waits for the functions that are running when this work gets its result. -/
def Pending.waiting : Pending → List AfterValue
  | value next => next.waiting
  | block next => next.waiting

section

variable {region : Region} {base : Pending}

mutual

/-- Work that comes before another waits, at the least, for what the other waits for. -/
theorem AfterValue.Above.waiting {next : AfterValue} (h : next.Above region base) :
    base.waiting <:+ next.waiting := by
  cases h with
  | base same => exact same ▸ List.suffix_refl _
  | rightOperand _ above | operator above | argument _ _ above => exact above.waiting
  | declare _ above | assign _ above | yield above | discard above | branch _ above | test _ above =>
      exact above.waiting

theorem AfterBlock.Above.waiting {next : AfterBlock} (h : next.Above region base) :
    base.waiting <:+ next.waiting := by
  cases h with
  | base same => exact same ▸ List.suffix_refl _
  | sequence _ above | leave _ above | again _ above => exact above.waiting
  | finish _ above => exact above.waiting.trans (List.suffix_cons _ _)

end

/-- So a call that was running at the start of some work runs until that is done. -/
theorem Control.Above.waiting {control : Control} (h : control.Above region base) :
    base.waiting <:+ control.waiting := by
  cases control with
  | evaluate expr scope next | execute block scope next => exact h.2.waiting
  | apply callee known pending inner next => exact h.2.2.waiting
  | value result next => exact AfterValue.Above.waiting h
  | completed result next => exact AfterBlock.Above.waiting h

end

/-- When a result is handed on, what waits for it is what waited at the start. -/
theorem Control.waiting_of_handsTo {control : Control} {base : Pending} (h : control.handsTo base) :
    control.waiting = base.waiting := by
  cases control with
  | evaluate expr scope next | apply callee known pending inner next | execute block scope next =>
      cases h
  | value result next | completed result next =>
      cases h
      rfl

/-- What goes on meanwhile goes on in every step. -/
theorem During.exists_after {base : Pending} {state later : State} (h : During base state later) :
    ∃ count, Machine.after count state = later ∧
      ∀ more, more ≤ count → During base state (Machine.after more state) := by
  induction h with
  | here state =>
      refine ⟨0, rfl, fun more hMore => ?_⟩
      obtain rfl := Nat.le_zero.mp hMore
      exact .here state
  | @step state later waits _ ih =>
      obtain ⟨count, hLater, hDuring⟩ := ih
      refine ⟨count + 1, hLater, fun more hMore => ?_⟩
      cases more with
      | zero => exact .here state
      | succ more => exact .step waits (hDuring more (Nat.le_of_succ_le_succ hMore))

/-- Nothing is called by beginning a statement. -/
theorem State.calls_of_execute {state : State} {block : Block} {scope : ScopeId} {next : AfterBlock}
    (h : state.control = .execute block scope next) :
    (step state).control.waiting = state.control.waiting ∧ (step state).calls = state.calls := by
  cases state.switch with
  | stays _ waiting calls _ | consults _ _ waiting calls _ => exact ⟨waiting, calls⟩
  | refuses called _ _ _ _ | enters called _ _ _ _ =>
      rw [h] at called
      cases called
  | leaves finished _ _ _ =>
      rw [h] at finished
      cases finished

section

variable {start later : State} {since : Nat} {entries : List (Nat × Name)} {region : Region}
  {base : Pending}

/-- Until the result of a piece of work is handed on, the calls in progress are those that were in
progress at its beginning, after those that it has made. -/
theorem Tracks.during (h : Tracks start since entries) (hWork : (after since start).Disciplined)
    (hConfined : (after since start).Confined region base)
    (hWaiting : (after since start).control.waiting = base.waiting) {count : Nat}
    (hDuring : ∀ more, more ≤ count → During base (after since start) (after (since + more) start)) :
    ∃ within, Tracks start (since + count) (within ++ entries) ∧ ∀ entry ∈ within, since ≤ entry.1 := by
  refine h.window count fun more hMore => ?_
  rw [h.length_eq, hWaiting]
  exact (hConfined.during hWork (hDuring more hMore)).control.waiting.length_le

/-- A piece of work leaves the stack of calls as it found it. -/
theorem Tracks.balanced (h : Tracks start since entries) (hWork : (after since start).Disciplined)
    (hConfined : (after since start).Confined region base)
    (hWaiting : (after since start).control.waiting = base.waiting)
    (hDuring : During base (after since start) later) (hHands : later.control.handsTo base) :
    later.calls = (after since start).calls := by
  obtain ⟨count, rfl, hMeanwhile⟩ := hDuring.exists_after
  simp only [← after_add] at hMeanwhile hHands ⊢
  obtain ⟨within, hNow, -⟩ := h.during hWork hConfined hWaiting hMeanwhile
  have hNone : within = [] := by
    have hLength := hNow.length_eq
    rw [Control.waiting_of_handsTo hHands, ← hWaiting, ← h.length_eq, List.length_append] at hLength
    exact List.length_eq_zero_iff.mp (by omega)
  apply CallStack.eq_of_backtrace
  · rw [hNow.backtrace, h.backtrace, hNone, List.nil_append]
  · rw [limit_after, limit_after]

/-- An expression leaves the stack of calls as it found it, whether it has a value or fails. -/
theorem Tracks.balanced_evaluate (h : Tracks start since entries)
    (hWork : (after since start).Disciplined) {expr : Expr} {scope : ScopeId} {next : AfterValue}
    (hBegins : (after since start).control = .evaluate expr scope next)
    (hDuring : During (.value next) (after since start) later)
    (hHands : later.control.handsTo (.value next)) : later.calls = (after since start).calls := by
  exact h.balanced hWork (State.confined_of_evaluate hBegins) (by rw [hBegins]; rfl) hDuring hHands

theorem Tracks.balanced_block (h : Tracks start since entries)
    (hWork : (after since start).Disciplined) {block : Block} {scope : ScopeId} {next : AfterBlock}
    (hBegins : (after since start).control = .execute block scope next)
    (hDuring : During (.block next) (after since start) later)
    (hHands : later.control.handsTo (.block next)) : later.calls = (after since start).calls := by
  exact h.balanced hWork (State.confined_of_execute hBegins) (by rw [hBegins]; rfl) hDuring hHands

theorem Tracks.balanced_statement (h : Tracks start since entries)
    (hWork : (after since start).Disciplined) {stmt : Stmt} {others : Block} {scope : ScopeId}
    {next : AfterBlock} (hBegins : (after since start).control = .execute (stmt :: others) scope next)
    (hDuring : During (.block (.sequence others scope next)) (after since start) later)
    (hHands : later.control.handsTo (.block (.sequence others scope next))) :
    later.calls = (after since start).calls := by
  obtain ⟨hWaiting, hCalls⟩ := State.calls_of_execute hBegins
  have hNext : Tracks start (since + 1) entries := by
    refine h.keeps (fun name next hCalled => ?_) hWaiting hCalls
    rw [hBegins] at hCalled
    cases hCalled
  cases hDuring with
  | here => rfl
  | step waits further =>
      rw [← hCalls, ← after_succ]
      rw [← after_succ] at further
      have hStep : (after (since + 1) start).Disciplined := after_succ since start ▸ hWork.step
      have hConfined := State.confined_of_statement hBegins
      rw [← after_succ] at hConfined
      refine hNext.balanced hStep hConfined ?_ further hHands
      rw [after_succ, hWaiting, hBegins]
      rfl

/-- However many calls the program makes, no more than the limit are in progress at a time. -/
theorem depth_le_limit {limit : Nat} (hLimit : start.calls.limit = some limit)
    (hDepth : start.calls.depth ≤ limit) (now : Nat) : (after now start).calls.depth ≤ limit := by
  induction now with
  | zero => exact hDepth
  | succ now ih =>
      rw [after_succ]
      cases (after now start).switch with
      | stays _ _ calls _ | consults _ _ _ calls _ | refuses _ _ _ calls _ =>
          rw [calls]
          exact ih
      | enters _ free _ calls _ =>
          rw [CallStack.isFull, limit_after, hLimit] at free
          have hFree : ¬ limit ≤ (after now start).calls.depth := of_decide_eq_false free
          rw [calls, CallStack.depth, Array.size_push, ← CallStack.depth]
          omega
      | leaves _ _ calls _ =>
          rw [calls, CallStack.depth, CallStack.pop, Array.size_pop, ← CallStack.depth]
          omega

end

end Machine

namespace Interpreter

open Machine

/-- However an expression, a statement or a block is done, with a value, a completion or a failure, the
stack of calls is afterwards what it was before. At any time it lists the functions of the calls in
progress, and nothing else, and is no longer than the limit; and a run leaves it empty. -/
theorem calls_balanced {interpreter : Interpreter} (hIdle : interpreter.calls.depth = 0)
    (program : Block) (names : Interner) :
    (∀ store later now state, declareBuiltins (Store.empty.root).2 0 interpreter.builtins.entries names =
        ((.ok (), store), later) → after now (interpreter.start program store 0) = state →
      (∀ expr scope next final, state.control = .evaluate expr scope next →
        During (.value next) state final → final.control.handsTo (.value next) →
        final.calls = state.calls) ∧
      (∀ stmt others scope next final, state.control = .execute (stmt :: others) scope next →
        During (.block (.sequence others scope next)) state final →
        final.control.handsTo (.block (.sequence others scope next)) → final.calls = state.calls) ∧
      (∀ block scope next final, state.control = .execute block scope next →
        During (.block next) state final → final.control.handsTo (.block next) →
        final.calls = state.calls) ∧
      (∃ entries, Lists (interpreter.start program store 0) now entries ∧
        state.calls.backtrace = entries.map Prod.snd) ∧
      ∀ limit, interpreter.calls.limit = some limit → state.calls.depth ≤ limit) ∧
    ∀ steps result ended last,
      interpreter.runWithin steps program names = (some (result, ended), last) →
        ended.calls.isEmpty = true ∧ ended = interpreter := by
  constructor
  · rintro store later now state hSeeded rfl
    have hWork : (after now (interpreter.start program store 0)).Disciplined :=
      (disciplined_start hSeeded program).reaches ⟨now, rfl⟩
    obtain ⟨entries, hTracks⟩ : ∃ entries, Tracks (interpreter.start program store 0) now entries :=
      exists_tracks rfl hIdle now
    refine ⟨?_, ?_, ?_, ⟨entries, hTracks.lists, hTracks.backtrace⟩, fun limit hLimit => ?_⟩
    · exact fun expr scope next final => hTracks.balanced_evaluate hWork
    · exact fun stmt others scope next final => hTracks.balanced_statement hWork
    · exact fun block scope next final => hTracks.balanced_block hWork
    · refine depth_le_limit hLimit ?_ now
      have hDepth : (interpreter.start program store 0).calls.depth = 0 := hIdle
      omega
  · intro steps result ended last hRun
    obtain rfl : ended = interpreter := runWithin_idle hIdle (congrArg Prod.fst hRun)
    refine ⟨?_, rfl⟩
    rw [CallStack.depth, Array.size_eq_zero_iff] at hIdle
    rw [CallStack.isEmpty, hIdle, Array.isEmpty_empty]

/-- `fun f(n) { if (n) { f(n - 1) } }`, `f(3)`. -/
def descends : Block :=
  [.function ⟨8⟩ [⟨9⟩] [.branch (.reference ⟨9⟩)
      [.evaluate (.call ⟨8⟩ [.binary .sub (.reference ⟨9⟩) (.literal 1)])] []],
    .evaluate (.call ⟨8⟩ [.literal 3])]

/-- Under a limit of two its third call is refused. While the failure is handed on, the two others are in
progress until it leaves them, and at the end none is. -/
theorem calls_balanced_descending :
    (∃ entries, Lists ((new Builtins.none (some 2)).start descends (Store.empty.root).2 0) 38 entries ∧
        entries.map Prod.snd = [⟨8⟩, ⟨8⟩]) ∧
      (∀ now, (after now ((new Builtins.none (some 2)).start descends (Store.empty.root).2 0)).calls.depth
        ≤ 2) ∧
      ∃ result ended names,
        (new Builtins.none (some 2)).runWithin 46 descends Interner.initial =
          (some (result, ended), names) ∧ ended.calls.isEmpty = true := by
  have hIdle : (new Builtins.none (some 2)).calls.depth = 0 := rfl
  have hSeeded : declareBuiltins (Store.empty.root).2 0 (new Builtins.none (some 2)).builtins.entries
      Interner.initial = ((.ok (), (Store.empty.root).2), Interner.initial) := rfl
  have hBacktrace : (after 38 ((new Builtins.none (some 2)).start descends
      (Store.empty.root).2 0)).calls.backtrace = [⟨8⟩, ⟨8⟩] := by
    decide +kernel
  have hEnds : ((new Builtins.none (some 2)).runWithin 46 descends Interner.initial).1.isSome = true := by
    decide +kernel
  obtain ⟨hMoments, hRuns⟩ := calls_balanced hIdle descends Interner.initial
  refine ⟨?_, fun now => ?_, ?_⟩
  · obtain ⟨-, -, -, ⟨entries, hLists, hNames⟩, -⟩ := hMoments _ _ 38 _ hSeeded rfl
    exact ⟨entries, hLists, hNames.symm.trans hBacktrace⟩
  · obtain ⟨-, -, -, -, hBound⟩ := hMoments _ _ now _ hSeeded rfl
    exact hBound 2 rfl
  · rcases hRun : (new Builtins.none (some 2)).runWithin 46 descends Interner.initial with
      ⟨_ | ⟨result, ended⟩, names⟩
    · rw [hRun] at hEnds
      cases hEnds
    · exact ⟨result, ended, names, rfl, (hRuns 46 result ended names hRun).1⟩

end Interpreter

end IntScript
