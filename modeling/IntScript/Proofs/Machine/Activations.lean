import IntScript.Proofs.Machine.Calls
import IntScript.Proofs.Machine.Confinement
import Mathlib.Data.List.Forall2

/-! Which calls are in progress. A call of a function of the program is in progress from the step that
enters the function until its value, or the failure that ends it, is handed to what waits for it. The
stack of calls names the functions of exactly these calls. -/
namespace IntScript

namespace Machine

/-- The last step comes at the end here, where the definition has the first step in front. -/
theorem after_succ (steps : Nat) (state : State) : after (steps + 1) state = step (after steps state) :=
  after_add steps 1 state

mutual

/-- What waits for a function that is running comes after all that is done before. -/
theorem AfterValue.suffix_of_waiting (next : AfterValue) {outer : AfterValue}
    (h : outer ∈ next.waiting) : outer :: outer.waiting <:+ next.waiting := by
  match next with
  | .rightOperand _ _ _ next | .operator _ _ next | .argument _ _ _ _ next =>
      exact AfterValue.suffix_of_waiting next h
  | .declare _ _ next | .assign _ _ next | .yield next | .discard next | .branch _ _ _ next
  | .test _ _ _ next => exact AfterBlock.suffix_of_waiting next h

/-- What waits for an outer call is a part of what waits for an inner one. -/
theorem AfterBlock.suffix_of_waiting (next : AfterBlock) {outer : AfterValue}
    (h : outer ∈ next.waiting) : outer :: outer.waiting <:+ next.waiting := by
  match next with
  | .halt => cases h
  | .sequence _ _ next | .again _ _ _ next | .leave _ next => exact AfterBlock.suffix_of_waiting next h
  | .finish _ next =>
      rcases List.mem_cons.mp h with rfl | hOuter
      · exact List.suffix_refl _
      · exact (AfterValue.suffix_of_waiting next hOuter).trans (List.suffix_cons next next.waiting)

end

/-- Where a function is running, its value is not being handed on. -/
theorem Control.not_handsTo_of_waiting {control : Control} {next : AfterValue}
    (h : next ∈ control.waiting) : ¬ control.handsTo (.value next) := by
  intro hHands
  cases control with
  | evaluate expr scope other | apply callee known pending inner other | execute block scope other
  | completed result other => cases hHands
  | value result other =>
      cases hHands
      have hLength := (next.suffix_of_waiting h).length_le
      rw [List.length_cons] at hLength
      omega

/-- While a function is being called its arguments are done, so nothing waits within the call. -/
theorem Control.waiting_of_called {control : Control} {name : Name} {next : AfterValue}
    (h : control.called? = some (name, next)) : control.waiting = next.waiting := by
  unfold called? at h
  split at h
  next =>
    cases h
    rfl
  next => cases h

/-- The function of the program is called in the step that follows `since` steps, and after `now` steps
its value has not been handed on. -/
def InProgress (start : State) (now since : Nat) (name : Name) : Prop :=
  since < now ∧ ∃ next, (after since start).control.called? = some (name, next) ∧
    ∀ moment, since < moment → moment ≤ now → ¬ (after moment start).control.handsTo (.value next)

/-- The entries are the calls in progress, the latest first, each with the number of steps before it. -/
structure Lists (start : State) (now : Nat) (entries : List (Nat × Name)) : Prop where
  descending : entries.Pairwise (fun entry other => other.1 < entry.1)
  exact : ∀ since name, (since, name) ∈ entries ↔ InProgress start now since name

section

variable {start : State} {now since : Nat} {name : Name}

/-- A call in progress was in progress before, unless the last step has made it. -/
theorem InProgress.earlier (h : InProgress start (now + 1) since name) :
    InProgress start now since name ∨ since = now ∧ ∃ next,
      (after now start).control.called? = some (name, next) ∧
        ¬ (step (after now start)).control.handsTo (.value next) := by
  obtain ⟨hSince, next, hCalled, hOpen⟩ := h
  rcases Nat.lt_succ_iff_lt_or_eq.mp hSince with hBefore | rfl
  · exact Or.inl ⟨hBefore, next, hCalled, fun moment hLate hSoon => hOpen moment hLate (by omega)⟩
  · have hNow := hOpen (since + 1) hSince (Nat.le_refl _)
    rw [after_succ] at hNow
    exact Or.inr ⟨rfl, next, hCalled, hNow⟩

/-- It stays in progress while something waits for its value. -/
theorem InProgress.later (h : InProgress start now since name) {next : AfterValue}
    (hCalled : (after since start).control.called? = some (name, next))
    (hWaits : next ∈ (step (after now start)).control.waiting) :
    InProgress start (now + 1) since name := by
  obtain ⟨hSince, other, hOther, hOpen⟩ := h
  rw [hCalled] at hOther
  cases hOther
  refine ⟨Nat.lt_succ_of_lt hSince, next, hCalled, fun moment hLate hSoon => ?_⟩
  rcases Nat.le_succ_iff.mp hSoon with hBefore | rfl
  · exact hOpen moment hLate hBefore
  · rw [Nat.succ_eq_add_one, after_succ]
    exact Control.not_handsTo_of_waiting hWaits

/-- A call that has just been entered is in progress. -/
theorem InProgress.entered {next : AfterValue}
    (hCalled : (after now start).control.called? = some (name, next))
    (hWaits : next ∈ (step (after now start)).control.waiting) :
    InProgress start (now + 1) now name := by
  refine ⟨Nat.lt_succ_self now, next, hCalled, fun moment hLate hSoon => ?_⟩
  obtain rfl : moment = now + 1 := by omega
  rw [after_succ]
  exact Control.not_handsTo_of_waiting hWaits

/-- Beside the calls in progress: what waits for each of them, and what the stack holds. -/
structure Tracks (start : State) (now : Nat) (entries : List (Nat × Name)) : Prop where
  lists : Lists start now entries
  waits : List.Forall₂ (fun entry next => (after entry.1 start).control.called? = some (entry.2, next))
    entries (after now start).control.waiting
  backtrace : (after now start).calls.backtrace = entries.map Prod.snd

variable {entries : List (Nat × Name)}

/-- There are as many calls in progress as functions that something waits for. -/
theorem Tracks.length_eq (h : Tracks start now entries) :
    entries.length = (after now start).control.waiting.length :=
  h.waits.length_eq

/-- A call in progress goes on if what waits for its value is still waiting. -/
theorem Tracks.goes_on (h : Tracks start now entries) {others : List (Nat × Name)}
    {waiting : List AfterValue} (hOthers : others ⊆ entries)
    (hWaits : List.Forall₂ (fun entry next =>
      (after entry.1 start).control.called? = some (entry.2, next)) others waiting)
    (hWaiting : waiting ⊆ (step (after now start)).control.waiting) {entry : Nat × Name}
    (hEntry : entry ∈ others) : InProgress start (now + 1) entry.1 entry.2 := by
  have hNow := (h.lists.exact entry.1 entry.2).mp (hOthers hEntry)
  obtain ⟨next, hNext, hCalled⟩ : ∃ next ∈ waiting,
      (after entry.1 start).control.called? = some (entry.2, next) := by
    clear hOthers hWaiting
    induction hWaits with
    | nil => cases hEntry
    | @cons other next _ _ hCalled _ ih =>
        rcases List.mem_cons.mp hEntry with rfl | hEntry
        · exact ⟨next, List.mem_cons_self, hCalled⟩
        · obtain ⟨found, hFound, hSame⟩ := ih hEntry
          exact ⟨found, List.mem_cons_of_mem next hFound, hSame⟩
  exact hNow.later hCalled (hWaiting hNext)

/-- A step that enters no function and leaves none keeps the calls in progress. -/
theorem Tracks.keeps (h : Tracks start now entries)
    (hCalled : ∀ name next, (after now start).control.called? = some (name, next) →
      (step (after now start)).control.handsTo (.value next))
    (hWaiting : (step (after now start)).control.waiting = (after now start).control.waiting)
    (hCalls : (step (after now start)).calls = (after now start).calls) :
    Tracks start (now + 1) entries := by
  have hWaits := h.waits
  rw [← hWaiting] at hWaits
  refine ⟨⟨h.lists.descending, fun since name => ⟨fun hEntry => ?_, fun hProgress => ?_⟩⟩, ?_, ?_⟩
  · exact h.goes_on (List.Subset.refl entries) hWaits (List.Subset.refl _) hEntry
  · rcases hProgress.earlier with hBefore | ⟨rfl, next, hCall, hOpen⟩
    · exact (h.lists.exact since name).mpr hBefore
    · exact absurd (hCalled name next hCall) hOpen
  · rwa [after_succ]
  · rw [after_succ, hCalls, h.backtrace]

/-- A step that enters a function adds its call. -/
theorem Tracks.enters (h : Tracks start now entries) {next : AfterValue}
    (hCalled : (after now start).control.called? = some (name, next))
    (hWaiting : (step (after now start)).control.waiting = next :: (after now start).control.waiting)
    (hCalls : (step (after now start)).calls =
      ⟨(after now start).calls.frames.push name, (after now start).calls.limit⟩) :
    Tracks start (now + 1) ((now, name) :: entries) := by
  refine ⟨⟨?_, fun since other => ⟨fun hEntry => ?_, fun hProgress => ?_⟩⟩, ?_, ?_⟩
  · refine List.Pairwise.cons (fun entry hEntry => ?_) h.lists.descending
    exact ((h.lists.exact entry.1 entry.2).mp hEntry).1
  · rcases List.mem_cons.mp hEntry with hNew | hOld
    · cases hNew
      exact InProgress.entered hCalled (hWaiting ▸ List.mem_cons_self)
    · exact h.goes_on (List.Subset.refl entries) h.waits (hWaiting ▸ List.subset_cons_self _ _) hOld
  · rcases hProgress.earlier with hBefore | ⟨rfl, other, hOther, -⟩
    · exact List.mem_cons_of_mem _ ((h.lists.exact since _).mpr hBefore)
    · rw [hCalled] at hOther
      cases hOther
      exact List.mem_cons_self
  · rw [after_succ, hWaiting]
    exact .cons hCalled h.waits
  · rw [after_succ, hCalls, CallStack.backtrace_enter, h.backtrace, List.map_cons]

/-- A step that leaves a function takes away the latest call. -/
theorem Tracks.leaves (h : Tracks start now entries) {result : Result Completion}
    {activation : ScopeId} {next : AfterValue} {value : Result Int32}
    (hFinished : (after now start).control = .completed result (.finish activation next))
    (hHanded : (step (after now start)).control = .value value next)
    (hCalls : (step (after now start)).calls = (after now start).calls.pop) :
    ∃ entry others, entries = entry :: others ∧ Tracks start (now + 1) others := by
  have hWaits := h.waits
  rw [hFinished, Control.waiting, AfterBlock.waiting] at hWaits
  cases hWaits with
  | @cons entry _ others _ hCalled hOthers =>
      have hWaiting : (step (after now start)).control.waiting = next.waiting := by
        rw [hHanded, Control.waiting]
      have hDescending := List.pairwise_cons.mp h.lists.descending
      refine ⟨entry, others, rfl, ⟨⟨hDescending.2, fun since name => ⟨fun hEntry => ?_,
        fun hProgress => ?_⟩⟩, ?_, ?_⟩⟩
      · exact h.goes_on (List.subset_cons_self entry others) hOthers (hWaiting ▸ List.Subset.refl _)
          hEntry
      · rcases hProgress.earlier with hBefore | ⟨rfl, other, hOther, -⟩
        · refine (List.mem_cons.mp ((h.lists.exact since name).mpr hBefore)).resolve_left ?_
          rintro rfl
          obtain ⟨-, found, hFound, hOpen⟩ := hProgress
          rw [hCalled] at hFound
          cases hFound
          refine hOpen (now + 1) (Nat.lt_succ_of_lt hBefore.1) (Nat.le_refl _) ?_
          rw [after_succ, hHanded, Control.handsTo]
        · rw [hFinished] at hOther
          cases hOther
      · rwa [after_succ, hWaiting]
      · rw [after_succ, hCalls, CallStack.backtrace_pop, h.backtrace, List.map_cons, List.tail_cons]

/-- A step keeps the calls in progress, adds one that it enters, or takes away the latest. -/
theorem Tracks.step (h : Tracks start now entries) :
    Tracks start (now + 1) entries ∨ (∃ name, Tracks start (now + 1) ((now, name) :: entries)) ∨
      ∃ entry others, entries = entry :: others ∧ Tracks start (now + 1) others := by
  cases (after now start).switch with
  | stays called waiting calls _ | consults _ called waiting calls _ =>
      refine Or.inl (h.keeps (fun name next hCalled => ?_) waiting calls)
      rw [called] at hCalled
      cases hCalled
  | refuses called refused waiting calls _ =>
      refine Or.inl (h.keeps (fun name next hCalled => ?_) waiting calls)
      rw [called] at hCalled
      cases hCalled
      rw [refused, Control.handsTo]
  | enters called _ waiting calls _ => exact Or.inr (Or.inl ⟨_, h.enters called waiting calls⟩)
  | leaves finished handed calls _ => exact Or.inr (Or.inr (h.leaves finished handed calls))

/-- At any time the calls in progress are tracked. -/
theorem exists_tracks (hWaiting : start.control.waiting = []) (hDepth : start.calls.depth = 0)
    (now : Nat) : ∃ entries, Tracks start now entries := by
  induction now with
  | zero =>
      refine ⟨[], ⟨⟨List.Pairwise.nil, fun since name => ⟨fun hEntry => ?_, fun h => ?_⟩⟩, ?_, ?_⟩⟩
      · cases hEntry
      · exact absurd h.1 (Nat.not_lt_zero since)
      · rw [after, hWaiting]
        exact .nil
      · rw [after, List.map_nil, ← List.length_eq_zero_iff, CallStack.length_backtrace, hDepth]
  | succ now ih =>
      obtain ⟨entries, h⟩ := ih
      rcases h.step with hSame | ⟨name, hMore⟩ | ⟨entry, others, -, hFewer⟩
      · exact ⟨entries, hSame⟩
      · exact ⟨_, hMore⟩
      · exact ⟨others, hFewer⟩

/-- As long as at least as many functions are running as at some time, the calls that were in progress
then are in progress, after those made since. -/
theorem Tracks.window (h : Tracks start since entries) (count : Nat)
    (hFloor : ∀ more, more ≤ count →
      entries.length ≤ (after (since + more) start).control.waiting.length) :
    ∃ within, Tracks start (since + count) (within ++ entries) ∧
      ∀ entry ∈ within, since ≤ entry.1 := by
  induction count with
  | zero => exact ⟨[], h, fun entry hEntry => absurd hEntry List.not_mem_nil⟩
  | succ count ih =>
      obtain ⟨within, hNow, hSince⟩ := ih fun more hMore => hFloor more (Nat.le_succ_of_le hMore)
      rcases hNow.step with hSame | ⟨name, hMore⟩ | ⟨entry, others, hSplit, hFewer⟩
      · exact ⟨within, hSame, hSince⟩
      · refine ⟨(since + count, name) :: within, hMore, fun entry hEntry => ?_⟩
        rcases List.mem_cons.mp hEntry with rfl | hOld
        · exact Nat.le_add_right since count
        · exact hSince entry hOld
      · cases within with
        | nil =>
            have hEnough := hFloor (count + 1) (Nat.le_refl _)
            have hLength := hFewer.length_eq
            rw [List.nil_append] at hSplit
            rw [hSplit, List.length_cons] at hEnough
            rw [Nat.add_assoc] at hLength
            omega
        | cons latest within =>
            rw [List.cons_append, List.cons.injEq] at hSplit
            obtain ⟨-, rfl⟩ := hSplit
            exact ⟨within, hFewer, fun entry hEntry => hSince entry (List.mem_cons_of_mem latest hEntry)⟩

end

end Machine

end IntScript
