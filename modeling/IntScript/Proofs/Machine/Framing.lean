import IntScript.Proofs.Machine.Confinement
import IntScript.Proofs.Machine.Start

/-! What a statement, a block or a call may do to the scopes that are there when it begins. -/
namespace IntScript

/-- The later store has all scopes of the first. The scope `id` may bind in addition what the statements
declare, scopes around it bind what they did, perhaps with other values of variables, and every other
scope binds exactly what it did. -/
structure Store.Framed (store later : Store) (id : ScopeId) (block : Block) : Prop where
  here : ∀ {scope : Scope}, store.scope? id = some scope →
    ∃ now, later.scope? id = some now ∧ scope.Enlarged id block now
  around : ∀ {owner : ScopeId} {scope : Scope}, store.Chain id owner → owner ≠ id →
    store.scope? owner = some scope → ∃ now, later.scope? owner = some now ∧ scope.Revalued now
  elsewhere : ∀ {other : ScopeId} {scope : Scope}, ¬ store.Chain id other →
    store.scope? other = some scope → ∃ now, later.scope? other = some now ∧
      now.integers = scope.integers ∧ now.functions = scope.functions

namespace Region

variable {region : Region} {store : Store}

/-- What a region demands of the store is what a frame says about it. -/
theorem Respects.framed (h : region.Respects store) :
    region.before.Framed store region.scope region.block := by
  constructor
  · intro scope hScope
    obtain ⟨now, hNow, hSeen, -⟩ := h.kept hScope
    have hEnlarged := hSeen (Store.Chain.here _)
    rw [declarations, if_pos rfl] at hEnlarged
    exact ⟨now, hNow, hEnlarged⟩
  · intro owner scope hChain hOther hScope
    obtain ⟨now, hNow, hSeen, -⟩ := h.kept hScope
    have hEnlarged := hSeen hChain
    rw [declarations, if_neg hOther] at hEnlarged
    exact ⟨now, hNow, hEnlarged.revalued⟩
  · intro other scope hChain hScope
    obtain ⟨now, hNow, -, hUnseen⟩ := h.kept hScope
    exact ⟨now, hNow, hUnseen hChain⟩

/-- Work that may declare nothing changes values at most, and only where it can see. -/
theorem Respects.revalued (h : region.Respects store) (hBlock : region.block = []) {id : ScopeId}
    {scope : Scope} (hScope : region.before.scope? id = some scope) :
    ∃ now, store.scope? id = some now ∧ scope.Revalued now ∧
      (¬ region.before.Chain region.scope id → now.integers = scope.integers) := by
  obtain ⟨now, hNow, hSeen, hUnseen⟩ := h.kept hScope
  refine ⟨now, hNow, ?_, fun hChain => (hUnseen hChain).1⟩
  by_cases hChain : region.before.Chain region.scope id
  · have hEnlarged := hSeen hChain
    rw [declarations, hBlock, ite_self] at hEnlarged
    exact hEnlarged.revalued
  · obtain ⟨hIntegers, hFunctions⟩ := hUnseen hChain
    exact ⟨hFunctions, fun name => by rw [hIntegers]⟩

end Region

namespace Machine

def Control.calling? : Control → Option (ScopeId × ScopeId)
  | apply (.user _ home) _ [] inner _ => some (home, inner)
  | _ => none

theorem Control.eq_apply_of_calling {control : Control} {home inner : ScopeId}
    (h : control.calling? = some (home, inner)) :
    ∃ function known next, control = .apply (.user function home) known [] inner next := by
  unfold calling? at h
  split at h
  next function found known scope next =>
    cases h
    exact ⟨function, known, next, rfl⟩
  next => cases h

/-- A result that is handed to this work leaves held what this work holds. -/
theorem Control.held_of_handsTo {control : Control} {next : AfterValue}
    (h : control.handsTo (.value next)) : control.held = next.held := by
  cases control with
  | evaluate expr scope other | apply callee known pending inner other | execute block scope other
  | completed result other => cases h
  | value result other =>
      cases h
      rfl

/-- A run during which nothing is handed on, told by its number of steps. -/
theorem During.after {base : Pending} {state : State} {count : Nat}
    (waits : ∀ earlier, earlier < count → ¬ (Machine.after earlier state).control.handsTo base) :
    During base state (Machine.after count state) := by
  induction count generalizing state with
  | zero => exact During.here state
  | succ count ih =>
      refine During.step (waits 0 (Nat.succ_pos count)) (ih fun earlier hEarlier => ?_)
      exact waits (earlier + 1) (Nat.succ_lt_succ hEarlier)

section

variable {state later : State} (h : state.Disciplined)

include h

/-- At any moment of the run of a block, and however that ends. -/
theorem State.Disciplined.framed_block {block : Block} {scope : ScopeId} {next : AfterBlock}
    (hBegins : state.control = .execute block scope next) (hDuring : During (.block next) state later) :
    state.store.Framed later.store scope block := by
  exact ((State.confined_of_execute hBegins).during h hDuring).store.framed

theorem State.Disciplined.framed_statement {stmt : Stmt} {others : Block} {scope : ScopeId}
    {next : AfterBlock} (hBegins : state.control = .execute (stmt :: others) scope next)
    (hDuring : During (.block (.sequence others scope next)) state later) :
    state.store.Framed later.store scope [stmt] := by
  cases hDuring with
  | here => exact (Region.respects_before ⟨state.store, scope, [stmt]⟩).framed
  | step waits further =>
      exact ((State.confined_of_statement hBegins).during h.step further).store.framed

/-- A call begins by giving up the scope of its arguments. All others are kept, and those that are not
around the declaration of the function are as they were. -/
theorem State.Disciplined.framed_call {function : Function} {home : ScopeId} {known : List Int32}
    {inner : ScopeId} {next : AfterValue}
    (hBegins : state.control = .apply (.user function home) known [] inner next)
    (hDuring : During (.value next) state later) {id : ScopeId} {scope : Scope}
    (hScope : state.store.scope? id = some scope) (hOther : id ≠ inner) :
    ∃ now, later.store.scope? id = some now ∧ scope.Revalued now ∧
      (¬ state.store.Chain home id → now.integers = scope.integers) := by
  cases hDuring with
  | here => exact ⟨scope, hScope, ⟨rfl, fun _ => rfl⟩, fun _ => rfl⟩
  | step waits further =>
      have hWork := h.step
      obtain ⟨control, store, calls, history⟩ := state
      cases hBegins
      have hAdmitted : Region.Admits ⟨store.release inner, home, []⟩ (.user function home) :=
        Or.inr (Store.Chain.here home)
      have hConfined : (call (.user function home) known.reverse next (store.release inner) calls
          history).Confined ⟨store.release inner, home, []⟩ (.value next) :=
        confined_call hAdmitted (.base rfl) (Region.respects_before _)
      obtain ⟨middle, hMiddle, hIntegers, hFunctions⟩ :=
        h.store.scope?_after_release next.held_ne_nil hScope hOther
      obtain ⟨now, hNow, hRevalued, hUnseen⟩ :=
        (hConfined.during hWork further).store.revalued rfl hMiddle
      refine ⟨now, hNow, ⟨?_, fun name => ?_⟩, fun hChain => ?_⟩
      · rw [hRevalued.functions, hFunctions]
      · rw [hRevalued.integers, hIntegers]
      · rw [hUnseen (fun hInner => hChain (h.store.chain_of_release next.held_ne_nil hInner)), hIntegers]

end

end Machine

namespace Interpreter

open Machine

section

variable {interpreter : Interpreter} {names later : Interner} {store : Store}
  (hSeeded : declareBuiltins (Store.empty.root).2 0 interpreter.builtins.entries names =
    ((.ok (), store), later))

include hSeeded

/-- From the moment a block, a statement or a call begins until its result is handed on, whether that is
a completion, a value or a failure, the scopes that were there at its beginning are kept. A block and
a statement add to the scope they run in what they declare themselves, under names that were free there,
and change values in the scopes around it. A call, once its arguments are evaluated, changes values in
the scope that the function was declared in and in those around it. Nothing else that was bound is
touched, whatever functions are called meanwhile. -/
theorem effects_framed {program : Block} {steps : Nat} {state : State}
    (hState : after steps (interpreter.start program store 0) = state) :
    (∀ block scope next final, state.control = .execute block scope next →
      During (.block next) state final → state.store.Framed final.store scope block) ∧
    (∀ stmt others scope next final, state.control = .execute (stmt :: others) scope next →
      During (.block (.sequence others scope next)) state final →
      state.store.Framed final.store scope [stmt]) ∧
    (∀ function home known inner next final,
      state.control = .apply (.user function home) known [] inner next →
      During (.value next) state final →
      ∀ id scope, state.store.scope? id = some scope → id ≠ inner →
        ∃ now, final.store.scope? id = some now ∧ scope.Revalued now ∧
          (¬ state.store.Chain home id → now.integers = scope.integers)) := by
  have hWork : state.Disciplined := hState ▸ (disciplined_start hSeeded program).reaches ⟨steps, rfl⟩
  refine ⟨?_, ?_, ?_⟩
  · intro block scope next final hBegins hDuring
    exact hWork.framed_block hBegins hDuring
  · intro stmt others scope next final hBegins hDuring
    exact hWork.framed_statement hBegins hDuring
  · intro function home known inner next final hBegins hDuring id scope hScope hOther
    exact hWork.framed_call hBegins hDuring hScope hOther

end

/-- `var x = 1`, `fun f() { x = 2 }`, `fun g() { var x = 5  f()  return x }`, `g()`. -/
def assignsOutside : Block :=
  [.declare ⟨8⟩ (.literal 1),
    .function ⟨9⟩ [] [.assign ⟨8⟩ (.literal 2)],
    .function ⟨10⟩ [] [.declare ⟨8⟩ (.literal 5), .evaluate (.call ⟨9⟩ []), .yield (.reference ⟨8⟩)],
    .evaluate (.call ⟨10⟩ [])]

/-- Its run where `g` calls `f`. -/
def callingOutside : State :=
  after 17 ((new Builtins.none none).start assignsOutside (Store.empty.root).2 0)

/-- When `f` is done, the variable of the program has been changed and that of `g` has not. -/
theorem effects_framed_callingOutside :
    ((after 7 callingOutside).store.scope? 0).map (·.integers) = some [(⟨8⟩, 2)] ∧
      ((after 7 callingOutside).store.scope? 2).map (·.integers) = some [(⟨8⟩, 5)] := by
  have hSeeded : declareBuiltins (Store.empty.root).2 0 (new Builtins.none none).builtins.entries
      Interner.initial = ((.ok (), (Store.empty.root).2), Interner.initial) := rfl
  have hState : after 17 ((new Builtins.none none).start assignsOutside (Store.empty.root).2 0) =
      callingOutside := rfl
  obtain ⟨-, -, hCall⟩ := effects_framed hSeeded hState
  obtain ⟨function, known, next, hBegins⟩ :
      ∃ function known next, callingOutside.control = .apply (.user function 0) known [] 3 next :=
    Control.eq_apply_of_calling (by decide +kernel)
  have hHeld : next.held = [2, 0] := by
    have hTail : callingOutside.control.held.tail = [2, 0] := by decide +kernel
    rwa [hBegins] at hTail
  have hBusy : ∀ earlier, earlier < 7 → (after earlier callingOutside).control.held ≠ [2, 0] := by
    decide +kernel
  have hDuring : During (.value next) callingOutside (after 7 callingOutside) :=
    During.after fun earlier hEarlier hHands =>
      hBusy earlier hEarlier ((Control.held_of_handsTo hHands).trans hHeld)
  have hLocals : (callingOutside.store.scope? 2).map (·.integers) = some [(⟨8⟩, 5)] := by
    decide +kernel
  obtain ⟨locals, hScope, hIntegers⟩ := Option.map_eq_some_iff.mp hLocals
  have hUnseen : ¬ callingOutside.store.Chain 0 2 := by
    have hOutermost : (callingOutside.store.scope? 0).bind (·.parent) = none := by decide +kernel
    intro hChain
    cases hChain with
    | outward hRoot hParent further =>
        rw [hRoot, Option.bind_some, hParent] at hOutermost
        cases hOutermost
  obtain ⟨now, hNow, -, hSame⟩ :=
    hCall function 0 known 3 next _ hBegins hDuring 2 locals hScope (by decide)
  refine ⟨by decide +kernel, ?_⟩
  rw [hNow, Option.map_some, hSame hUnseen, hIntegers]

end Interpreter

end IntScript
