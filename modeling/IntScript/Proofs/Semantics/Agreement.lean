import IntScript.Proofs.Machine.Runs
import IntScript.Proofs.Semantics

/-! The scopes of a machine and the frames of the natural semantics. Scopes come and go, and frames stay;
while a scope is alive, both bind the same. -/
namespace IntScript.Semantics

/-- Every scope that is alive is the frame of its number, and numbers are given alike. -/
structure Agrees (store : Store) (world : World) : Prop where
  size : store.slots.size = world.next
  frame : ∀ {id : ScopeId} {scope : Scope}, store.scope? id = some scope →
    ∃ frame, world.frames[id]? = some frame ∧ frame.integers = scope.integers.get? ∧
      frame.functions = scope.functions.get? ∧ frame.parent = scope.parent

namespace World

/-- A new frame comes behind all others. -/
theorem frames_child (world : World) (parent id : ScopeId) :
    (world.child parent).frames[id]? =
      if id = world.next then some (Frame.fresh (some parent)) else world.frames[id]? := by
  rw [child, next]
  by_cases hId : id = world.frames.length
  · subst hId
    simp
  · rw [if_neg hId]
    rcases Nat.lt_or_gt_of_ne hId with hLt | hGt
    · exact List.getElem?_append_left hLt
    · rw [List.getElem?_eq_none (by simp; omega), List.getElem?_eq_none (by omega)]

/-- One entry in one frame. -/
theorem frames_bindVariable (world : World) (id : ScopeId) (name : Name) (value : Int32)
    (other : ScopeId) : (world.bindVariable id name value).frames[other]? =
      if other = id then (world.frames[id]?).map (fun frame =>
        { frame with integers := Frame.bind frame.integers name value })
      else world.frames[other]? := by
  rw [bindVariable, List.getElem?_modify]
  by_cases hSame : id = other
  · subst hSame
    simp
  · simp [hSame, Ne.symm hSame]

theorem frames_bindFunction (world : World) (id : ScopeId) (name : Name) (callable : Callable)
    (other : ScopeId) : (world.bindFunction id name callable).frames[other]? =
      if other = id then (world.frames[id]?).map (fun frame =>
        { frame with functions := Frame.bind frame.functions name callable })
      else world.frames[other]? := by
  rw [bindFunction, List.getElem?_modify]
  by_cases hSame : id = other
  · subst hSame
    simp
  · simp [hSame, Ne.symm hSame]

end World

section

variable {store : Store} {world : World} {held : List ScopeId}

/-- The history is no part of what is compared. -/
theorem Agrees.record (h : Agrees store world) (builtin : Builtin) (arguments : List Int32) :
    Agrees store (world.record builtin arguments) :=
  ⟨h.size, h.frame⟩

/-- Numbers are given in the same order in both. -/
theorem Agrees.child (h : Agrees store world) (parent : ScopeId) :
    Agrees (store.child parent).2 (world.child parent) := by
  constructor
  · rw [Store.size_child, h.size, World.next, World.next, World.child, List.length_append]
    rfl
  · intro id scope hScope
    rw [World.frames_child, ← h.size]
    rw [Store.scope?_child] at hScope
    split at hScope
    next hNew =>
      cases hScope
      rw [if_pos hNew]
      exact ⟨_, rfl, rfl, rfl, rfl⟩
    next hOld =>
      rw [if_neg hOld]
      split at hScope
      next hParent =>
        subst hParent
        obtain ⟨old, hOld, rfl⟩ := Option.map_eq_some_iff.mp hScope
        obtain ⟨frame, hFrame⟩ := h.frame hOld
        exact ⟨frame, hFrame⟩
      next => exact h.frame hScope

/-- Giving up a scope leaves the others as they are. -/
theorem Agrees.release (h : Agrees store world) {top : ScopeId}
    (hHeld : store.Holds (top :: held)) (hMore : held ≠ []) : Agrees (store.release top) world := by
  obtain ⟨scope, parent, outer, -, -, hOuter, -, hAfter⟩ := hHeld.scope?_release hMore
  constructor
  · rw [Store.size_release, h.size]
  · intro id inner hInner
    rw [hAfter] at hInner
    split at hInner
    next => cases hInner
    next =>
      split at hInner
      next hSame =>
        subst hSame
        cases hInner
        obtain ⟨frame, hFrame⟩ := h.frame hOuter
        exact ⟨frame, hFrame⟩
      next => exact h.frame hInner

/-- How the table of the scope was changed is not asked; it only has to bind what the frame does. -/
theorem Agrees.bindVariable (h : Agrees store world) {id : ScopeId} {name : Name} {value : Int32}
    {f : Scope → Scope} (hIntegers : ∀ scope, store.scope? id = some scope →
      (f scope).integers.get? = Frame.bind scope.integers.get? name value)
    (hFunctions : ∀ scope, (f scope).functions = scope.functions)
    (hParent : ∀ scope, (f scope).parent = scope.parent) :
    Agrees (store.modify id f) (world.bindVariable id name value) := by
  constructor
  · rw [Store.size_modify, h.size, World.next, World.next, World.bindVariable, List.length_modify]
  · intro other scope hScope
    rw [Store.scope?_modify] at hScope
    rw [World.frames_bindVariable]
    split at hScope
    next hSame =>
      subst hSame
      obtain ⟨old, hOld, rfl⟩ := Option.map_eq_some_iff.mp hScope
      obtain ⟨frame, hFrame, hFrameIntegers, hFrameFunctions, hFrameParent⟩ := h.frame hOld
      rw [if_pos rfl, hFrame, Option.map_some]
      refine ⟨_, rfl, ?_, ?_, ?_⟩
      · simp only [hFrameIntegers, hIntegers old hOld]
      · simp only [hFrameFunctions, hFunctions]
      · simp only [hFrameParent, hParent]
    next hOther =>
      rw [if_neg hOther]
      exact h.frame hScope

/-- A function is put in front, where a look-up finds it first. -/
theorem Agrees.bindFunction (h : Agrees store world) (id : ScopeId) (name : Name)
    (callable : Callable) :
    Agrees (store.modify id (fun scope =>
        { scope with functions := (name, callable) :: scope.functions }))
      (world.bindFunction id name callable) := by
  constructor
  · rw [Store.size_modify, h.size, World.next, World.next, World.bindFunction, List.length_modify]
  · intro other scope hScope
    rw [Store.scope?_modify] at hScope
    rw [World.frames_bindFunction]
    split at hScope
    next hSame =>
      subst hSame
      obtain ⟨old, hOld, rfl⟩ := Option.map_eq_some_iff.mp hScope
      obtain ⟨frame, hFrame, hFrameIntegers, hFrameFunctions, hFrameParent⟩ := h.frame hOld
      rw [if_pos rfl, hFrame, Option.map_some]
      refine ⟨_, rfl, hFrameIntegers, ?_, hFrameParent⟩
      funext entry
      simp only [Frame.bind, hFrameFunctions, Table.get?_cons]
    next hOther =>
      rw [if_neg hOther]
      exact h.frame hScope

/-- A frame binds a name if its scope has an entry for it. -/
theorem Agrees.binds_iff {α : Type} {frames : Frame → Name → Option α} {scopes : Scope → Table α}
    (hTables : ∀ {id scope frame}, store.scope? id = some scope → world.frames[id]? = some frame →
      frames frame = (scopes scope).get?)
    (h : Agrees store world) {id : ScopeId} {scope : Scope} (hScope : store.scope? id = some scope)
    (name : Name) (value : α) :
    world.Binds frames id name value ↔ (scopes scope).get? name = some value := by
  obtain ⟨frame, hFrame, -⟩ := h.frame hScope
  rw [← hTables hScope hFrame]
  constructor
  · rintro ⟨other, hOther, hBound⟩
    rw [hFrame] at hOther
    cases hOther
    exact hBound
  · exact fun hBound => ⟨frame, hFrame, hBound⟩

/-- From a held scope, look-ups through frames and through scopes end at the same number. -/
theorem Agrees.nearest_iff {α : Type} {frames : Frame → Name → Option α} {scopes : Scope → Table α}
    (hTables : ∀ {id scope frame}, store.scope? id = some scope → world.frames[id]? = some frame →
      frames frame = (scopes scope).get?)
    (h : Agrees store world) (hHeld : store.Holds held) {id : ScopeId} (hId : id ∈ held) (name : Name)
    (owner : ScopeId) :
    world.Nearest frames name id owner ↔ store.FindsEntry scopes name id owner := by
  have hScopes {id : ScopeId} {frame : Frame} (hId : id ∈ held)
      (hFrame : world.frames[id]? = some frame) : ∃ scope, store.scope? id = some scope ∧
        frame.parent = scope.parent ∧ (frames frame name).isSome = (scopes scope).has name := by
    obtain ⟨scope, hScope⟩ := hHeld.exists_scope hId
    obtain ⟨other, hOther, -, -, hParent⟩ := h.frame hScope
    rw [hFrame] at hOther
    cases hOther
    exact ⟨scope, hScope, hParent, by rw [hTables hScope hFrame, Table.has_eq_isSome]⟩
  constructor
  · intro hNearest
    induction hNearest with
    | here hFrame hBound =>
        obtain ⟨scope, hScope, -, hHas⟩ := hScopes hId hFrame
        rw [← Option.isSome_iff_ne_none, hHas] at hBound
        exact Store.Finds.here hScope hBound
    | outward hFrame hUnbound hParent further ih =>
        obtain ⟨scope, hScope, hOuter, hHas⟩ := hScopes hId hFrame
        rw [hUnbound] at hHas
        have hOuter := hOuter.symm.trans hParent
        exact Store.Finds.outward hScope hHas.symm hOuter (ih (hHeld.parent hScope hOuter).2)
  · intro hFinds
    have hFrames {id : ScopeId} {scope : Scope} (hScope : store.scope? id = some scope) :
        ∃ frame, world.frames[id]? = some frame ∧ frame.parent = scope.parent ∧
          (frames frame name).isSome = (scopes scope).has name := by
      obtain ⟨frame, hFrame, -, -, hParent⟩ := h.frame hScope
      exact ⟨frame, hFrame, hParent, by rw [hTables hScope hFrame, Table.has_eq_isSome]⟩
    induction hFinds with
    | here hScope hFound =>
        obtain ⟨frame, hFrame, -, hHas⟩ := hFrames hScope
        exact World.Nearest.here hFrame (Option.isSome_iff_ne_none.mp (hHas.trans hFound))
    | outward hScope hFound hParent further ih =>
        obtain ⟨frame, hFrame, hOuter, hHas⟩ := hFrames hScope
        rw [hFound, Option.isSome_eq_false_iff, Option.isNone_iff_eq_none] at hHas
        exact World.Nearest.outward hFrame hHas (hOuter.trans hParent)
          (ih (hHeld.parent hScope hParent).2)

/-- The tables agree as functions of names. -/
theorem Agrees.integers (h : Agrees store world) {id : ScopeId} {scope : Scope} {frame : Frame}
    (hScope : store.scope? id = some scope) (hFrame : world.frames[id]? = some frame) :
    frame.integers = scope.integers.get? := by
  obtain ⟨other, hOther, hSame, -⟩ := h.frame hScope
  rw [hFrame] at hOther
  cases hOther
  exact hSame

theorem Agrees.functions (h : Agrees store world) {id : ScopeId} {scope : Scope} {frame : Frame}
    (hScope : store.scope? id = some scope) (hFrame : world.frames[id]? = some frame) :
    frame.functions = scope.functions.get? := by
  obtain ⟨other, hOther, -, hSame, -⟩ := h.frame hScope
  rw [hFrame] at hOther
  cases hOther
  exact hSame

section

variable (h : Agrees store world) (hHeld : store.Holds held) {id : ScopeId} (hId : id ∈ held)

include h hHeld hId

/-- A look-up finds in the store what the name means in the frame. -/
theorem Agrees.getVariable_of_reads {name : Name} {value : Int32}
    (hReads : world.Reads Frame.integers id name value) : store.getVariable id name = .ok value := by
  obtain ⟨owner, hNearest, hBinds⟩ := hReads
  have hFinds := (h.nearest_iff h.integers hHeld hId name owner).mp hNearest
  rcases hHeld.older.getVariable_cases id name with
    ⟨other, scope, found, hOther, hScope, hFound, hResult⟩ | ⟨hNone, -⟩
  · obtain rfl := hFinds.unique hOther
    have hValue := (h.binds_iff h.integers hScope name value).mp hBinds
    rw [hFound] at hValue
    rw [hResult, Option.some.inj hValue]
  · exact absurd hFinds (hNone owner)

/-- A name without a meaning is the fault that the machine reports. -/
theorem Agrees.getVariable_of_unbound {name : Name}
    (hUnbound : world.Unbound Frame.integers id name) :
    store.getVariable id name = .error (.undefinedVariable name) := by
  rcases hHeld.older.getVariable_cases id name with ⟨owner, -, -, hFinds, -⟩ | ⟨-, hResult⟩
  · exact absurd ((h.nearest_iff h.integers hHeld hId name owner).mpr hFinds) (hUnbound owner)
  · exact hResult

theorem Agrees.getFunction_of_reads {name : Name} {callable : Callable}
    (hReads : world.Reads Frame.functions id name callable) :
    store.getFunction id name = .ok callable := by
  obtain ⟨owner, hNearest, hBinds⟩ := hReads
  have hFinds := (h.nearest_iff h.functions hHeld hId name owner).mp hNearest
  rcases hHeld.older.getFunction_cases id name with
    ⟨other, scope, found, hOther, hScope, hFound, hResult⟩ | ⟨hNone, -⟩
  · obtain rfl := hFinds.unique hOther
    have hValue := (h.binds_iff h.functions hScope name callable).mp hBinds
    rw [hFound] at hValue
    rw [hResult, Option.some.inj hValue]
  · exact absurd hFinds (hNone owner)

theorem Agrees.getFunction_of_unbound {name : Name}
    (hUnbound : world.Unbound Frame.functions id name) :
    store.getFunction id name = .error (.undefinedFunction name) := by
  rcases hHeld.older.getFunction_cases id name with ⟨owner, -, -, hFinds, -⟩ | ⟨-, hResult⟩
  · exact absurd ((h.nearest_iff h.functions hHeld hId name owner).mpr hFinds) (hUnbound owner)
  · exact hResult

/-- Declaring succeeds just where the frame itself does not bind the name. -/
theorem Agrees.declareVariable_of_free {name : Name}
    (hFree : ∀ old, ¬ world.Binds Frame.integers id name old) (value : Int32) :
    ∃ later, store.declareVariable id name value = (.ok (), later) ∧
      Agrees later (world.bindVariable id name value) := by
  obtain ⟨scope, hScope⟩ := hHeld.exists_scope hId
  have hNone : scope.integers.has name = false := by
    rw [Table.has_eq_isSome, Option.isSome_eq_false_iff, Option.isNone_iff_eq_none,
      Option.eq_none_iff_forall_ne_some]
    exact fun old hOld => hFree old ((h.binds_iff h.integers hScope name old).mpr hOld)
  have hResult : store.declareVariable id name value = (.ok (), store.modify id (fun scope =>
      { scope with integers := (name, value) :: scope.integers })) := by
    rw [Store.declareVariable, hScope, Option.any_some, hNone, if_neg Bool.false_ne_true]
  refine ⟨_, hResult, h.bindVariable (fun scope _ => ?_) (fun _ => rfl) (fun _ => rfl)⟩
  funext other
  exact Table.get?_cons name other value scope.integers

theorem Agrees.declareVariable_of_bound {name : Name} {old : Int32}
    (hBound : world.Binds Frame.integers id name old) (value : Int32) :
    store.declareVariable id name value = (.error (.duplicateVariable name), store) := by
  obtain ⟨scope, hScope⟩ := hHeld.exists_scope hId
  have hOld := (h.binds_iff h.integers hScope name old).mp hBound
  rw [Store.declareVariable, hScope, Option.any_some, Table.has_eq_isSome, hOld, if_pos Option.isSome_some]

theorem Agrees.declareFunction_of_free {name : Name}
    (hFree : ∀ old, ¬ world.Binds Frame.functions id name old) (callable : Callable) :
    ∃ later, store.declareFunction id name callable = (.ok (), later) ∧
      Agrees later (world.bindFunction id name callable) := by
  obtain ⟨scope, hScope⟩ := hHeld.exists_scope hId
  have hNone : scope.functions.has name = false := by
    rw [Table.has_eq_isSome, Option.isSome_eq_false_iff, Option.isNone_iff_eq_none,
      Option.eq_none_iff_forall_ne_some]
    exact fun old hOld => hFree old ((h.binds_iff h.functions hScope name old).mpr hOld)
  exact ⟨_, by rw [Store.declareFunction, hScope, Option.any_some, hNone, if_neg Bool.false_ne_true],
    h.bindFunction id name callable⟩

theorem Agrees.declareFunction_of_bound {name : Name} {old : Callable}
    (hBound : world.Binds Frame.functions id name old) (callable : Callable) :
    store.declareFunction id name callable = (.error (.duplicateFunction name), store) := by
  obtain ⟨scope, hScope⟩ := hHeld.exists_scope hId
  have hOld := (h.binds_iff h.functions hScope name old).mp hBound
  rw [Store.declareFunction, hScope, Option.any_some, Table.has_eq_isSome, hOld, if_pos Option.isSome_some]

/-- The value is put into the scope that is the nearest frame. -/
theorem Agrees.setVariable_of_nearest {name : Name} {owner : ScopeId}
    (hNearest : world.Nearest Frame.integers name id owner) (value : Int32) :
    ∃ later, store.setVariable id name value = (.ok (), later) ∧
      Agrees later (world.bindVariable owner name value) := by
  have hFinds := (h.nearest_iff h.integers hHeld hId name owner).mp hNearest
  rcases hHeld.older.setVariable_cases id name value with ⟨other, hOther, hResult⟩ | ⟨hNone, -⟩
  · obtain rfl := hFinds.unique hOther
    refine ⟨_, hResult, h.bindVariable (fun scope hScope => ?_) (fun _ => rfl) (fun _ => rfl)⟩
    obtain ⟨found, hFound, hHas⟩ := hFinds.exists_scope
    rw [hScope] at hFound
    cases hFound
    rw [Table.has_eq_isSome] at hHas
    obtain ⟨old, hOld⟩ := Option.isSome_iff_exists.mp hHas
    funext entry
    rw [Table.get?_put, hOld]
    rfl
  · exact absurd hFinds (hNone owner)

theorem Agrees.setVariable_of_unbound {name : Name}
    (hUnbound : world.Unbound Frame.integers id name) (value : Int32) :
    store.setVariable id name value = (.error (.undefinedVariable name), store) := by
  rcases hHeld.older.setVariable_cases id name value with ⟨owner, hFinds, -⟩ | ⟨-, hResult⟩
  · exact absurd ((h.nearest_iff h.integers hHeld hId name owner).mpr hFinds) (hUnbound owner)
  · exact hResult

end

theorem BindsParameters.history {world final : World} {id : ScopeId} {names : List Name}
    {values : List Int32} {outcome : Outcome Unit}
    (h : BindsParameters world id names values outcome final) : final.history = world.history := by
  induction h with
  | nil => rfl
  | cons _ _ ih => exact ih
  | twice => rfl

/-- The machine binds parameters as the semantics derives. -/
theorem BindsParameters.bindParameters {world final : World} {id : ScopeId} {names : List Name}
    {values : List Int32} {outcome : Outcome Unit}
    (hBinds : BindsParameters world id names values outcome final) {store : Store}
    (h : Agrees store world) (hHeld : store.Holds held) (hId : id ∈ held) :
    ∃ result later, Machine.bindParameters store id names values = (result, later) ∧
      result.mapError ScopeError.fault = outcome ∧ Agrees later final := by
  induction hBinds generalizing store with
  | nil world id => exact ⟨_, _, rfl, rfl, h⟩
  | @cons world final id name value names values outcome free others ih =>
      obtain ⟨later, hDeclared, hLater⟩ := h.declareVariable_of_free hHeld hId free value
      have hStillHeld := hHeld.declareVariable id name value
      rw [hDeclared] at hStillHeld
      rw [Machine.bindParameters, hDeclared]
      exact ih hLater hStillHeld hId
  | twice bound =>
      rw [Machine.bindParameters, h.declareVariable_of_bound hHeld hId bound]
      exact ⟨_, _, rfl, rfl, h⟩

end

end IntScript.Semantics
