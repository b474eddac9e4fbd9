import IntScript.Proofs.Semantics.Execution

/-! What the machine ends, the natural semantics derives. A run that comes to rest is cut where the
outcome of a part is handed over; each piece is shorter than the whole, so each part has a
derivation. -/
namespace IntScript.Semantics

open Machine

namespace World

variable {α : Type} {world : World} {table : Frame → Name → Option α} {id : ScopeId} {name : Name}

/-- The search ends in a frame that binds the name. -/
theorem Nearest.binds {owner : ScopeId} (h : world.Nearest table name id owner) :
    ∃ value, world.Binds table owner name value := by
  induction h with
  | here hFrame hBound =>
      obtain ⟨value, hValue⟩ := Option.ne_none_iff_exists'.mp hBound
      exact ⟨value, _, hFrame, hValue⟩
  | outward _ _ _ _ ih => exact ih

/-- There is no third case, and that is what makes every state of the machine a case of some rule. -/
theorem reads_or_unbound (world : World) (table : Frame → Name → Option α) (id : ScopeId)
    (name : Name) : (∃ value, world.Reads table id name value) ∨ world.Unbound table id name := by
  by_cases hOwner : ∃ owner, world.Nearest table name id owner
  · obtain ⟨owner, hNearest⟩ := hOwner
    obtain ⟨value, hBinds⟩ := hNearest.binds
    exact Or.inl ⟨value, owner, hNearest, hBinds⟩
  · exact Or.inr (fun owner hNearest => hOwner ⟨owner, hNearest⟩)

theorem nearest_or_unbound (world : World) (table : Frame → Name → Option α) (id : ScopeId)
    (name : Name) : (∃ owner, world.Nearest table name id owner) ∨ world.Unbound table id name := by
  rcases world.reads_or_unbound table id name with ⟨value, owner, hNearest, -⟩ | hUnbound
  · exact Or.inl ⟨owner, hNearest⟩
  · exact Or.inr hUnbound

theorem binds_or_free (world : World) (table : Frame → Name → Option α) (id : ScopeId)
    (name : Name) :
    (∃ old, world.Binds table id name old) ∨ ∀ old, ¬ world.Binds table id name old := by
  by_cases hBound : ∃ old, world.Binds table id name old
  · exact Or.inl hBound
  · exact Or.inr (fun old hOld => hBound ⟨old, hOld⟩)

end World

/-- As many arguments as parameters can be bound, if with a fault. -/
theorem exists_bindsParameters (world : World) (id : ScopeId) {names : List Name}
    {values : List Int32} (hLength : values.length = names.length) :
    ∃ outcome final, BindsParameters world id names values outcome final := by
  induction names generalizing world values with
  | nil =>
      obtain rfl := List.length_eq_zero_iff.mp hLength
      exact ⟨_, _, BindsParameters.nil world id⟩
  | cons name names ih =>
      obtain ⟨value, values, rfl⟩ := List.exists_cons_of_length_eq_add_one hLength
      rcases world.binds_or_free Frame.integers id name with ⟨old, hOld⟩ | hFree
      · exact ⟨_, _, BindsParameters.twice hOld⟩
      · obtain ⟨outcome, final, hOthers⟩ :=
          ih (world.bindVariable id name value) (Nat.succ.inj hLength)
        exact ⟨outcome, final, BindsParameters.cons hFree hOthers⟩

mutual

/-- By the number of steps that are left; each subterm takes fewer of them. -/
theorem evaluates_of_rests {bound : Nat} {world : World} {scope : ScopeId} {expr : Expr}
    {next : AfterValue} {store : Store} {calls : CallStack}
    (hAgrees : Agrees store world)
    (h : RestsWithin bound ⟨.evaluate expr scope next, store, calls, world.history⟩)
    (hLimit : calls.limit = none)
    (hWork : State.Disciplined ⟨.evaluate expr scope next, store, calls, world.history⟩) :
    ∃ outcome final, Evaluates world scope expr outcome final := by
  have hScope : scope ∈ next.held := hWork.control.1 ▸ next.current_mem_held
  obtain ⟨fewer, hFewer, hRest⟩ := h.step Bool.false_ne_true
  match expr with
  | .literal value => exact ⟨_, _, Evaluates.literal world scope value⟩
  | .reference name =>
      rcases world.reads_or_unbound Frame.integers scope name with ⟨value, hReads⟩ | hUnbound
      · exact ⟨_, _, Evaluates.reference hReads⟩
      · exact ⟨_, _, Evaluates.referenceUnbound hUnbound⟩
  | .call callee arguments =>
      rcases world.reads_or_unbound Frame.functions scope callee with ⟨callable, hReads⟩ | hUnbound
      · have hFound := hAgrees.getFunction_of_reads hWork.store hScope hReads
        have hApply := hWork.step
        simp only [step, evaluate, hFound, Store.child_fst] at hApply hRest
        rw [hAgrees.size] at hApply hRest
        obtain ⟨outcome, middle, hArguments⟩ :=
          applies_of_rests (hAgrees.child scope) hRest hLimit hApply
        have hApplied := hArguments.applies hLimit (hAgrees.child scope) hApply
        cases outcome with
        | error fault => exact ⟨_, _, Evaluates.callArguments hReads hArguments⟩
        | ok values =>
            obtain ⟨later, hReaches, hAgrees⟩ := hApplied
            have hHere := hApply.reaches hReaches
            obtain ⟨least, hLeast, hRest⟩ := hRest.reaches hReaches
            obtain ⟨left, hLeft, hRest⟩ := hRest.step Bool.false_ne_true
            obtain ⟨outcome, final, hInvokes⟩ := invokes_of_rests
              (hAgrees.release hHere.store next.held_ne_nil) hRest hLimit hHere.control.1
              hHere.control.2 (hHere.store.release next.held_ne_nil)
            rw [List.append_nil, List.reverse_reverse] at hInvokes
            exact ⟨_, _, Evaluates.call hReads hArguments hInvokes⟩
      · exact ⟨_, _, Evaluates.callUnbound hUnbound⟩
  | .binary op left right =>
      obtain ⟨outcome, middle, hLeft⟩ := evaluates_of_rests hAgrees hRest hLimit hWork.step
      obtain ⟨result, store, hReaches, rfl, hAgrees⟩ := hLeft.delivers hLimit hAgrees hWork.step
      cases result with
      | error failure => exact ⟨_, _, Evaluates.binaryLeft hLeft⟩
      | ok first =>
          have hHere := (hWork.step.reaches hReaches).step
          obtain ⟨least, hLeast, hRest⟩ := hRest.reaches hReaches
          obtain ⟨left, hLess, hRest⟩ := hRest.step Bool.false_ne_true
          obtain ⟨outcome, final, hRight⟩ := evaluates_of_rests hAgrees hRest hLimit hHere
          cases outcome with
          | error fault => exact ⟨_, _, Evaluates.binaryRight hLeft hRight⟩
          | ok second => exact ⟨_, _, Evaluates.binary hLeft hRight⟩
termination_by 2 * bound
decreasing_by all_goals omega

/-- The arguments first, and then the call. -/
theorem applies_of_rests {bound : Nat} {world : World} {inner : ScopeId} {pending : List Expr}
    {callee : Callable} {known : List Int32} {next : AfterValue} {store : Store} {calls : CallStack}
    (hAgrees : Agrees store world)
    (h : RestsWithin bound ⟨.apply callee known pending inner next, store, calls, world.history⟩)
    (hLimit : calls.limit = none)
    (hWork : State.Disciplined ⟨.apply callee known pending inner next, store, calls, world.history⟩) :
    ∃ outcome final, EvaluatesAll world inner pending outcome final := by
  match pending with
  | [] => exact ⟨_, _, EvaluatesAll.nil world inner⟩
  | expr :: others =>
      obtain ⟨fewer, hFewer, hRest⟩ := h.step Bool.false_ne_true
      obtain ⟨outcome, middle, hFirst⟩ := evaluates_of_rests hAgrees hRest hLimit hWork.step
      obtain ⟨result, store, hReaches, rfl, hAgrees⟩ := hFirst.delivers hLimit hAgrees hWork.step
      cases result with
      | error failure => exact ⟨_, _, EvaluatesAll.fails hFirst⟩
      | ok value =>
          have hHere := (hWork.step.reaches hReaches).step
          obtain ⟨least, hLeast, hRest⟩ := hRest.reaches hReaches
          obtain ⟨left, hLess, hRest⟩ := hRest.step Bool.false_ne_true
          obtain ⟨outcome, final, hOthers⟩ := applies_of_rests hAgrees hRest hLimit hHere
          exact ⟨_, _, EvaluatesAll.cons hFirst hOthers⟩
termination_by 2 * bound
decreasing_by all_goals omega

/-- A body runs within the steps of its call, and the rest is what comes after. -/
theorem invokes_of_rests {bound : Nat} {world : World} {callee : Callable} {arguments : List Int32}
    {next : AfterValue} {store : Store} {calls : CallStack}
    (hAgrees : Agrees store world)
    (h : RestsWithin bound (call callee arguments next store calls world.history))
    (hLimit : calls.limit = none) (hCallee : callee.homeIn next.held)
    (hNext : next.Disciplined) (hHeld : store.Holds next.held) :
    ∃ outcome final, Invokes world callee arguments outcome final := by
  match callee with
  | .builtin builtin => exact ⟨_, _, Invokes.builtin world builtin arguments⟩
  | .user function home =>
      by_cases hArity : arguments.length = function.arity
      · obtain ⟨outcome, middle, hBinds⟩ :=
          exists_bindsParameters (world.child home) world.next hArity
        have hInner := hAgrees.size ▸ hHeld.child hCallee
        obtain ⟨result, later, hBind, hResult, hAgrees'⟩ :=
          hBinds.bindParameters (hAgrees.child home) hInner List.mem_cons_self
        cases outcome with
        | error fault => exact ⟨_, _, Invokes.parameters hArity hBinds⟩
        | ok done =>
            obtain rfl := mapError_eq_ok hResult
            have hActivation := holds_bindParameters hInner world.next function.parameters arguments
            rw [hBind] at hActivation
            rw [call_of_matching hArity (hHeld.isLive hCallee) hLimit hAgrees.size, hBind] at h
            have hWork : State.Disciplined ⟨.execute function.body world.next
                (.finish world.next next), later, ⟨calls.frames.push function.name, none⟩,
                world.history⟩ := ⟨⟨rfl, hNext⟩, hActivation⟩
            have hHistory : middle.history = world.history := hBinds.history
            rw [← hHistory] at h hWork
            obtain ⟨outcome, final, hBody⟩ := executesAll_of_rests hAgrees' h rfl hWork
            exact ⟨_, _, Invokes.body hArity hBinds hBody⟩
      · exact ⟨_, _, Invokes.arity hArity⟩
termination_by 2 * bound + 1
decreasing_by all_goals omega

/-- A loop is executed again for each turn, with fewer steps left. -/
theorem executes_of_rests {bound : Nat} {world : World} {scope : ScopeId} {stmt : Stmt}
    {next : AfterBlock} {store : Store} {calls : CallStack}
    (hAgrees : Agrees store world)
    (h : RestsWithin bound (execute stmt scope next store calls world.history))
    (hLimit : calls.limit = none) (hScope : scope = next.current)
    (hNext : next.Disciplined) (hHeld : store.Holds next.held) :
    ∃ outcome final, Executes world scope stmt outcome final := by
  have hWork : (execute stmt scope next store calls world.history).Disciplined :=
    disciplined_execute hScope hNext hHeld
  match stmt with
  | .function name parameters body =>
      rcases world.binds_or_free Frame.functions scope name with ⟨old, hOld⟩ | hFree
      · exact ⟨_, _, Executes.functionTwice hOld⟩
      · exact ⟨_, _, Executes.function hFree⟩
  | .declare name expr =>
      obtain ⟨outcome, middle, hValue⟩ := evaluates_of_rests hAgrees h hLimit hWork
      cases outcome with
      | error fault => exact ⟨_, _, Executes.declareFails hValue⟩
      | ok value =>
          rcases middle.binds_or_free Frame.integers scope name with ⟨old, hOld⟩ | hFree
          · exact ⟨_, _, Executes.declareTwice hValue hOld⟩
          · exact ⟨_, _, Executes.declare hValue hFree⟩
  | .assign name expr =>
      obtain ⟨outcome, middle, hValue⟩ := evaluates_of_rests hAgrees h hLimit hWork
      cases outcome with
      | error fault => exact ⟨_, _, Executes.assignFails hValue⟩
      | ok value =>
          rcases middle.nearest_or_unbound Frame.integers scope name with ⟨owner, hOwner⟩ | hUnbound
          · exact ⟨_, _, Executes.assign hValue hOwner⟩
          · exact ⟨_, _, Executes.assignUnbound hValue hUnbound⟩
  | .yield expr =>
      obtain ⟨outcome, final, hValue⟩ := evaluates_of_rests hAgrees h hLimit hWork
      exact ⟨_, _, Executes.yield hValue⟩
  | .evaluate expr =>
      obtain ⟨outcome, final, hValue⟩ := evaluates_of_rests hAgrees h hLimit hWork
      exact ⟨_, _, Executes.evaluate hValue⟩
  | .branch test positive negative =>
      obtain ⟨outcome, middle, hTest⟩ := evaluates_of_rests hAgrees h hLimit hWork
      obtain ⟨result, store, hReaches, rfl, hAgrees⟩ := hTest.delivers hLimit hAgrees hWork
      cases result with
      | error failure => exact ⟨_, _, Executes.branchFails hTest⟩
      | ok value =>
          have hEntered := (hWork.reaches hReaches).step
          obtain ⟨least, hLeast, hRest⟩ := h.reaches hReaches
          obtain ⟨left, hLess, hRest⟩ := hRest.step Bool.false_ne_true
          simp only [step, deliver, enter_eq hAgrees.size] at hEntered hRest
          obtain ⟨outcome, final, hBlock⟩ :=
            executesAll_of_rests (hAgrees.child scope) hRest hLimit hEntered
          exact ⟨_, _, Executes.branch hTest hBlock⟩
  | .loop test body =>
      obtain ⟨outcome, middle, hTest⟩ := evaluates_of_rests hAgrees h hLimit hWork
      obtain ⟨result, store, hReaches, rfl, hAgrees⟩ := hTest.delivers hLimit hAgrees hWork
      cases result with
      | error failure => exact ⟨_, _, Executes.loopFails hTest⟩
      | ok value =>
          by_cases hZero : value = 0
          · subst hZero
            exact ⟨_, _, Executes.loopEnds hTest⟩
          · have hEntered := (hWork.reaches hReaches).step
            obtain ⟨least, hLeast, hRest⟩ := h.reaches hReaches
            obtain ⟨left, hLess, hRest⟩ := hRest.step Bool.false_ne_true
            simp only [step, deliver, ne_eq, hZero, not_false_eq_true, if_true,
              enter_eq hAgrees.size] at hEntered hRest
            obtain ⟨outcome, later, hBody⟩ :=
              executesAll_of_rests (hAgrees.child scope) hRest hLimit hEntered
            obtain ⟨result, store, hReaches, rfl, hAgrees⟩ :=
              (hBody.completes hLimit (hAgrees.child scope) hEntered).leave hEntered
            rcases result with failure | _ | returned
            · exact ⟨_, _, Executes.loopStops hTest hZero hBody nofun⟩
            · have hLeft := (hEntered.reaches hReaches).store
              obtain ⟨last, hLast, hRest⟩ := hRest.reaches hReaches
              obtain ⟨again, hAgain, hRest⟩ := hRest.step Bool.false_ne_true
              have hRest : RestsWithin again
                  (execute (.loop test body) scope next store calls later.history) := hRest
              obtain ⟨outcome, final, hFurther⟩ :=
                executes_of_rests hAgrees hRest hLimit hScope hNext hLeft
              exact ⟨_, _, Executes.loopAgain hTest hZero hBody hFurther⟩
            · exact ⟨_, _, Executes.loopStops hTest hZero hBody nofun⟩
termination_by 2 * bound + 1
decreasing_by all_goals omega

/-- The statements of a block follow each other, and a `return` or a fault leaves the others out. -/
theorem executesAll_of_rests {bound : Nat} {world : World} {scope : ScopeId} {block : Block}
    {next : AfterBlock} {store : Store} {calls : CallStack}
    (hAgrees : Agrees store world)
    (h : RestsWithin bound ⟨.execute block scope next, store, calls, world.history⟩)
    (hLimit : calls.limit = none)
    (hWork : State.Disciplined ⟨.execute block scope next, store, calls, world.history⟩) :
    ∃ outcome final, ExecutesAll world scope block outcome final := by
  match block with
  | [] => exact ⟨_, _, ExecutesAll.nil world scope⟩
  | stmt :: others =>
      have hSequence : (AfterBlock.sequence others scope next).Disciplined := hWork.control
      have hScope : scope = (AfterBlock.sequence others scope next).current := hSequence.1
      obtain ⟨fewer, hFewer, hRest⟩ := h.step Bool.false_ne_true
      obtain ⟨outcome, middle, hFirst⟩ :=
        executes_of_rests hAgrees hRest hLimit hScope hSequence hWork.store
      obtain ⟨result, store, hReaches, rfl, hAgrees⟩ :=
        hFirst.completes hLimit hAgrees hScope hSequence hWork.store
      rcases result with failure | _ | returned
      · exact ⟨_, _, ExecutesAll.stops hFirst nofun⟩
      · have hHere := (hWork.step.reaches hReaches).step
        obtain ⟨least, hLeast, hRest⟩ := hRest.reaches hReaches
        obtain ⟨left, hLess, hRest⟩ := hRest.step Bool.false_ne_true
        obtain ⟨outcome, final, hOthers⟩ := executesAll_of_rests hAgrees hRest hLimit hHere
        exact ⟨_, _, ExecutesAll.cons hFirst hOthers⟩
      · exact ⟨_, _, ExecutesAll.stops hFirst nofun⟩
termination_by 2 * bound
decreasing_by all_goals omega

end

end IntScript.Semantics
