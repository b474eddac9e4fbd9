import IntScript.Proofs.Machine.Runs
import IntScript.Proofs.Machine.Start
import IntScript.Proofs.Nesting.Sites

/-! Lexical scoping: what a name means is decided by the blocks around its occurrence, whoever calls the
function that it stands in. -/
namespace IntScript

def Binding.sought : Binding → Sought
  | integer name => .integer name
  | function name _ => .function name

namespace Store

/-- A look-up from `scope` ends in `owner`, at this binding. -/
def Resolves (store : Store) (scope owner : ScopeId) : Binding → Prop
  | .integer name => store.nearest? (fun frame => frame.integers.has name) scope = some owner
  | .function name callable =>
      store.nearest? (fun frame => frame.functions.has name) scope = some owner ∧
        store.getFunction scope name = .ok callable

variable {store : Store} {held : List ScopeId}

/-- A look-up ends on the way outward, at a binding that is there. -/
theorem Holds.finds_of_resolves (h : store.Holds held) {scope owner : ScopeId} {binding : Binding}
    (hResolves : store.Resolves scope owner binding) :
    store.Finds binding.sought.boundIn scope owner ∧ store.Binds owner binding := by
  cases binding with
  | integer name =>
      have hFinds := (h.older.nearest?_eq_some_iff scope owner).mp hResolves
      obtain ⟨frame, hFrame, hBound⟩ := hFinds.exists_scope
      exact ⟨hFinds, frame, hFrame, hBound⟩
  | function name callable =>
      obtain ⟨hNearest, hFunction⟩ := hResolves
      have hFinds := (h.older.nearest?_eq_some_iff scope owner).mp hNearest
      obtain ⟨other, frame, hOther, hFrame, hEntry⟩ := h.older.entry_of_getFunction hFunction
      obtain rfl := hFinds.unique hOther
      exact ⟨hFinds, frame, hFrame, hEntry⟩

/-- A look-up that ends in a scope ends at a binding of it. -/
theorem Holds.exists_resolves (h : store.Holds held) {scope owner : ScopeId} {sought : Sought}
    (hNearest : store.nearest? sought.boundIn scope = some owner) :
    ∃ binding : Binding, binding.sought = sought ∧ store.Resolves scope owner binding := by
  cases sought with
  | integer name => exact ⟨.integer name, rfl, hNearest⟩
  | function name =>
      rcases h.older.getFunction_cases scope name with ⟨_, _, callable, -, -, -, hFound⟩ | ⟨hNone, -⟩
      · exact ⟨.function name callable, rfl, hNearest, hFound⟩
      · exact absurd ((h.older.nearest?_eq_some_iff scope owner).mp hNearest) (hNone owner)

end Store

namespace Machine

/-- What the next step looks up, and in which scope: a variable to be read, a function to be called, or
a variable to be assigned to, once its new value is there. -/
def State.seeks? (state : State) : Option (Sought × ScopeId) :=
  match state.control with
  | .evaluate (.reference name) scope _ => some (.integer name, scope)
  | .evaluate (.call callee _) scope _ => some (.function callee, scope)
  | .value (.ok _) (.assign name scope _) => some (.integer name, scope)
  | _ => none

/-- In this state a `var` or `fun` statement that stands in the block at `site` introduces the binding in
the scope, or a function whose body is the block at `site` is called, with the variable among its
parameters, and the scope is made for them. -/
inductive Introduces (program : Block) (site : Site) (scope : ScopeId) : State → Binding → Prop where
  | integer {name : Name} {initial : Expr} {before others : Block}
      (stands : (layerAt program site).body = before ++ .declare name initial :: others)
      (value : Int32) (next : AfterBlock) (store : Store) (calls : CallStack) (history : History) :
      Introduces program site scope
        ⟨.value (.ok value) (.declare name scope (.sequence others scope next)), store, calls, history⟩
        (.integer name)
  | function {name : Name} {parameters : List Name} {body before others : Block}
      (stands : (layerAt program site).body = before ++ .function name parameters body :: others)
      (next : AfterBlock) (store : Store) (calls : CallStack) (history : History) :
      Introduces program site scope
        ⟨.execute (.function name parameters body :: others) scope next, store, calls, history⟩
        (.function name (.user ⟨name, parameters, body⟩ scope))
  | parameter {name : Name} {function : Function} {index : Nat} {outer : Site}
      (here : site = ⟨index, .body⟩ :: outer)
      (stands : (layerAt program outer).body[index]? =
        some (.function function.name function.parameters function.body))
      (listed : name ∈ function.parameters) (home : ScopeId) (known : List Int32) (inner : ScopeId)
      (next : AfterValue) {store : Store} (new : store.slots.size = scope) (calls : CallStack)
      (history : History) :
      Introduces program site scope
        ⟨.apply (.user function home) known [] inner next, store, calls, history⟩ (.integer name)

/-- The step from this state makes the binding, by what stands in the block at `site`. -/
structure Makes (program : Block) (site : Site) (scope : ScopeId) (state : State) (binding : Binding) :
    Prop where
  introduces : Introduces program site scope state binding
  absent : ¬ state.store.Binds scope binding
  present : (step state).store.Binds scope binding

/-- Only what the block declares is introduced by it. -/
theorem Introduces.declares {program : Block} {site : Site} {scope : ScopeId} {state : State}
    {binding : Binding} (h : Introduces program site scope state binding) :
    (layerAt program site).Declares binding.sought := by
  cases h with
  | @integer name initial before others stands =>
      refine Or.inr ⟨initial, ?_⟩
      simp [stands]
  | @function name parameters body before others stands =>
      refine ⟨parameters, body, ?_⟩
      simp [stands]
  | parameter here stands listed =>
      refine Or.inl ?_
      rw [here, layerAt, stands]
      exact listed

/-- A look-up that finds nothing fails with the fault of its name. -/
theorem fails_of_unbound {state : State} {sought : Sought} {scope : ScopeId}
    (hSeeks : state.seeks? = some (sought, scope))
    (hNone : state.store.nearest? sought.boundIn scope = none) :
    (step state).control.failure? = some (state.calls.failure sought.fault) := by
  obtain ⟨control, store, calls, history⟩ := state
  cases control with
  | evaluate expr inner next =>
      cases expr with
      | reference name =>
          cases hSeeks
          have hError : store.getVariable scope name = .error (.undefinedVariable name) := by
            have hNone : store.nearest? (fun frame => frame.integers.has name) scope = none := hNone
            rw [Store.getVariable, hNone]
            rfl
          rw [step, evaluate, hError]
          rfl
      | call callee arguments =>
          cases hSeeks
          have hError : store.getFunction scope callee = .error (.undefinedFunction callee) := by
            have hNone : store.nearest? (fun frame => frame.functions.has callee) scope = none := hNone
            rw [Store.getFunction, hNone]
            rfl
          rw [step, evaluate, hError]
          rfl
      | literal value | binary op left right => cases hSeeks
  | value result next =>
      cases result with
      | error failure => cases hSeeks
      | ok value =>
          cases next with
          | assign name inner next =>
              cases hSeeks
              have hError : store.setVariable scope name value =
                  (.error (.undefinedVariable name), store) := by
                have hNone : store.nearest? (fun frame => frame.integers.has name) scope = none := hNone
                rw [Store.setVariable, hNone]
              rw [step, deliver, hError]
              rfl
          | rightOperand op right scope next | operator op left next
          | argument callee known pending inner next | declare name scope next | yield next
          | discard next | branch positive negative scope next | test condition body scope next =>
              cases hSeeks
  | apply callee known pending inner next | execute block inner next | completed result next =>
      cases hSeeks

/-- The site of the scope in which a look-up ends encloses the site of the scope where it began. -/
theorem Traced.Sited.suffix_of_finds {program : Block} {traced : Traced} (h : traced.Sited program)
    {found : Scope → Bool} {scope owner : ScopeId} (hFinds : traced.state.store.Finds found scope owner)
    {site : Site} (hSite : traced.sites[scope]? = some site) :
    ∃ outer, traced.sites[owner]? = some outer ∧ outer <:+ site := by
  induction hFinds generalizing site with
  | here => exact ⟨site, hSite, List.suffix_refl site⟩
  | outward hScope _ hParent _ ih =>
      obtain ⟨inner, outer, hInner, hOuter, hSuffix⟩ := h.parent hScope hParent
      rw [hSite] at hInner
      cases hInner
      obtain ⟨last, hLast, hEncloses⟩ := ih hOuter
      exact ⟨last, hLast, hEncloses.trans hSuffix⟩

/-- Where a name is looked up, it occurs in a statement of the block that the scope belongs to. -/
theorem Traced.Sited.stands_of_seeks {program : Block} {traced : Traced} (h : traced.Sited program)
    (hWork : traced.state.Disciplined) {sought : Sought} {scope : ScopeId}
    (hSeeks : traced.state.seeks? = some (sought, scope)) :
    ∃ site before stmt others, traced.sites[scope]? = some site ∧
      (layerAt program site).body = before ++ stmt :: others ∧ sought ∈ stmt.uses := by
  obtain ⟨⟨control, store, calls, history⟩, sites⟩ := traced
  have hControl := h.control
  have hOrder := hWork.control
  cases control with
  | evaluate expr inner next =>
      obtain ⟨stmt, hUses, hNext⟩ := hControl
      obtain ⟨rfl, hDisciplined⟩ := hOrder
      obtain ⟨others, site, before, hSite, hBody⟩ := next.continues_remain stmt hDisciplined hNext
      cases expr with
      | reference name | call callee arguments =>
          cases hSeeks
          exact ⟨site, before, stmt, others, hSite, hBody, hUses List.mem_cons_self⟩
      | literal value | binary op left right => cases hSeeks
  | value result next =>
      obtain ⟨stmt, hNext⟩ := hControl
      cases result with
      | error failure => cases hSeeks
      | ok value =>
          cases next with
          | assign name inner next =>
              obtain ⟨rfl, hDisciplined⟩ := hOrder
              obtain ⟨⟨initial, rfl⟩, hFollows, -⟩ := hNext
              obtain ⟨site, before, hSite, hBody⟩ := hFollows.remain hDisciplined
              cases hSeeks
              exact ⟨site, before, _, next.others, hSite, hBody, List.mem_cons_self⟩
          | rightOperand op right scope next | operator op left next
          | argument callee known pending inner next | declare name scope next | yield next
          | discard next | branch positive negative scope next | test condition body scope next =>
              cases hSeeks
  | apply callee known pending inner next | execute block inner next | completed result next =>
      cases hSeeks

/-- What a step gives a scope is introduced by the block that the scope belongs to. -/
theorem Traced.Sited.introduces {program : Block} {traced : Traced} (h : traced.Sited program)
    (hWork : traced.state.Disciplined) {scope : ScopeId} {binding : Binding}
    (hDeclares : traced.state.Declares scope binding)
    (hBinds : (Machine.step traced.state).store.Binds scope binding) :
    ∃ site, (traced.step program).sites[scope]? = some site ∧
      Introduces program site scope traced.state binding := by
  have hNew := h.site_of_new
  have hPrefix := traced.prefix_step program
  obtain ⟨⟨control, store, calls, history⟩, sites⟩ := traced
  have hControl := h.control
  have hOrder := hWork.control
  cases hDeclares with
  | integer name value scope next =>
      obtain ⟨stmt, ⟨initial, rfl⟩, hFollows, -⟩ := hControl
      obtain ⟨rfl, hDisciplined⟩ := hOrder
      cases next with
      | sequence others inner next =>
          obtain ⟨rfl, -⟩ := hDisciplined
          obtain ⟨site, before, hSite, hBody⟩ := hFollows
          exact ⟨site, site_of_prefix hPrefix hSite,
            Introduces.integer hBody value next store calls history⟩
      | halt | leave scope next | again condition body scope next | finish activation next =>
          exact hFollows.elim
  | function name parameters body others scope next =>
      obtain ⟨⟨site, before, hSite, hBody⟩, -⟩ := hControl
      exact ⟨site, site_of_prefix hPrefix hSite, Introduces.function hBody next store calls history⟩
  | @parameter name function hListed home known inner next =>
      obtain ⟨stmt, ⟨site, hSite, hBody⟩, -⟩ := hControl
      -- The call has made the scope, for the binding is there.
      have hGrown : (Machine.step ⟨.apply (.user function home) known [] inner next, store, calls,
          history⟩).store.slots.size ≠ store.slots.size := by
        obtain ⟨frame, hFrame, -⟩ := hBinds
        exact Nat.ne_of_gt (Store.lt_size_of_scope hFrame)
      refine ⟨_, hNew hGrown, Introduces.parameter rfl ?_ hListed home known inner next rfl calls history⟩
      rw [siteOf_of_getElem? hSite]
      exact getElem?_idxOf_of_mem hBody

end Machine

namespace Interpreter

open Machine

/-- The run of a program after a number of steps. -/
def traced (interpreter : Interpreter) (program : Block) (store : Store) : Nat → Traced
  | 0 => ⟨interpreter.start program store 0, [[]]⟩
  | steps + 1 => (interpreter.traced program store steps).step program

section

variable {interpreter : Interpreter} {names later : Interner} {store : Store}

/-- The states of the run are those that the machine comes to. -/
theorem state_traced (interpreter : Interpreter) (program : Block) (store : Store) (steps : Nat) :
    (interpreter.traced program store steps).state = after steps (interpreter.start program store 0) := by
  induction steps with
  | zero => rfl
  | succ steps ih =>
      rw [after_add, ← ih]
      rfl

/-- Sites are noted and never changed. -/
theorem sites_traced_prefix (interpreter : Interpreter) (program : Block) (store : Store)
    {first second : Nat} (hOrder : first ≤ second) :
    (interpreter.traced program store first).sites <+: (interpreter.traced program store second).sites := by
  induction hOrder with
  | refl => exact List.prefix_refl _
  | step _ ih => exact ih.trans (Traced.prefix_step _ program)

variable (hSeeded : declareBuiltins (Store.empty.root).2 0 interpreter.builtins.entries names =
  ((.ok (), store), later))

include hSeeded

/-- What is noted beside the machine has no influence on it, so every moment of the traced run is
one of the run itself. -/
theorem disciplined_traced (program : Block) (steps : Nat) :
    (interpreter.traced program store steps).state.Disciplined := by
  induction steps with
  | zero => exact disciplined_start hSeeded program
  | succ steps ih => exact ih.step

/-- In every state of a run the scopes have their sites. -/
theorem sited_traced (program : Block) (steps : Nat) :
    (interpreter.traced program store steps).Sited program := by
  induction steps with
  | zero =>
      exact {
        control := ⟨⟨[], [], rfl, rfl⟩, trivial⟩
        size := (size_start hSeeded).symm
        parent := fun hScope hParent => by
          rw [parent_start hSeeded hScope] at hParent
          cases hParent
        function := fun hBinds => by
          obtain ⟨-, entry, -, hEntry⟩ := binds_start hSeeded hBinds
          cases hEntry
          trivial }
  | succ steps ih => exact ih.step (disciplined_traced hSeeded program steps)

/-- A binding that is there at some time was there at the start, or came by an earlier step that declares
it. -/
theorem declared_before {program : Block} {steps : Nat} {id : ScopeId} {binding : Binding}
    (hBinds : (interpreter.traced program store steps).state.store.Binds id binding) :
    store.Binds id binding ∨ ∃ earlier, earlier < steps ∧
      (interpreter.traced program store earlier).state.Declares id binding ∧
      ¬ (interpreter.traced program store earlier).state.store.Binds id binding ∧
      (interpreter.traced program store (earlier + 1)).state.store.Binds id binding := by
  induction steps with
  | zero => exact Or.inl hBinds
  | succ steps ih =>
      by_cases hBefore : (interpreter.traced program store steps).state.store.Binds id binding
      · rcases ih hBefore with hStart | ⟨earlier, hEarlier, hRest⟩
        · exact Or.inl hStart
        · exact Or.inr ⟨earlier, Nat.lt_succ_of_lt hEarlier, hRest⟩
      · have hDeclares := (disciplined_traced hSeeded program steps).step_binds hBinds
        exact Or.inr ⟨steps, Nat.lt_succ_self steps, hDeclares.resolve_left hBefore, hBefore, hBinds⟩

/-- A binding of a scope is a builtin of the root, or was made by the block that the scope belongs
to. -/
theorem made_before {program : Block} {steps : Nat} {id : ScopeId} {binding : Binding}
    (hBinds : (interpreter.traced program store steps).state.store.Binds id binding) :
    (id = 0 ∧ ∃ entry ∈ registered interpreter.builtins.entries names,
      binding = .function entry.1 (.builtin entry.2)) ∨
    ∃ site earlier, (interpreter.traced program store steps).sites[id]? = some site ∧
      earlier < steps ∧
      Makes program site id (interpreter.traced program store earlier).state binding := by
  rcases declared_before hSeeded hBinds with
    hStart | ⟨earlier, hEarlier, hDeclares, hAbsent, hPresent⟩
  · exact Or.inl (binds_start hSeeded hStart)
  · obtain ⟨site, hSite, hIntroduces⟩ := (sited_traced hSeeded program earlier).introduces
      (disciplined_traced hSeeded program earlier) hDeclares hPresent
    have hPrefix := interpreter.sites_traced_prefix program store (Nat.succ_le_of_lt hEarlier)
    exact Or.inr ⟨site, earlier, site_of_prefix hPrefix hSite, hEarlier, hIntroduces, hAbsent, hPresent⟩

/-- Lexical scoping. Keeping track of the blocks that scopes belong to leaves the states of the run as the
machine has them. Whenever a run looks up a name, the name occurs in a statement of the block that
the scope belongs to. If the look-up ends at a binding, the scope of the binding belongs to the same block
or to one around it, and an earlier step made the binding there: a `var` or `fun` statement that stands in
that block itself, or a call of the function whose body it is, as a parameter; or it is a builtin in the
root. If no such block declares the name and no builtin has it, the step fails for want of the name and the
run ends with this failure, whatever callers have declared. -/
theorem lookup_lexical {program : Block} {steps : Nat} {traced : Traced}
    (hTraced : interpreter.traced program store steps = traced) {sought : Sought} {scope : ScopeId}
    (hSeeks : traced.state.seeks? = some (sought, scope)) :
    (∀ moment, (interpreter.traced program store moment).state =
      after moment (interpreter.start program store 0)) ∧
    ∃ site before stmt others, traced.sites[scope]? = some site ∧
      (layerAt program site).body = before ++ stmt :: others ∧ sought ∈ stmt.uses ∧
      (∀ owner binding, binding.sought = sought → traced.state.store.Resolves scope owner binding →
        (∃ outer earlier, outer <:+ site ∧ traced.sites[owner]? = some outer ∧ earlier < steps ∧
          Makes program outer owner (interpreter.traced program store earlier).state binding) ∨
        (owner = 0 ∧ ∃ entry ∈ registered interpreter.builtins.entries names,
          binding = .function entry.1 (.builtin entry.2))) ∧
      ((∀ outer, outer <:+ site → ¬ (layerAt program outer).Declares sought) →
        (∀ entry ∈ registered interpreter.builtins.entries names, sought ≠ .function entry.1) →
        (step traced.state).control.failure? = some (traced.state.calls.failure sought.fault) ∧
        ∃ more final, Machine.run more traced.state = some final ∧
          final.result? = some (.error (traced.state.calls.failure sought.fault))) := by
  refine ⟨interpreter.state_traced program store, ?_⟩
  have hWork := disciplined_traced hSeeded program steps
  have hSited := sited_traced hSeeded program steps
  rw [hTraced] at hWork hSited
  obtain ⟨site, before, stmt, others, hSite, hBody, hUses⟩ := hSited.stands_of_seeks hWork hSeeks
  have hOrigin (owner : ScopeId) (binding : Binding)
      (hResolves : traced.state.store.Resolves scope owner binding) :
      (∃ outer earlier, outer <:+ site ∧ traced.sites[owner]? = some outer ∧ earlier < steps ∧
        Makes program outer owner (interpreter.traced program store earlier).state binding) ∨
      (owner = 0 ∧ ∃ entry ∈ registered interpreter.builtins.entries names,
        binding = .function entry.1 (.builtin entry.2)) := by
    obtain ⟨hFinds, hBinds⟩ := hWork.store.finds_of_resolves hResolves
    obtain ⟨outer, hOuter, hEncloses⟩ := hSited.suffix_of_finds hFinds hSite
    rw [← hTraced] at hBinds
    rcases made_before hSeeded hBinds with hBuiltin | ⟨found, earlier, hFound, hEarlier, hMakes⟩
    · exact Or.inr hBuiltin
    · rw [hTraced, hOuter] at hFound
      cases hFound
      exact Or.inl ⟨outer, earlier, hEncloses, hOuter, hEarlier, hMakes⟩
  refine ⟨site, before, stmt, others, hSite, hBody, hUses, fun owner binding _ => hOrigin owner binding,
    fun hUndeclared hNoBuiltin => ?_⟩
  have hNone : traced.state.store.nearest? sought.boundIn scope = none := by
    rw [Option.eq_none_iff_forall_ne_some]
    intro owner hOwner
    obtain ⟨binding, rfl, hResolves⟩ := hWork.store.exists_resolves hOwner
    rcases hOrigin owner binding hResolves with
      ⟨outer, _, hEncloses, -, -, hMakes⟩ | ⟨-, entry, hEntry, rfl⟩
    · exact hUndeclared outer hEncloses hMakes.introduces.declares
    · exact hNoBuiltin entry hEntry rfl
  have hFails := fails_of_unbound hSeeks hNone
  obtain ⟨more, final, hRun, hResult⟩ := exists_run_of_failure hFails
  exact ⟨hFails, more + 1, final, run_of_step hRun, hResult⟩

end

/-- `fun f() { return y }`, `fun g() { var y = 1  f() }`, `g()`: only the caller of `f` declares what
`f` reads. -/
def readsFromCaller : Block :=
  [.function ⟨8⟩ [] [.yield (.reference ⟨10⟩)],
    .function ⟨9⟩ [] [.declare ⟨10⟩ (.literal 1), .evaluate (.call ⟨8⟩ [])],
    .evaluate (.call ⟨9⟩ [])]

/-- Its run where `f`, in scope 4, reads the variable that `g` has declared in scope 2. -/
def readingFromCaller : Traced :=
  (new Builtins.none none).traced readsFromCaller (Store.empty.root).2 15

/-- What the caller has declared is not found. -/
theorem lookup_lexical_readsFromCaller :
    readingFromCaller.state.seeks? = some (.integer ⟨10⟩, 4) ∧
    readingFromCaller.state.store.Binds 2 (.integer ⟨10⟩) ∧
    ∃ more final, Machine.run more readingFromCaller.state = some final ∧
      final.result? = some (.error (readingFromCaller.state.calls.failure (.undefinedVariable ⟨10⟩))) := by
  have hSeeded : declareBuiltins (Store.empty.root).2 0 (new Builtins.none none).builtins.entries
      Interner.initial = ((.ok (), (Store.empty.root).2), Interner.initial) := rfl
  have hRun : (new Builtins.none none).traced readsFromCaller (Store.empty.root).2 15 =
      readingFromCaller := rfl
  have hSeeks : readingFromCaller.state.seeks? = some (.integer ⟨10⟩, 4) := by decide +kernel
  have hSites : readingFromCaller.sites[4]? = some [⟨0, .body⟩] := by decide +kernel
  have hCaller : (readingFromCaller.state.store.scope? 2).any (fun scope => scope.integers.has ⟨10⟩) := by
    decide +kernel
  obtain ⟨-, site, _, _, _, hSite, -, -, -, hFails⟩ := lookup_lexical hSeeded hRun hSeeks
  rw [hSites] at hSite
  cases hSite
  refine ⟨hSeeks, (Option.any_eq_true _ _).mp hCaller, (hFails ?_ ?_).2⟩
  · intro outer hOuter
    rcases List.suffix_cons_iff.mp hOuter with rfl | hProgram
    · simp [layerAt, Stmt.layer, readsFromCaller, Layer.Declares]
    · rw [List.suffix_nil.mp hProgram]
      simp [layerAt, readsFromCaller, Layer.Declares]
  · intro entry hEntry
    cases hEntry

end Interpreter

end IntScript
