import IntScript.Proofs.Machine.Declarations
import IntScript.Proofs.Nesting

/-! Which block of the program every scope belongs to. A run is followed together with the sites of the
scopes it makes: each new scope gets the site of the block it is made for. The scope made for arguments
belongs to the block with the call. Every piece of pending work is then found in the block that its
scope belongs to, and the parent of a scope belongs to an enclosing block. -/
namespace IntScript

/-- The function is declared in the block that its home belongs to. -/
def Callable.Stands (program : Block) (sites : List Site) : Callable → Prop
  | builtin _ => True
  | user function home => ∃ site, sites[home]? = some site ∧
      .function function.name function.parameters function.body ∈ (layerAt program site).body

namespace Machine

def AfterBlock.others : AfterBlock → Block
  | .sequence others _ _ => others
  | _ => []

def siteOf (sites : List Site) (scope : ScopeId) : Site :=
  sites[scope]?.getD []

def Control.destination (program : Block) (sites : List Site) : Control → Site
  | .evaluate _ scope _ => siteOf sites scope
  | .apply (.user function home) _ _ _ _ =>
      -- A second statement like it in the same scope fails, so the first one is meant.
      let fresh := .function function.name function.parameters function.body
      ⟨(layerAt program (siteOf sites home)).body.idxOf fresh, .body⟩ :: siteOf sites home
  | .value (.ok chosen) (.branch _ _ scope next) =>
      inside program (siteOf sites scope) next.others (if chosen ≠ 0 then .positive else .negative)
  | .value _ (.test _ _ scope next) => inside program (siteOf sites scope) next.others .body
  | _ => []

/-- A state together with the sites of all scopes made so far. -/
structure Traced where
  state : State
  sites : List Site

/-- A step of the machine. If it makes a scope, the site of that scope is noted. -/
def Traced.step (program : Block) (traced : Traced) : Traced :=
  let later := Machine.step traced.state
  { state := later
    sites :=
      if later.store.slots.size = traced.state.store.slots.size then traced.sites
      else traced.sites ++ [traced.state.control.destination program traced.sites] }

section

variable (program : Block) (sites : List Site)

/-- The statements are the last ones of the block that the scope belongs to. -/
def Remain (block : Block) (scope : ScopeId) : Prop :=
  ∃ site before, sites[scope]? = some site ∧ (layerAt program site).body = before ++ block

/-- What is pending comes right after the statement. -/
def AfterBlock.Follows (stmt : Stmt) : AfterBlock → Prop
  | .sequence others scope _ => Remain program sites (stmt :: others) scope
  | _ => False

mutual

/-- The value is awaited by the rest of the statement. -/
def AfterValue.Continues : AfterValue → Stmt → Prop
  | .rightOperand _ right _ next, stmt => right.uses ⊆ stmt.uses ∧ next.Continues stmt
  | .operator _ _ next, stmt => next.Continues stmt
  | .argument callee _ pending inner next, stmt =>
      callee.Stands program sites ∧ Expr.argumentUses pending ⊆ stmt.uses ∧
        (∃ site, sites[inner]? = some site ∧ sites[next.current]? = some site) ∧ next.Continues stmt
  | .declare name _ next, stmt =>
      (∃ value, stmt = .declare name value) ∧ next.Follows program sites stmt ∧ next.Lexical
  | .assign name _ next, stmt =>
      (∃ value, stmt = .assign name value) ∧ next.Follows program sites stmt ∧ next.Lexical
  | .yield next, stmt =>
      (∃ value, stmt = .yield value) ∧ next.Follows program sites stmt ∧ next.Lexical
  | .discard next, stmt =>
      (∃ value, stmt = .evaluate value) ∧ next.Follows program sites stmt ∧ next.Lexical
  | .branch positive negative _ next, stmt =>
      (∃ condition, stmt = .branch condition positive negative) ∧ next.Follows program sites stmt ∧
        next.Lexical
  | .test condition body _ next, stmt =>
      stmt = .loop condition body ∧ next.Follows program sites stmt ∧ next.Lexical

/-- Pending work stands in the blocks that its scopes belong to. -/
def AfterBlock.Lexical : AfterBlock → Prop
  | .halt => True
  | .sequence others scope next => Remain program sites others scope ∧ next.Lexical
  | .leave _ next => next.Lexical
  | .again condition body _ next => next.Follows program sites (.loop condition body) ∧ next.Lexical
  | .finish _ next => ∃ stmt, next.Continues stmt

end

def Control.Lexical : Control → Prop
  | evaluate expr _ next => ∃ stmt, expr.uses ⊆ stmt.uses ∧ next.Continues program sites stmt
  | apply callee known pending inner next =>
      ∃ stmt, (AfterValue.argument callee known pending inner next).Continues program sites stmt
  | value _ next => ∃ stmt, next.Continues program sites stmt
  | execute block scope next => Remain program sites block scope ∧ next.Lexical program sites
  | completed _ next => next.Lexical program sites

end

/-- Every scope has its site, a parent encloses its children, and functions are declared in the block
that their home belongs to. -/
structure Traced.Sited (program : Block) (traced : Traced) : Prop where
  control : traced.state.control.Lexical program traced.sites
  size : traced.sites.length = traced.state.store.slots.size
  parent : ∀ {id parent : ScopeId} {scope : Scope}, traced.state.store.scope? id = some scope →
    scope.parent = some parent →
      ∃ inner outer, traced.sites[id]? = some inner ∧ traced.sites[parent]? = some outer ∧ outer <:+ inner
  function : ∀ {id : ScopeId} {name : Name} {callable : Callable},
    traced.state.store.Binds id (.function name callable) → callable.Stands program traced.sites

section

variable {program : Block} {sites later : List Site}

theorem site_of_prefix (hPrefix : sites <+: later) {id : ScopeId} {site : Site}
    (h : sites[id]? = some site) : later[id]? = some site := by
  obtain ⟨more, rfl⟩ := hPrefix
  rw [List.getElem?_append_left (List.getElem?_eq_some_iff.mp h).1, h]

/-- Scopes made since then do not matter. -/
theorem Remain.mono {block : Block} {scope : ScopeId} (h : Remain program sites block scope)
    (hPrefix : sites <+: later) : Remain program later block scope := by
  obtain ⟨site, before, hSite, hBody⟩ := h
  exact ⟨site, before, site_of_prefix hPrefix hSite, hBody⟩

theorem Remain.tail {stmt : Stmt} {others : Block} {scope : ScopeId}
    (h : Remain program sites (stmt :: others) scope) : Remain program sites others scope := by
  obtain ⟨site, before, hSite, hBody⟩ := h
  exact ⟨site, before ++ [stmt], hSite, by simp [hBody]⟩

theorem Callable.stands_mono {callable : Callable} (h : callable.Stands program sites)
    (hPrefix : sites <+: later) : callable.Stands program later := by
  cases callable with
  | builtin builtin => trivial
  | user function home =>
      obtain ⟨site, hSite, hBody⟩ := h
      exact ⟨site, site_of_prefix hPrefix hSite, hBody⟩

theorem AfterBlock.Follows.mono {stmt : Stmt} {next : AfterBlock}
    (h : next.Follows program sites stmt) (hPrefix : sites <+: later) :
    next.Follows program later stmt := by
  cases next with
  | sequence others scope next => exact Remain.mono h hPrefix
  | halt | leave scope next | again condition body scope next | finish activation next => exact h.elim

mutual

/-- Pending work is about scopes that were there before. -/
theorem AfterValue.continues_mono (hPrefix : sites <+: later) (next : AfterValue) (stmt : Stmt) :
    next.Continues program sites stmt → next.Continues program later stmt := by
  match next with
  | .rightOperand _ _ _ next =>
      intro h
      exact ⟨h.1, next.continues_mono hPrefix stmt h.2⟩
  | .operator _ _ next =>
      intro h
      exact next.continues_mono hPrefix stmt h
  | .argument _ _ _ _ next =>
      rintro ⟨hCallee, hPending, ⟨site, hInner, hCurrent⟩, hNext⟩
      exact ⟨Callable.stands_mono hCallee hPrefix, hPending,
        ⟨site, site_of_prefix hPrefix hInner, site_of_prefix hPrefix hCurrent⟩,
        next.continues_mono hPrefix stmt hNext⟩
  | .declare _ _ next | .assign _ _ next | .yield next | .discard next | .branch _ _ _ next
  | .test _ _ _ next =>
      intro h
      exact ⟨h.1, h.2.1.mono hPrefix, next.lexical_mono hPrefix h.2.2⟩

theorem AfterBlock.lexical_mono (hPrefix : sites <+: later) (next : AfterBlock) :
    next.Lexical program sites → next.Lexical program later := by
  match next with
  | .halt => exact id
  | .sequence _ _ next =>
      intro h
      exact ⟨h.1.mono hPrefix, next.lexical_mono hPrefix h.2⟩
  | .leave _ next =>
      intro h
      exact next.lexical_mono hPrefix h
  | .again _ _ _ next =>
      intro h
      exact ⟨h.1.mono hPrefix, next.lexical_mono hPrefix h.2⟩
  | .finish _ next =>
      rintro ⟨stmt, hNext⟩
      exact ⟨stmt, next.continues_mono hPrefix stmt hNext⟩

end

theorem siteOf_of_getElem? {scope : ScopeId} {site : Site} (h : sites[scope]? = some site) :
    siteOf sites scope = site := by
  rw [siteOf, h, Option.getD_some]

theorem getElem?_of_lt {scope : ScopeId} (h : scope < sites.length) :
    sites[scope]? = some (siteOf sites scope) := by
  rw [siteOf, List.getElem?_eq_getElem h, Option.getD_some]

/-- A statement and what follows it are the end of the block that is being executed. -/
theorem AfterBlock.Follows.remain {stmt : Stmt} {next : AfterBlock}
    (h : next.Follows program sites stmt) (hNext : next.Disciplined) :
    Remain program sites (stmt :: next.others) next.current := by
  cases next with
  | sequence others scope next =>
      have hCurrent : (AfterBlock.sequence others scope next).current = scope := hNext.1.symm
      rw [hCurrent]
      exact h
  | halt | leave scope next | again condition body scope next | finish activation next => exact h.elim

/-- The blocks of a statement under way stand where a scope for them would be placed. -/
theorem AfterBlock.Follows.layerAt_inside {stmt : Stmt} {next : AfterBlock}
    (h : next.Follows program sites stmt) (hNext : next.Disciplined) (part : Part) :
    layerAt program (inside program (siteOf sites next.current) next.others part) =
      stmt.layer part := by
  obtain ⟨site, before, hSite, hBody⟩ := h.remain hNext
  rw [siteOf_of_getElem? hSite]
  exact IntScript.layerAt_inside hBody part

/-- The statement that waits for a value stands in the block that the current scope belongs to. -/
theorem AfterValue.continues_remain (next : AfterValue) (stmt : Stmt) :
    next.Disciplined → next.Continues program sites stmt →
      ∃ others, Remain program sites (stmt :: others) next.current := by
  match next with
  | .rightOperand _ _ _ next =>
      intro hWork h
      exact next.continues_remain stmt hWork.2 h.2
  | .operator _ _ next =>
      intro hWork h
      exact next.continues_remain stmt hWork h
  | .argument _ _ _ inner next =>
      -- The scope made for arguments has the site of the scope with the call.
      rintro hWork ⟨-, -, ⟨site, hInner, hCurrent⟩, hNext⟩
      obtain ⟨others, found, before, hFound, hBody⟩ := next.continues_remain stmt hWork.2 hNext
      rw [hCurrent] at hFound
      cases hFound
      exact ⟨others, site, before, hInner, hBody⟩
  | .declare _ _ next | .assign _ _ next | .branch _ _ _ next | .test _ _ _ next =>
      intro hWork h
      exact ⟨next.others, h.2.1.remain hWork.2⟩
  | .yield next | .discard next =>
      intro hWork h
      exact ⟨next.others, h.2.1.remain hWork⟩

section

variable {store : Store} {calls : CallStack} {history : History}

/-- Functions that are found are declared in the block that their home belongs to. -/
theorem stands_of_getFunction {control : Control}
    (h : Traced.Sited program ⟨⟨control, store, calls, history⟩, sites⟩) {held : List ScopeId}
    (hStore : store.Holds held) {scope : ScopeId} {name : Name} {callable : Callable}
    (hFound : store.getFunction scope name = .ok callable) : callable.Stands program sites := by
  obtain ⟨owner, inner, -, hScope, hEntry⟩ := hStore.older.entry_of_getFunction hFound
  have hBinds : store.Binds owner (.function name callable) := ⟨inner, hScope, hEntry⟩
  exact h.function hBinds

/-- The new scope belongs to the block that is entered, and so does all that is executed in it. -/
theorem lexical_enter {block : Block} {scope : ScopeId} {next : AfterBlock} {site : Site}
    (hNew : later[store.slots.size]? = some site) (hBlock : (layerAt program site).body = block)
    (hNext : next.Lexical program later) :
    (enter block scope next store calls history).control.Lexical program later := by
  refine ⟨⟨site, [], ?_, hBlock⟩, hNext⟩
  show later[(store.child scope).1]? = some site
  rw [Store.child_fst]
  exact hNew

/-- Arguments are evaluated in a scope of their own, which belongs to the same block as the one
around it. -/
theorem lexical_evaluate {expr : Expr} {scope : ScopeId} {next : AfterValue}
    (hWork : State.Disciplined ⟨.evaluate expr scope next, store, calls, history⟩)
    (h : Traced.Sited program ⟨⟨.evaluate expr scope next, store, calls, history⟩, sites⟩)
    (hPrefix : sites <+: later)
    (hNew : (evaluate expr scope next store calls history).store.slots.size ≠ store.slots.size →
      later[store.slots.size]? = some (siteOf sites scope)) :
    (evaluate expr scope next store calls history).control.Lexical program later := by
  obtain ⟨⟨rfl, -⟩, hStore⟩ := hWork
  obtain ⟨stmt, hUses, hNext⟩ := h.control
  have hLater := next.continues_mono hPrefix stmt hNext
  cases expr with
  | literal value => exact ⟨stmt, hLater⟩
  | reference name =>
      rw [evaluate]
      split <;> exact ⟨stmt, hLater⟩
  | call callee arguments =>
      rw [evaluate] at hNew ⊢
      split
      next callable hFound =>
        simp only [hFound, Store.size_child] at hNew
        have hCurrent : next.current < sites.length := by
          rw [h.size]
          exact hStore.lt_size next.current_mem_held
        refine ⟨stmt, Callable.stands_mono (stands_of_getFunction h hStore hFound) hPrefix, ?_,
          ⟨siteOf sites next.current, ?_, site_of_prefix hPrefix (getElem?_of_lt hCurrent)⟩, hLater⟩
        · exact fun sought hSought => hUses (List.mem_cons_of_mem _ hSought)
        · rw [Store.child_fst]
          exact hNew (Nat.succ_ne_self _)
      next => exact ⟨stmt, hLater⟩
  | binary op left right =>
      refine ⟨stmt, ?_, ?_, hLater⟩
      · exact fun sought hSought => hUses (List.mem_append_left _ hSought)
      · exact fun sought hSought => hUses (List.mem_append_right _ hSought)

/-- A body runs in a scope that belongs to the body, inside the block in which the function was
declared. -/
theorem lexical_call {callee : Callable} {known : List Int32} {inner : ScopeId} {next : AfterValue}
    (h : Traced.Sited program ⟨⟨.apply callee known [] inner next, store, calls, history⟩, sites⟩)
    (hPrefix : sites <+: later)
    (hNew : (call callee known.reverse next (store.release inner) calls history).store.slots.size ≠
        store.slots.size →
      later[store.slots.size]? = some ((Control.apply callee known [] inner next).destination
        program sites)) :
    (call callee known.reverse next (store.release inner) calls history).control.Lexical
      program later := by
  obtain ⟨stmt, hCallee, -, -, hNext⟩ := h.control
  have hLater := next.continues_mono hPrefix stmt hNext
  cases callee with
  | builtin builtin => exact ⟨stmt, hLater⟩
  | user function home =>
      obtain ⟨site, hSite, hBody⟩ := hCallee
      rw [call] at hNew ⊢
      split
      next => exact ⟨stmt, hLater⟩
      next hArity =>
        rw [if_neg hArity] at hNew
        split
        next => exact ⟨stmt, hLater⟩
        next hLive =>
          rw [if_neg hLive] at hNew
          split
          next => exact ⟨stmt, hLater⟩
          next calls hCalls =>
            have hSize := (changes_bindParameters ((store.release inner).child home).2
              store.slots.size function.parameters known.reverse).size
            simp only [hCalls, Store.child_fst, Store.size_release] at hNew ⊢
            split
            next => exact ⟨stmt, hLater⟩
            next bound hBound =>
              simp only [hBound] at hNew hSize
              rw [hSize, Store.size_child, Store.size_release, Control.destination,
                siteOf_of_getElem? hSite] at hNew
              refine ⟨⟨_, [], hNew (Nat.succ_ne_self _), ?_⟩, stmt, hLater⟩
              rw [layerAt, getElem?_idxOf_of_mem hBody]
              rfl

/-- The parts of a statement stand in the block that the statement stands in. -/
theorem lexical_execute {stmt : Stmt} {scope : ScopeId} {next : AfterBlock}
    (hFollows : next.Follows program sites stmt) (hNext : next.Lexical program sites) :
    (execute stmt scope next store calls history).control.Lexical program sites := by
  cases stmt with
  | function name parameters body =>
      rw [execute]
      split <;> exact hNext
  | declare name value | yield value | evaluate value =>
      exact ⟨_, List.Subset.refl _, ⟨value, rfl⟩, hFollows, hNext⟩
  | assign name value => exact ⟨_, List.subset_cons_self _ _, ⟨value, rfl⟩, hFollows, hNext⟩
  | loop condition body => exact ⟨_, List.Subset.refl _, rfl, hFollows, hNext⟩
  | branch condition positive negative =>
      exact ⟨_, List.Subset.refl _, ⟨condition, rfl⟩, hFollows, hNext⟩

/-- Blocks of a conditional or a loop are entered here, once the condition has its value. -/
theorem lexical_deliver {value : Int32} {next : AfterValue} (hWork : next.Disciplined)
    (hNext : ∃ stmt, next.Continues program sites stmt) (hPrefix : sites <+: later)
    (hNew : (deliver value next store calls history).store.slots.size ≠ store.slots.size →
      later[store.slots.size]? =
        some ((Control.value (.ok value) next).destination program sites)) :
    (deliver value next store calls history).control.Lexical program later := by
  obtain ⟨stmt, h⟩ := hNext
  have hLater := next.continues_mono hPrefix stmt h
  cases next with
  | rightOperand op right scope next => exact ⟨stmt, hLater⟩
  | operator op left next =>
      rw [deliver]
      split <;> exact ⟨stmt, hLater⟩
  | argument callee known pending inner next => exact ⟨stmt, hLater⟩
  | declare name scope next | assign name scope next =>
      rw [deliver]
      split <;> exact hLater.2.2
  | yield next | discard next => exact hLater.2.2
  | branch positive negative scope next =>
      obtain ⟨rfl, hDisciplined⟩ := hWork
      obtain ⟨⟨condition, rfl⟩, hFollows, -⟩ := h
      have hGrown : (enter (if value ≠ 0 then positive else negative) next.current next store calls
          history).store.slots.size ≠ store.slots.size := by
        rw [enter, Store.size_child]
        exact Nat.succ_ne_self _
      refine lexical_enter (hNew hGrown) ?_ hLater.2.2
      rw [Control.destination, hFollows.layerAt_inside hDisciplined]
      split <;> rfl
  | test condition body scope next =>
      obtain ⟨rfl, hDisciplined⟩ := hWork
      obtain ⟨rfl, hFollows, -⟩ := h
      rw [deliver] at hNew ⊢
      split
      next hTrue =>
        rw [if_pos hTrue, enter, Store.size_child] at hNew
        refine lexical_enter (hNew (Nat.succ_ne_self _)) ?_ hLater.2
        rw [Control.destination, hFollows.layerAt_inside hDisciplined]
        rfl
      next => exact hLater.2.2

/-- A failure leads to no other place in the program. -/
theorem lexical_abandon {failure : Failure Name} {next : AfterValue} {stmt : Stmt}
    (h : next.Continues program sites stmt) :
    (abandon failure next store calls history).control.Lexical program sites := by
  cases next with
  | rightOperand op right scope next => exact ⟨stmt, h.2⟩
  | operator op left next => exact ⟨stmt, h⟩
  | argument callee known pending inner next => exact ⟨stmt, h.2.2.2⟩
  | declare name scope next | assign name scope next | yield next | discard next
  | branch positive negative scope next | test condition body scope next => exact h.2.2

/-- A loop goes back to its own condition, and all else goes on behind the block that is done. -/
theorem lexical_resume {result : Result Completion} {next : AfterBlock}
    (h : next.Lexical program sites) :
    (resume result next store calls history).control.Lexical program sites := by
  cases next with
  | halt => exact h
  | sequence others scope next =>
      rcases result with failure | _ | value
      · exact h.2
      · exact h
      · exact h.2
  | leave scope next => exact h
  | again condition body scope next =>
      rcases result with failure | _ | value
      · exact h.2
      · exact ⟨_, List.Subset.refl _, rfl, h⟩
      · exact h.2
  | finish activation next => exact h

end

/-- Sites that were noted stay. -/
theorem Traced.prefix_step (traced : Traced) (program : Block) : traced.sites <+: (traced.step program).sites := by
  rw [Traced.step]
  split
  next => exact List.prefix_refl _
  next => exact List.prefix_append _ _

/-- The site of a scope that a step makes is noted under the number of the scope. -/
theorem Traced.Sited.site_of_new {traced : Traced} (h : traced.Sited program)
    (hGrown : (Machine.step traced.state).store.slots.size ≠ traced.state.store.slots.size) :
    (traced.step program).sites[traced.state.store.slots.size]? =
      some (traced.state.control.destination program traced.sites) := by
  rw [Traced.step]
  simp only
  rw [if_neg hGrown, ← h.size, List.getElem?_concat_length]

/-- After a step the work stands in the blocks that its scopes belong to. -/
theorem Traced.Sited.lexical_step {traced : Traced} (h : traced.Sited program)
    (hWork : traced.state.Disciplined) :
    (Machine.step traced.state).control.Lexical program (traced.step program).sites := by
  have hNew := h.site_of_new
  have hPrefix := traced.prefix_step program
  obtain ⟨⟨control, store, calls, history⟩, sites⟩ := traced
  have hControl := h.control
  cases control with
  | evaluate expr scope next => exact lexical_evaluate hWork h hPrefix hNew
  | apply callee known pending inner next =>
      cases pending with
      | nil => exact lexical_call h hPrefix hNew
      | cons argument pending =>
          obtain ⟨stmt, hNext⟩ := hControl
          obtain ⟨hCallee, hPending, hSites, hNext⟩ :=
            AfterValue.continues_mono hPrefix (.argument callee known (argument :: pending) inner next)
              stmt hNext
          rw [Expr.argumentUses, List.append_subset] at hPending
          exact ⟨stmt, hPending.1, hCallee, hPending.2, hSites, hNext⟩
  | value result next =>
      obtain ⟨stmt, hNext⟩ := hControl
      cases result with
      | ok value => exact lexical_deliver hWork.control ⟨stmt, hNext⟩ hPrefix hNew
      | error failure => exact lexical_abandon (next.continues_mono hPrefix stmt hNext)
  | execute block scope next =>
      have hRemain := hControl.1.mono hPrefix
      have hNext := next.lexical_mono hPrefix hControl.2
      cases block with
      | nil => exact hNext
      | cons stmt others => exact lexical_execute hRemain ⟨hRemain.tail, hNext⟩
  | completed result next => exact lexical_resume (next.lexical_mono hPrefix hControl)

/-- The site of a new scope is inside the site of its parent. -/
theorem siteOf_suffix_destination {control : Control} {parent : ScopeId}
    (h : control.opensIn = some parent) :
    siteOf sites parent <:+ control.destination program sites := by
  cases control with
  | evaluate expr scope next =>
      cases expr with
      | call callee arguments =>
          cases h
          exact List.suffix_refl _
      | literal value | reference name | binary op left right => cases h
  | apply callee known pending inner next =>
      cases callee with
      | builtin builtin => cases h
      | user function home =>
          cases pending with
          | nil =>
              cases h
              exact List.suffix_cons _ _
          | cons argument pending => cases h
  | value result next =>
      cases result with
      | error failure => cases h
      | ok value =>
          cases next with
          | branch positive negative scope next | test condition body scope next =>
              cases h
              exact List.suffix_cons _ _
          | rightOperand op right scope next | operator op left next
          | argument callee known pending inner next | declare name scope next
          | assign name scope next | yield next | discard next => cases h
  | execute block scope next | completed result next => cases h

/-- Every step keeps the sites of the scopes in order. -/
theorem Traced.Sited.step {traced : Traced} (h : traced.Sited program)
    (hWork : traced.state.Disciplined) : (traced.step program).Sited program := by
  have hPrefix := traced.prefix_step program
  have hOld {id parent : ScopeId} {old : Scope} (hOld : traced.state.store.scope? id = some old)
      (hParent : old.parent = some parent) : ∃ inner outer,
        (traced.step program).sites[id]? = some inner ∧
        (traced.step program).sites[parent]? = some outer ∧ outer <:+ inner := by
    obtain ⟨inner, outer, hInner, hOuter, hSuffix⟩ := h.parent hOld hParent
    exact ⟨inner, outer, site_of_prefix hPrefix hInner, site_of_prefix hPrefix hOuter, hSuffix⟩
  exact {
    control := h.lexical_step hWork
    size := by
      rw [Traced.step]
      simp only
      split
      next hSame => rw [hSame, h.size]
      next hGrown =>
        rw [List.length_append, h.size]
        rcases hWork.evolves with hChanges | ⟨parent, -, hOpens⟩
        · exact absurd hChanges.size hGrown
        · exact hOpens.size.symm
    parent := fun {id parent scope} hScope hParent => by
      rcases hWork.evolves with hChanges | ⟨opener, hOpener, hOpens⟩
      · obtain ⟨old, hFound, hSame⟩ := hChanges.parent hScope
        exact hOld hFound (hSame.trans hParent)
      · rcases hOpens.parent hScope with ⟨rfl, hNew⟩ | ⟨old, hFound, hSame⟩
        · rw [hNew] at hParent
          cases hParent
          have hOlder := (hWork.step.store.parent hScope hNew).1
          have hGrown : (Machine.step traced.state).store.slots.size ≠ traced.state.store.slots.size := by
            rw [hOpens.size]
            exact Nat.succ_ne_self _
          exact ⟨_, _, h.site_of_new hGrown,
            site_of_prefix hPrefix (getElem?_of_lt (h.size ▸ hOlder)), siteOf_suffix_destination hOpener⟩
        · exact hOld hFound (hSame.trans hParent)
    function := fun {id name callable} hBinds => by
      rcases hWork.step_binds hBinds with hBefore | hDeclares
      · exact Callable.stands_mono (h.function hBefore) hPrefix
      · obtain ⟨⟨control, store, calls, history⟩, sites⟩ := traced
        have hControl := h.control
        cases hDeclares with
        | function name parameters body others scope next =>
            obtain ⟨site, before, hSite, hBody⟩ := hControl.1
            exact ⟨site, site_of_prefix hPrefix hSite, by simp [hBody]⟩ }

end

end Machine

end IntScript
