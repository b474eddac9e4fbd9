import IntScript.Scope

/-!
The store of scopes.

An operation that may fail gives back its answer and the store, which a failure leaves as it was.

Scopes lie in the order of their creation, and a parent is always older than its children, so the
way outward from a scope ends. A scope that nothing keeps alive any more is removed; its place stays
empty, so that a number never comes to mean another scope.
-/

namespace IntScript

/-- All scopes ever made, in order; `none` stands for one that is gone. -/
structure Store where
  slots : Array (Option Scope)

namespace Store

def empty : Store := ⟨#[]⟩

def scope? (store : Store) (id : ScopeId) : Option Scope :=
  store.slots[id]?.join

def isLive (store : Store) (id : ScopeId) : Bool :=
  (store.scope? id).isSome

def isHeld (store : Store) (id : ScopeId) : Bool :=
  (store.scope? id).any (fun scope => 0 < scope.handles)

def modify (store : Store) (id : ScopeId) (f : Scope → Scope) : Store :=
  ⟨store.slots.modify id (Option.map f)⟩

def root (store : Store) : ScopeId × Store :=
  (store.slots.size, ⟨store.slots.push (some (Scope.fresh none))⟩)

def child (store : Store) (parent : ScopeId) : ScopeId × Store :=
  let counted := store.modify parent (fun scope => { scope with children := scope.children + 1 })
  (counted.slots.size, ⟨counted.slots.push (some (Scope.fresh (some parent)))⟩)

/-- Remove a scope if nothing keeps it alive, and then see to its parent, which has lost a child. -/
def collect (store : Store) (id : ScopeId) : Store :=
  match store.scope? id with
  | none => store
  | some scope =>
      if scope.isOwned then
        store
      else
        let removed : Store := ⟨store.slots.modify id (fun _ => none)⟩
        match scope.parent with
        | none => removed
        | some parent =>
            if parent < id then
              (removed.modify parent (fun scope =>
                { scope with children := scope.children - 1 })).collect parent
            else
              removed
termination_by id

def release (store : Store) (id : ScopeId) : Store :=
  (store.modify id (fun scope => { scope with handles := scope.handles - 1 })).collect id

/-- The innermost scope from `id` outward that fulfils `found`. The way goes on only to older scopes,
and parents are older. -/
def nearest? (store : Store) (found : Scope → Bool) (id : ScopeId) : Option ScopeId :=
  match store.scope? id with
  | none => none
  | some scope =>
      if found scope then
        some id
      else
        match scope.parent with
        | none => none
        | some parent => if parent < id then store.nearest? found parent else none
termination_by id

/-- Declare a variable in a scope. Scopes around it are not asked. -/
def declareVariable (store : Store) (id : ScopeId) (name : Name) (value : Int32) :
    Except ScopeError Unit × Store :=
  if (store.scope? id).any (fun scope => scope.integers.has name) then
    (.error (.duplicateVariable name), store)
  else
    (.ok (), store.modify id (fun scope =>
      { scope with integers := (name, value) :: scope.integers }))

/-- Declare a function in a scope. Scopes around it are not asked. -/
def declareFunction (store : Store) (id : ScopeId) (name : Name) (callable : Callable) :
    Except ScopeError Unit × Store :=
  if (store.scope? id).any (fun scope => scope.functions.has name) then
    (.error (.duplicateFunction name), store)
  else
    (.ok (), store.modify id (fun scope =>
      { scope with functions := (name, callable) :: scope.functions }))

/-- Change the variable of the innermost scope that declares it. -/
def setVariable (store : Store) (id : ScopeId) (name : Name) (value : Int32) :
    Except ScopeError Unit × Store :=
  match store.nearest? (fun scope => scope.integers.has name) id with
  | none => (.error (.undefinedVariable name), store)
  | some owner =>
      (.ok (), store.modify owner (fun scope =>
        { scope with integers := scope.integers.put name value }))

/-- The value of the variable in the innermost scope that declares it. -/
def getVariable (store : Store) (id : ScopeId) (name : Name) : Except ScopeError Int32 :=
  match (store.nearest? (fun scope => scope.integers.has name) id).bind store.scope? |>.bind
      (fun scope => scope.integers.get? name) with
  | none => .error (.undefinedVariable name)
  | some value => .ok value

/-- The function in the innermost scope that declares it. -/
def getFunction (store : Store) (id : ScopeId) (name : Name) : Except ScopeError Callable :=
  match (store.nearest? (fun scope => scope.functions.has name) id).bind store.scope? |>.bind
      (fun scope => scope.functions.get? name) with
  | none => .error (.undefinedFunction name)
  | some callable => .ok callable

end Store

end IntScript
