import IntScript.Interpreter

/-!
The natural semantics of programs: what a program comes to, by the structure of the program alone.

Scopes are frames that are never given up, so nothing is said here about when a scope ends; a look-up
follows the parents of a frame. The relations derive an outcome, a result or a fault, together with the
world after it. What never ends has no outcome.
-/

namespace IntScript.Semantics

abbrev Outcome (α : Type) := Except (Fault Name) α

/-- A scope as a program sees it. -/
structure Frame where
  integers : Name → Option Int32
  functions : Name → Option Callable
  parent : Option ScopeId

namespace Frame

def fresh (parent : Option ScopeId) : Frame :=
  ⟨fun _ => none, fun _ => none, parent⟩

def bind {α : Type} (table : Name → Option α) (name : Name) (value : α) : Name → Option α :=
  fun other => if other = name then some value else table other

end Frame

/-- Every frame made so far, by number, and the calls of builtins so far. -/
structure World where
  frames : List Frame
  history : History

namespace World

/-- The world before the builtins are known: an empty root. -/
def initial : World :=
  ⟨[Frame.fresh none], []⟩

def next (world : World) : ScopeId :=
  world.frames.length

def child (world : World) (parent : ScopeId) : World :=
  { world with frames := world.frames ++ [Frame.fresh (some parent)] }

def bindVariable (world : World) (id : ScopeId) (name : Name) (value : Int32) : World :=
  { world with frames := world.frames.modify id (fun frame =>
      { frame with integers := Frame.bind frame.integers name value }) }

def bindFunction (world : World) (id : ScopeId) (name : Name) (callable : Callable) : World :=
  { world with frames := world.frames.modify id (fun frame =>
      { frame with functions := Frame.bind frame.functions name callable }) }

def record (world : World) (builtin : Builtin) (arguments : List Int32) : World :=
  { world with history := builtin.record arguments :: world.history }

section

variable {α : Type} (world : World) (table : Frame → Name → Option α)

def Binds (id : ScopeId) (name : Name) (value : α) : Prop :=
  ∃ frame, world.frames[id]? = some frame ∧ table frame name = some value

/-- The innermost frame from `id` outward that binds the name is `owner`. -/
inductive Nearest (name : Name) : ScopeId → ScopeId → Prop where
  | here {id : ScopeId} {frame : Frame} (hFrame : world.frames[id]? = some frame)
      (hBound : table frame name ≠ none) : Nearest name id id
  | outward {id parent owner : ScopeId} {frame : Frame} (hFrame : world.frames[id]? = some frame)
      (hUnbound : table frame name = none) (hParent : frame.parent = some parent)
      (further : Nearest name parent owner) : Nearest name id owner

/-- What the name means in a frame. -/
def Reads (id : ScopeId) (name : Name) (value : α) : Prop :=
  ∃ owner, world.Nearest table name id owner ∧ world.Binds table owner name value

/-- The name means nothing in a frame. -/
def Unbound (id : ScopeId) (name : Name) : Prop :=
  ∀ owner, ¬ world.Nearest table name id owner

end

end World

/-- Bind parameters in a frame, in order. A parameter given twice is a fault. -/
inductive BindsParameters : World → ScopeId → List Name → List Int32 → Outcome Unit → World → Prop where
  | nil (world : World) (id : ScopeId) :
      BindsParameters world id [] [] (.ok ()) world
  | cons {world final : World} {id : ScopeId} {name : Name} {value : Int32} {names : List Name}
      {values : List Int32} {outcome : Outcome Unit}
      (free : ∀ old, ¬ world.Binds Frame.integers id name old)
      (others : BindsParameters (world.bindVariable id name value) id names values outcome final) :
      BindsParameters world id (name :: names) (value :: values) outcome final
  | twice {world : World} {id : ScopeId} {name : Name} {value old : Int32} {names : List Name}
      {values : List Int32} (bound : world.Binds Frame.integers id name old) :
      BindsParameters world id (name :: names) (value :: values) (.error (.duplicateVariable name)) world

mutual

/-- An expression in a frame comes to a value or a fault. -/
inductive Evaluates : World → ScopeId → Expr → Outcome Int32 → World → Prop where
  | literal (world : World) (scope : ScopeId) (value : Int32) :
      Evaluates world scope (.literal value) (.ok value) world
  | reference {world : World} {scope : ScopeId} {name : Name} {value : Int32}
      (reads : world.Reads Frame.integers scope name value) :
      Evaluates world scope (.reference name) (.ok value) world
  | referenceUnbound {world : World} {scope : ScopeId} {name : Name}
      (unbound : world.Unbound Frame.integers scope name) :
      Evaluates world scope (.reference name) (.error (.undefinedVariable name)) world
  /-- The function is looked up first; the arguments are evaluated in a frame of their own. -/
  | call {world middle final : World} {scope : ScopeId} {callee : Name} {callable : Callable}
      {arguments : List Expr} {values : List Int32} {outcome : Outcome Int32}
      (reads : world.Reads Frame.functions scope callee callable)
      (evaluated : EvaluatesAll (world.child scope) world.next arguments (.ok values) middle)
      (invoked : Invokes middle callable values outcome final) :
      Evaluates world scope (.call callee arguments) outcome final
  | callUnbound {world : World} {scope : ScopeId} {callee : Name} {arguments : List Expr}
      (unbound : world.Unbound Frame.functions scope callee) :
      Evaluates world scope (.call callee arguments) (.error (.undefinedFunction callee)) world
  | callArguments {world final : World} {scope : ScopeId} {callee : Name} {callable : Callable}
      {arguments : List Expr} {fault : Fault Name}
      (reads : world.Reads Frame.functions scope callee callable)
      (failed : EvaluatesAll (world.child scope) world.next arguments (.error fault) final) :
      Evaluates world scope (.call callee arguments) (.error fault) final
  | binary {world middle final : World} {scope : ScopeId} {op : BinaryOp} {left right : Expr}
      {first second : Int32} (before : Evaluates world scope left (.ok first) middle)
      (after : Evaluates middle scope right (.ok second) final) :
      Evaluates world scope (.binary op left right) (op.evaluate first second) final
  | binaryLeft {world final : World} {scope : ScopeId} {op : BinaryOp} {left right : Expr}
      {fault : Fault Name} (failed : Evaluates world scope left (.error fault) final) :
      Evaluates world scope (.binary op left right) (.error fault) final
  | binaryRight {world middle final : World} {scope : ScopeId} {op : BinaryOp} {left right : Expr}
      {first : Int32} {fault : Fault Name} (before : Evaluates world scope left (.ok first) middle)
      (failed : Evaluates middle scope right (.error fault) final) :
      Evaluates world scope (.binary op left right) (.error fault) final

/-- Arguments come to their values, from left to right, or to the first fault. -/
inductive EvaluatesAll : World → ScopeId → List Expr → Outcome (List Int32) → World → Prop where
  | nil (world : World) (scope : ScopeId) :
      EvaluatesAll world scope [] (.ok []) world
  | cons {world middle final : World} {scope : ScopeId} {expr : Expr} {others : List Expr}
      {value : Int32} {outcome : Outcome (List Int32)}
      (first : Evaluates world scope expr (.ok value) middle)
      (further : EvaluatesAll middle scope others outcome final) :
      EvaluatesAll world scope (expr :: others) (outcome.map (value :: ·)) final
  | fails {world final : World} {scope : ScopeId} {expr : Expr} {others : List Expr}
      {fault : Fault Name} (failed : Evaluates world scope expr (.error fault) final) :
      EvaluatesAll world scope (expr :: others) (.error fault) final

/-- A call with evaluated arguments. A function of the program runs in a new frame inside the one it
was declared in, and its value is zero if its body returns none. -/
inductive Invokes : World → Callable → List Int32 → Outcome Int32 → World → Prop where
  | builtin (world : World) (builtin : Builtin) (arguments : List Int32) :
      Invokes world (.builtin builtin) arguments (.ok (builtin.answer world.history arguments))
        (world.record builtin arguments)
  | arity {world : World} {function : Function} {home : ScopeId} {arguments : List Int32}
      (mismatch : arguments.length ≠ function.arity) :
      Invokes world (.user function home) arguments
        (.error (.arityMismatch function.name function.arity arguments.length)) world
  | parameters {world final : World} {function : Function} {home : ScopeId} {arguments : List Int32}
      {fault : Fault Name} (matching : arguments.length = function.arity)
      (failed : BindsParameters (world.child home) world.next function.parameters arguments
        (.error fault) final) :
      Invokes world (.user function home) arguments (.error fault) final
  | body {world middle final : World} {function : Function} {home : ScopeId} {arguments : List Int32}
      {outcome : Outcome (Option Int32)} (matching : arguments.length = function.arity)
      (bound : BindsParameters (world.child home) world.next function.parameters arguments (.ok ())
        middle)
      (executed : ExecutesAll middle world.next function.body outcome final) :
      Invokes world (.user function home) arguments (outcome.map (·.getD 0)) final

/-- A statement in a frame comes to its end, to a returned value, or to a fault. -/
inductive Executes : World → ScopeId → Stmt → Outcome (Option Int32) → World → Prop where
  | function {world : World} {scope : ScopeId} {name : Name} {parameters : List Name} {body : Block}
      (free : ∀ old, ¬ world.Binds Frame.functions scope name old) :
      Executes world scope (.function name parameters body) (.ok none)
        (world.bindFunction scope name (.user ⟨name, parameters, body⟩ scope))
  | functionTwice {world : World} {scope : ScopeId} {name : Name} {parameters : List Name}
      {body : Block} {old : Callable} (bound : world.Binds Frame.functions scope name old) :
      Executes world scope (.function name parameters body) (.error (.duplicateFunction name)) world
  | declare {world middle : World} {scope : ScopeId} {name : Name} {expr : Expr} {value : Int32}
      (evaluated : Evaluates world scope expr (.ok value) middle)
      (free : ∀ old, ¬ middle.Binds Frame.integers scope name old) :
      Executes world scope (.declare name expr) (.ok none) (middle.bindVariable scope name value)
  | declareTwice {world middle : World} {scope : ScopeId} {name : Name} {expr : Expr}
      {value old : Int32} (evaluated : Evaluates world scope expr (.ok value) middle)
      (bound : middle.Binds Frame.integers scope name old) :
      Executes world scope (.declare name expr) (.error (.duplicateVariable name)) middle
  | declareFails {world final : World} {scope : ScopeId} {name : Name} {expr : Expr}
      {fault : Fault Name} (failed : Evaluates world scope expr (.error fault) final) :
      Executes world scope (.declare name expr) (.error fault) final
  | assign {world middle : World} {scope owner : ScopeId} {name : Name} {expr : Expr} {value : Int32}
      (evaluated : Evaluates world scope expr (.ok value) middle)
      (nearest : middle.Nearest Frame.integers name scope owner) :
      Executes world scope (.assign name expr) (.ok none) (middle.bindVariable owner name value)
  | assignUnbound {world middle : World} {scope : ScopeId} {name : Name} {expr : Expr} {value : Int32}
      (evaluated : Evaluates world scope expr (.ok value) middle)
      (unbound : middle.Unbound Frame.integers scope name) :
      Executes world scope (.assign name expr) (.error (.undefinedVariable name)) middle
  | assignFails {world final : World} {scope : ScopeId} {name : Name} {expr : Expr}
      {fault : Fault Name} (failed : Evaluates world scope expr (.error fault) final) :
      Executes world scope (.assign name expr) (.error fault) final
  | yield {world final : World} {scope : ScopeId} {expr : Expr} {outcome : Outcome Int32}
      (evaluated : Evaluates world scope expr outcome final) :
      Executes world scope (.yield expr) (outcome.map some) final
  | evaluate {world final : World} {scope : ScopeId} {expr : Expr} {outcome : Outcome Int32}
      (evaluated : Evaluates world scope expr outcome final) :
      Executes world scope (.evaluate expr) (outcome.map (fun _ => none)) final
  | loopEnds {world final : World} {scope : ScopeId} {test : Expr} {body : Block}
      (tested : Evaluates world scope test (.ok 0) final) :
      Executes world scope (.loop test body) (.ok none) final
  | loopFails {world final : World} {scope : ScopeId} {test : Expr} {body : Block}
      {fault : Fault Name} (failed : Evaluates world scope test (.error fault) final) :
      Executes world scope (.loop test body) (.error fault) final
  | loopAgain {world middle later final : World} {scope : ScopeId} {test : Expr} {body : Block}
      {value : Int32} {outcome : Outcome (Option Int32)}
      (tested : Evaluates world scope test (.ok value) middle) (nonzero : value ≠ 0)
      (executed : ExecutesAll (middle.child scope) middle.next body (.ok none) later)
      (further : Executes later scope (.loop test body) outcome final) :
      Executes world scope (.loop test body) outcome final
  | loopStops {world middle final : World} {scope : ScopeId} {test : Expr} {body : Block}
      {value : Int32} {outcome : Outcome (Option Int32)}
      (tested : Evaluates world scope test (.ok value) middle) (nonzero : value ≠ 0)
      (executed : ExecutesAll (middle.child scope) middle.next body outcome final)
      (stops : outcome ≠ .ok none) :
      Executes world scope (.loop test body) outcome final
  | branch {world middle final : World} {scope : ScopeId} {test : Expr} {positive negative : Block}
      {value : Int32} {outcome : Outcome (Option Int32)}
      (tested : Evaluates world scope test (.ok value) middle)
      (executed : ExecutesAll (middle.child scope) middle.next
        (if value ≠ 0 then positive else negative) outcome final) :
      Executes world scope (.branch test positive negative) outcome final
  | branchFails {world final : World} {scope : ScopeId} {test : Expr} {positive negative : Block}
      {fault : Fault Name} (failed : Evaluates world scope test (.error fault) final) :
      Executes world scope (.branch test positive negative) (.error fault) final

/-- The statements of a block in a frame, up to the first that returns a value or fails. -/
inductive ExecutesAll : World → ScopeId → Block → Outcome (Option Int32) → World → Prop where
  | nil (world : World) (scope : ScopeId) :
      ExecutesAll world scope [] (.ok none) world
  | cons {world middle final : World} {scope : ScopeId} {stmt : Stmt} {others : Block}
      {outcome : Outcome (Option Int32)} (first : Executes world scope stmt (.ok none) middle)
      (further : ExecutesAll middle scope others outcome final) :
      ExecutesAll world scope (stmt :: others) outcome final
  | stops {world final : World} {scope : ScopeId} {stmt : Stmt} {others : Block}
      {outcome : Outcome (Option Int32)} (first : Executes world scope stmt outcome final)
      (stops : outcome ≠ .ok none) :
      ExecutesAll world scope (stmt :: others) outcome final

end

/-- Bind the builtins in the root, in order, each under the next number its name gets. -/
inductive Seeds : World → List Builtin → Interner → Outcome Unit → World → Interner → Prop where
  | nil (world : World) (names : Interner) :
      Seeds world [] names (.ok ()) world names
  | cons {world final : World} {builtin : Builtin} {others : List Builtin} {names later : Interner}
      {outcome : Outcome Unit}
      (free : ∀ old, ¬ world.Binds Frame.functions 0 (names.intern builtin.name).1 old)
      (further : Seeds (world.bindFunction 0 (names.intern builtin.name).1 (.builtin builtin)) others
        (names.intern builtin.name).2 outcome final later) :
      Seeds world (builtin :: others) names outcome final later
  | twice {world : World} {builtin : Builtin} {others : List Builtin} {names : Interner}
      {old : Callable}
      (bound : world.Binds Frame.functions 0 (names.intern builtin.name).1 old) :
      Seeds world (builtin :: others) names
        (.error (.duplicateFunction (names.intern builtin.name).1)) world
        (names.intern builtin.name).2

/-- A program with builtins comes to an outcome after a sequence of calls of builtins. A value that
the program itself returns ends it and is dropped. -/
inductive Run (builtins : Builtins) (names : Interner) (program : Block) :
    Except (Fault String) Unit → List HostCall → Prop where
  | refused {later : Interner} {fault : Fault Name} {world : World}
      (seeded : Seeds World.initial builtins.entries names (.error fault) world later) :
      Run builtins names program (.error (fault.map later.lookup)) []
  | returned {later : Interner} {world final : World} {completion : Option Int32}
      (seeded : Seeds World.initial builtins.entries names (.ok ()) world later)
      (executed : ExecutesAll world 0 program (.ok completion) final) :
      Run builtins names program (.ok ()) final.history.reverse
  | failed {later : Interner} {world final : World} {fault : Fault Name}
      (seeded : Seeds World.initial builtins.entries names (.ok ()) world later)
      (executed : ExecutesAll world 0 program (.error fault) final) :
      Run builtins names program (.error (fault.map later.lookup)) final.history.reverse

end IntScript.Semantics
