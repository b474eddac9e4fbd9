import IntScript.Scope.Store

/-!
Scopes, functions and scope errors as texts for someone who inspects them.
-/

namespace IntScript

namespace Callable

def inspect : Callable → String
  | builtin _ => "Builtin"
  | user function _ =>
      "User \x7b name: " ++ function.name.inspect ++ ", arity: " ++ toString function.arity ++ " \x7d"

end Callable

namespace ScopeError

def name : ScopeError → Name
  | duplicateVariable name => name
  | duplicateFunction name => name
  | undefinedVariable name => name
  | undefinedFunction name => name

def kind : ScopeError → String
  | duplicateVariable _ => "DuplicateVariable"
  | duplicateFunction _ => "DuplicateFunction"
  | undefinedVariable _ => "UndefinedVariable"
  | undefinedFunction _ => "UndefinedFunction"

def inspect (error : ScopeError) : String :=
  error.kind ++ "(" ++ error.name.inspect ++ ")"

end ScopeError

namespace Scope

/-- The content of a scope: its variables with their values, the names of its functions, and whether
there is a scope around it. -/
def inspect (scope : Scope) : String :=
  let integers := scope.integers.map (fun entry => s!"{entry.1.inspect}: {entry.2}")
  let functions := scope.functions.map (fun entry => entry.1.inspect)
  "Scope \x7b variables: \x7b" ++ ", ".intercalate integers ++ "\x7d, functions: [" ++
    ", ".intercalate functions ++ "], has_parent: " ++ toString scope.parent.isSome ++ " \x7d"

end Scope

namespace Store

def inspect (store : Store) (id : ScopeId) : String :=
  match store.scope? id with
  | none => ""
  | some scope => "LocalScope(RefCell \x7b value: " ++ scope.inspect ++ " \x7d)"

end Store

end IntScript
