import IntScript.Host
import IntScript.Program

/-!
Scopes and what they bind.

A scope has a table of variables, a table of functions and perhaps a parent. It lives in a `Store`
under a number, and other scopes and functions refer to it by that number.
-/

namespace IntScript

/-- The number of a scope in its store. Numbers are given in the order of creation and never again. -/
abbrev ScopeId := Nat

/-- What a call can lead to. -/
inductive Callable where
  /-- A function of the host. -/
  | builtin (builtin : Builtin)
  /-- A function of the program, with the scope it was declared in. The scope is only named here: a
  function does not keep it alive. -/
  | user (function : Function) (home : ScopeId)

namespace Callable

/-- Number of arguments a call has to bring, if that is fixed. -/
def arity? : Callable → Option Nat
  | builtin _ => none
  | user function _ => some function.arity

end Callable

/-- A table from names to values; a name has at most one entry. -/
abbrev Table (α : Type) := List (Name × α)

namespace Table

variable {α : Type}

def get? (table : Table α) (name : Name) : Option α :=
  (table.find? (fun entry => entry.1 == name)).map (·.2)

def has (table : Table α) (name : Name) : Bool :=
  table.any (fun entry => entry.1 == name)

def put (table : Table α) (name : Name) (value : α) : Table α :=
  table.map (fun entry => if entry.1 = name then (name, value) else entry)

end Table

/-- A scope. It is kept alive by the handles that are held on it and by its children. -/
structure Scope where
  integers : Table Int32
  functions : Table Callable
  parent : Option ScopeId
  handles : Nat
  children : Nat

namespace Scope

/-- A new scope that binds nothing, with one handle on it. -/
def fresh (parent : Option ScopeId) : Scope :=
  { integers := [], functions := [], parent, handles := 1, children := 0 }

def isOwned (scope : Scope) : Bool :=
  0 < scope.handles || 0 < scope.children

end Scope

inductive ScopeError where
  /-- This very scope declares the variable already. -/
  | duplicateVariable (name : Name)
  /-- This very scope declares the function already. -/
  | duplicateFunction (name : Name)
  /-- Neither the scope nor one around it declares the variable. -/
  | undefinedVariable (name : Name)
  /-- Neither the scope nor one around it declares the function. -/
  | undefinedFunction (name : Name)
deriving DecidableEq

end IntScript
