import IntScript.Fault
import IntScript.Name

/-!
The stack of running functions.

It bounds how deeply calls may nest and names the functions that a failure ends. Calls of builtins
are not on it.
-/

namespace IntScript

/-- The functions of the program that are running, the innermost last, and how many there may be. -/
structure CallStack where
  frames : Array Name
  limit : Option Nat

namespace CallStack

def defaultLimit : Nat := 10000

/-- An empty stack. Without a limit calls may nest without bound. -/
def empty (limit : Option Nat) : CallStack :=
  ⟨#[], limit⟩

def usual : CallStack :=
  empty (some defaultLimit)

def depth (calls : CallStack) : Nat :=
  calls.frames.size

def isEmpty (calls : CallStack) : Bool :=
  calls.frames.isEmpty

def isFull (calls : CallStack) : Bool :=
  match calls.limit with
  | none => false
  | some limit => limit ≤ calls.depth

/-- Enter a function, if the limit allows one more; else the stack stays as it is. -/
def push (calls : CallStack) (name : Name) : Except (Fault Name) Unit × CallStack :=
  if calls.isFull then
    (.error (.callDepthExceeded (calls.limit.getD 0)), calls)
  else
    (.ok (), ⟨calls.frames.push name, calls.limit⟩)

def pop (calls : CallStack) : CallStack :=
  ⟨calls.frames.pop, calls.limit⟩

/-- The running functions, the innermost first. -/
def backtrace (calls : CallStack) : Backtrace Name :=
  calls.frames.toList.reverse

/-- The failure that a fault means while these functions run. -/
def failure (calls : CallStack) (fault : Fault Name) : Failure Name :=
  ⟨fault, calls.backtrace⟩

end CallStack

end IntScript
