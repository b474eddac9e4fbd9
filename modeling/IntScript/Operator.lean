/-!
The binary operators: their spelling and how tightly they bind.
-/

namespace IntScript

/-- The binary operators. Comparisons and the two logical operators answer `1` or `0`. -/
inductive BinaryOp where
  | add
  | sub
  | mul
  | div
  | mod
  | gt
  | lt
  | ge
  | le
  | eq
  | ne
  | or
  | and
deriving DecidableEq

namespace BinaryOp

def all : List BinaryOp :=
  [add, sub, mul, div, mod, gt, lt, ge, le, eq, ne, or, and]

def symbol : BinaryOp → String
  | add => "+"
  | sub => "-"
  | mul => "*"
  | div => "/"
  | mod => "%"
  | gt => ">"
  | lt => "<"
  | ge => ">="
  | le => "<="
  | eq => "=="
  | ne => "!="
  | or => "||"
  | and => "&&"

/-- The precedence level. Level 1 binds tightest and level 6 loosest; operators of one level
associate to the left. -/
def precedence : BinaryOp → Nat
  | mul | div | mod => 1
  | add | sub => 2
  | gt | lt | ge | le => 3
  | eq | ne => 4
  | and => 5
  | or => 6

def loosest : Nat := 6

end BinaryOp

end IntScript
