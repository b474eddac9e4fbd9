import IntScript.Fault
import IntScript.Operator

/-!
What the operators compute: 32-bit arithmetic that wraps around, with truncated division.
-/

namespace IntScript

namespace BinaryOp

def truth (b : Bool) : Int32 :=
  if b then 1 else 0

/-- Apply an operator to two values. Division truncates toward zero, the remainder has the sign of
the dividend, and only a zero divisor is refused. The logical operators take every value but zero as
true; both operands are there already, so nothing is skipped. -/
def evaluate {ν : Type} (op : BinaryOp) (left right : Int32) : Except (Fault ν) Int32 :=
  match op with
  | add => .ok (left + right)
  | sub => .ok (left - right)
  | mul => .ok (left * right)
  | div => if right = 0 then .error .divisionByZero else .ok (left / right)
  | mod => if right = 0 then .error .moduloByZero else .ok (left % right)
  | gt => .ok (truth (decide (right < left)))
  | lt => .ok (truth (decide (left < right)))
  | ge => .ok (truth (decide (right ≤ left)))
  | le => .ok (truth (decide (left ≤ right)))
  | eq => .ok (truth (left == right))
  | ne => .ok (truth (left != right))
  | or => .ok (truth (left != 0 || right != 0))
  | and => .ok (truth (left != 0 && right != 0))

end BinaryOp

end IntScript
