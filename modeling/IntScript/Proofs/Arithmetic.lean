import IntScript.Operator.Evaluation
import Mathlib.Data.Int.ModEq

/-! What the operators compute, compared with arithmetic on integers of any size. -/
namespace IntScript

/-- The one value that is congruent to an integer modulo the number of values. -/
theorem modEq_iff_eq_ofInt {value : Int32} {exact : Int} :
    value.toInt ≡ exact [ZMOD 2 ^ 32] ↔ value = Int32.ofInt exact := by
  rw [eq_comm, Int32.ofInt_eq_iff_bmod_eq_toInt]
  constructor
  · intro hSame
    have hSame : value.toInt % (2 ^ 32 : Nat) = exact % (2 ^ 32 : Nat) := hSame
    rw [← Int.emod_bmod, ← hSame, Int.emod_bmod]
    exact Int32.toInt_bmod_size value
  · intro hSame
    rw [← hSame]
    exact Int.bmod_emod

namespace BinaryOp

/-- What an operator comes to on integers of any size. A quotient is cut off toward zero, and a remainder
has the sign of the dividend; for a divisor that is zero both are without meaning. -/
def exact : BinaryOp → Int → Int → Int
  | add, left, right => left + right
  | sub, left, right => left - right
  | mul, left, right => left * right
  | div, left, right => left.tdiv right
  | mod, left, right => left.tmod right
  | gt, left, right => if left > right then 1 else 0
  | lt, left, right => if left < right then 1 else 0
  | ge, left, right => if left ≥ right then 1 else 0
  | le, left, right => if left ≤ right then 1 else 0
  | eq, left, right => if left = right then 1 else 0
  | ne, left, right => if left ≠ right then 1 else 0
  | or, left, right => if left ≠ 0 ∨ right ≠ 0 then 1 else 0
  | and, left, right => if left ≠ 0 ∧ right ≠ 0 then 1 else 0

/-- Truth values are brought to the form that the exact results have, so that comparisons are no
case of their own. -/
theorem truth_eq_ofInt {b : Bool} {p : Prop} [Decidable p] (h : b = true ↔ p) :
    truth b = Int32.ofInt (if p then 1 else 0) := by
  by_cases hHolds : p
  · rw [h.mpr hHolds, if_pos hHolds]
    rfl
  · rw [Bool.eq_false_iff.mpr (mt h.mp hHolds), if_neg hHolds]
    rfl

theorem toInt_ne_zero_iff {value : Int32} : value.toInt ≠ 0 ↔ value ≠ 0 :=
  not_congr (Int32.toInt_inj (y := 0))

/-- The one quotient that leaves the range is wrapped like any other result. -/
theorem div_eq_ofInt (left right : Int32) : left / right = Int32.ofInt (left.toInt.tdiv right.toInt) := by
  rw [eq_comm, Int32.ofInt_eq_iff_bmod_eq_toInt, Int32.toInt_div]

/-- A remainder is smaller than the divisor, so that wrapping does nothing to it. It is said in this
form all the same, to be used like the others. -/
theorem mod_eq_ofInt (left right : Int32) : left % right = Int32.ofInt (left.toInt.tmod right.toInt) := by
  rw [← Int32.toInt_mod, Int32.ofInt_toInt]

/-- The wrapped quotient and the remainder make up the dividend again, also where the quotient is too
large for a value. -/
theorem div_mul_add_mod (left right : Int32) : left / right * right + left % right = left := by
  calc left / right * right + left % right
      = Int32.ofInt (left.toInt.tdiv right.toInt) * Int32.ofInt right.toInt
          + Int32.ofInt (left.toInt.tmod right.toInt) := by
        rw [div_eq_ofInt, mod_eq_ofInt, Int32.ofInt_toInt]
    _ = Int32.ofInt (left.toInt.tdiv right.toInt * right.toInt + left.toInt.tmod right.toInt) := by
        rw [Int32.ofInt_add, Int32.ofInt_mul]
    _ = left := by rw [Int.tdiv_mul_add_tmod, Int32.ofInt_toInt]

section

variable {ν : Type}

/-- Only a divisor can be refused, and only if it is zero. -/
theorem evaluate_eq_error_iff {op : BinaryOp} {left right : Int32} {fault : Fault ν} :
    op.evaluate left right = .error fault ↔
      right = 0 ∧ (op = .div ∧ fault = .divisionByZero ∨ op = .mod ∧ fault = .moduloByZero) := by
  cases op with
  | div | mod => by_cases hZero : right = 0 <;> simp [evaluate, hZero, eq_comm]
  | add | sub | mul | gt | lt | ge | le | eq | ne | or | and => simp [evaluate]

/-- Where nothing is refused, the value is the exact one, wrapped around. -/
theorem evaluate_eq_ofInt {op : BinaryOp} {left right : Int32}
    (hDefined : right = 0 → op ≠ .div ∧ op ≠ .mod) :
    op.evaluate left right =
      (.ok (Int32.ofInt (op.exact left.toInt right.toInt)) : Except (Fault ν) Int32) := by
  have hOk {first second : Int32} (hSame : first = second) :
      (.ok first : Except (Fault ν) Int32) = .ok second := congrArg Except.ok hSame
  cases op with
  | add => exact hOk (by rw [exact, Int32.ofInt_add, Int32.ofInt_toInt, Int32.ofInt_toInt])
  | sub => exact hOk (by rw [exact, Int32.ofInt_sub, Int32.ofInt_toInt, Int32.ofInt_toInt])
  | mul => exact hOk (by rw [exact, Int32.ofInt_mul, Int32.ofInt_toInt, Int32.ofInt_toInt])
  | div =>
      rw [evaluate, if_neg (fun hZero => (hDefined hZero).1 rfl)]
      exact hOk (div_eq_ofInt left right)
  | mod =>
      rw [evaluate, if_neg (fun hZero => (hDefined hZero).2 rfl)]
      exact hOk (mod_eq_ofInt left right)
  | gt => exact hOk (truth_eq_ofInt (by rw [decide_eq_true_iff, Int32.lt_iff_toInt_lt, gt_iff_lt]))
  | lt => exact hOk (truth_eq_ofInt (by rw [decide_eq_true_iff, Int32.lt_iff_toInt_lt]))
  | ge => exact hOk (truth_eq_ofInt (by rw [decide_eq_true_iff, Int32.le_iff_toInt_le, ge_iff_le]))
  | le => exact hOk (truth_eq_ofInt (by rw [decide_eq_true_iff, Int32.le_iff_toInt_le]))
  | eq => exact hOk (truth_eq_ofInt (by rw [beq_iff_eq, Int32.toInt_inj]))
  | ne => exact hOk (truth_eq_ofInt (by rw [bne_iff_ne, ne_eq, ne_eq, Int32.toInt_inj]))
  | or =>
      refine hOk (truth_eq_ofInt ?_)
      rw [Bool.or_eq_true, bne_iff_ne, bne_iff_ne, toInt_ne_zero_iff, toInt_ne_zero_iff]
  | and =>
      refine hOk (truth_eq_ofInt ?_)
      rw [Bool.and_eq_true, bne_iff_ne, bne_iff_ne, toInt_ne_zero_iff, toInt_ne_zero_iff]

/-- An operator fails exactly where a division or a remainder is asked for by zero. Everywhere else it
gives the one value that is congruent to the exact result modulo `2 ^ 32`. Dividing, multiplying back and
adding the remainder gives the dividend, for every divisor but zero. -/
theorem evaluate_exact (op : BinaryOp) (left right : Int32) :
    (∀ fault : Fault ν, op.evaluate left right = .error fault ↔
      right = 0 ∧ (op = .div ∧ fault = .divisionByZero ∨ op = .mod ∧ fault = .moduloByZero)) ∧
    ((right = 0 → op ≠ .div ∧ op ≠ .mod) →
      ∃ value, op.evaluate left right = (.ok value : Except (Fault ν) Int32) ∧
        ∀ other : Int32, other.toInt ≡ op.exact left.toInt right.toInt [ZMOD 2 ^ 32] ↔ other = value) ∧
    (right ≠ 0 → ∃ quotient product remainder : Int32,
      div.evaluate left right = (.ok quotient : Except (Fault ν) Int32) ∧
      mul.evaluate quotient right = (.ok product : Except (Fault ν) Int32) ∧
      mod.evaluate left right = (.ok remainder : Except (Fault ν) Int32) ∧
      add.evaluate product remainder = (.ok left : Except (Fault ν) Int32)) := by
  refine ⟨fun fault => evaluate_eq_error_iff, fun hDefined => ?_, fun hDivisor => ?_⟩
  · exact ⟨_, evaluate_eq_ofInt hDefined, fun other => modEq_iff_eq_ofInt⟩
  · refine ⟨left / right, left / right * right, left % right, ?_, rfl, ?_, ?_⟩
    · rw [evaluate, if_neg hDivisor]
    · rw [evaluate, if_neg hDivisor]
    · rw [evaluate, div_mul_add_mod]

end

example : div.evaluate (-2147483648) (-1) = (.ok (-2147483648) : Except (Fault Name) Int32) ∧
    mod.evaluate (-2147483648) (-1) = (.ok 0 : Except (Fault Name) Int32) := ⟨rfl, rfl⟩

end BinaryOp

end IntScript
