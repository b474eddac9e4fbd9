import IntScript.Proofs.Printing.CanonicalTokens

/-! Printing with parentheses of one's choice. Only an operand that has an operator of its own can get
any; the canonical text is the one for a particular choice. -/
namespace IntScript

open Grammar

/-- Where an operand of an operator stands in an expression. -/
inductive Place where
  /-- The left operand of the outermost operator. -/
  | left
  /-- The right operand of the outermost operator. -/
  | right
  /-- A place in the left operand. -/
  | inLeft (place : Place)
  /-- A place in the right operand. -/
  | inRight (place : Place)
  /-- A place in an argument of a call, counted from zero. -/
  | inArgument (index : Nat) (place : Place)

namespace Expr

def isBinary : Expr → Bool
  | binary _ _ _ => true
  | literal _ | reference _ | call _ _ => false

mutual

/-- The text of an expression with parentheses around the chosen operands. -/
def printWith (names : Interner) : Expr → (Place → Bool) → String
  | literal value, _ => toString value
  | reference name, _ => names.lookup name
  | call callee arguments, chosen =>
      names.lookup callee ++ "(" ++
        printArgumentsWith names arguments (fun index => chosen ∘ .inArgument index) ++ ")"
  | binary op left right, chosen =>
      parenthesize (left.isBinary && chosen .left) (printWith names left (chosen ∘ .inLeft)) ++
        " " ++ op.symbol ++ " " ++
        parenthesize (right.isBinary && chosen .right) (printWith names right (chosen ∘ .inRight))

def printArgumentsWith (names : Interner) : List Expr → (Nat → Place → Bool) → String
  | [], _ => ""
  | [argument], chosen => printWith names argument (chosen 0)
  | argument :: others, chosen =>
      printWith names argument (chosen 0) ++ ", " ++
        printArgumentsWith names others (fun index => chosen (index + 1))

end

mutual

/-- The tokens of an expression with parentheses around the chosen operands. -/
def kindsWith : Expr → (Place → Bool) → Kinds
  | literal value, _ => [.integer value]
  | reference name, _ => [.identifier name]
  | call callee arguments, chosen =>
      .identifier callee :: .delimiter .openParen ::
        argumentKindsWith arguments (fun index => chosen ∘ .inArgument index) ++
          [.delimiter .closeParen]
  | binary op left right, chosen =>
      parenthesized (left.isBinary && chosen .left) (kindsWith left (chosen ∘ .inLeft)) ++
        .operator op ::
          parenthesized (right.isBinary && chosen .right) (kindsWith right (chosen ∘ .inRight))

def argumentKindsWith : List Expr → (Nat → Place → Bool) → Kinds
  | [], _ => []
  | [argument], chosen => kindsWith argument (chosen 0)
  | argument :: others, chosen =>
      kindsWith argument (chosen 0) ++ .delimiter .comma ::
        argumentKindsWith others (fun index => chosen (index + 1))

end

mutual

/-- The operands that the canonical text puts in parentheses. -/
def parenthesizes : Expr → Place → Bool
  | binary op left _, .left => left.needsParentheses op false
  | binary op _ right, .right => right.needsParentheses op true
  | binary _ left _, .inLeft place => parenthesizes left place
  | binary _ _ right, .inRight place => parenthesizes right place
  | call _ arguments, .inArgument index place => argumentsParenthesize arguments index place
  | _, _ => false

/-- The operands in each of several arguments that the canonical text puts in parentheses. -/
def argumentsParenthesize : List Expr → Nat → Place → Bool
  | argument :: _, 0, place => parenthesizes argument place
  | _ :: others, index + 1, place => argumentsParenthesize others index place
  | [], _, _ => false

end

/-- Only an operand with an operator ever needs parentheses. -/
theorem isBinary_and_needsParentheses (operand : Expr) (parent : BinaryOp) (isRight : Bool) :
    (operand.isBinary && operand.needsParentheses parent isRight) =
      operand.needsParentheses parent isRight := by
  cases operand <;> rfl

section

variable (op : BinaryOp) (left right : Expr)

/-- What is chosen inside an operand does not depend on what is around it. -/
theorem parenthesizes_comp_inLeft :
    (binary op left right).parenthesizes ∘ .inLeft = left.parenthesizes := by
  funext place
  simp [parenthesizes]

theorem parenthesizes_comp_inRight :
    (binary op left right).parenthesizes ∘ .inRight = right.parenthesizes := by
  funext place
  simp [parenthesizes]

theorem parenthesizes_comp_inArgument (callee : Name) (arguments : List Expr) :
    (fun index => (call callee arguments).parenthesizes ∘ .inArgument index) =
      argumentsParenthesize arguments := by
  funext index place
  simp [parenthesizes]

theorem argumentsParenthesize_zero (argument : Expr) (others : List Expr) :
    argumentsParenthesize (argument :: others) 0 = argument.parenthesizes := by
  funext place
  rw [argumentsParenthesize]

theorem argumentsParenthesize_succ (argument : Expr) (others : List Expr) :
    (fun index => argumentsParenthesize (argument :: others) (index + 1)) =
      argumentsParenthesize others := by
  funext index place
  rw [argumentsParenthesize]

end

mutual

/-- The canonical text is the one with parentheses around the operands that it is said to have. -/
theorem printWith_parenthesizes (names : Interner) (expr : Expr) :
    expr.printWith names expr.parenthesizes = expr.print names := by
  match expr with
  | literal _ | reference _ => rfl
  | call callee arguments =>
      rw [printWith, parenthesizes_comp_inArgument, printArgumentsWith_parenthesize, print]
  | binary op left right =>
      rw [printWith, parenthesizes_comp_inLeft, parenthesizes_comp_inRight,
        printWith_parenthesizes names left, printWith_parenthesizes names right]
      simp only [parenthesizes, isBinary_and_needsParentheses, print]

theorem printArgumentsWith_parenthesize (names : Interner) (arguments : List Expr) :
    printArgumentsWith names arguments (argumentsParenthesize arguments) =
      printArguments names arguments := by
  match arguments with
  | [] => rfl
  | [argument] => exact printWith_parenthesizes names argument
  | argument :: next :: further =>
      have hFirst := printWith_parenthesizes names argument
      have hOthers := printArgumentsWith_parenthesize names (next :: further)
      simp only [printArgumentsWith, printArguments, argumentsParenthesize_zero,
        argumentsParenthesize_succ, hFirst, hOthers]

end

mutual

theorem kindsWith_parenthesizes (expr : Expr) : expr.kindsWith expr.parenthesizes = expr.kinds := by
  match expr with
  | literal _ | reference _ => rfl
  | call callee arguments =>
      rw [kindsWith, parenthesizes_comp_inArgument, argumentKindsWith_parenthesize, kinds]
  | binary op left right =>
      rw [kindsWith, parenthesizes_comp_inLeft, parenthesizes_comp_inRight,
        kindsWith_parenthesizes left, kindsWith_parenthesizes right]
      simp only [parenthesizes, isBinary_and_needsParentheses, kinds]

theorem argumentKindsWith_parenthesize (arguments : List Expr) :
    argumentKindsWith arguments (argumentsParenthesize arguments) = argumentKinds arguments := by
  match arguments with
  | [] => rfl
  | [argument] => exact kindsWith_parenthesizes argument
  | argument :: next :: further =>
      have hFirst := kindsWith_parenthesizes argument
      have hOthers := argumentKindsWith_parenthesize (next :: further)
      simp only [argumentKindsWith, argumentKinds, argumentsParenthesize_zero,
        argumentsParenthesize_succ, hFirst, hOthers]

end

end Expr

end IntScript
