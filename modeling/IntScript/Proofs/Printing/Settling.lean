import IntScript.Proofs.Printing.RoundTrip

/-! What a printed program is read as. Where a statement that ends with a variable stands before one that
begins with a parenthesis, both become one statement, in which the variable is called. The operators
after the call go on from where the first statement ended, so they take new operands by their levels; no
parentheses are needed that are not there, and none that are there become redundant. The tokens of the
new program are therefore those that it was read from. -/
namespace IntScript

open Grammar

namespace Expr

variable {op : BinaryOp} {first next right argument : Expr}

theorem needsParentheses_left_eq (op : BinaryOp) (left : Expr) :
    left.needsParentheses op false = decide (op.precedence < left.level) := by
  rw [Bool.eq_iff_iff, needsParentheses_left, decide_eq_true_eq]

theorem needsParentheses_right_eq (op : BinaryOp) (right : Expr) :
    right.needsParentheses op true = decide (op.precedence ≤ right.level) := by
  rw [Bool.eq_iff_iff, needsParentheses_right, decide_eq_true_eq]

/-- What an expression becomes with an operator and an operand written after it: a tighter operator
takes the last operand only. -/
def attach (op : BinaryOp) (right : Expr) : Expr → Expr
  | binary parent left last =>
      if op.precedence < parent.precedence then
        binary parent left
          (if last.needsParentheses parent true then binary op last right else attach op right last)
      else
        binary op (binary parent left last) right
  | other => binary op other right

/-- The new level is the looser one of the expression and the operator. The operand on the right has no part
in it, since it is put in parentheses where it would. -/
theorem level_attach (expr : Expr) : (attach op right expr).level = max expr.level op.precedence := by
  cases expr with
  | binary parent left last =>
      rw [attach]
      split
      next hTighter => exact (Nat.max_eq_left (Nat.le_of_lt hTighter)).symm
      next hLooser => exact (Nat.max_eq_right (Nat.le_of_not_lt hLooser)).symm
  | _ => exact (Nat.max_eq_right (Nat.zero_le _)).symm

/-- Attaching is what writing the operator and the operand behind the expression does to its tokens. -/
theorem kinds_attach (expr : Expr) :
    (attach op right expr).kinds =
      expr.kinds ++ .operator op :: parenthesized (right.needsParentheses op true) right.kinds := by
  cases expr with
  | literal _ | reference _ | call _ _ => rfl
  | binary parent left last =>
      rw [attach]
      split
      next hTighter =>
        have hWhole (operand : Expr) (hLevel : operand.level < parent.precedence) :
            operand.needsParentheses parent true = false := by
          rw [needsParentheses_right_eq, decide_eq_false_iff_not]
          exact Nat.not_le_of_lt hLevel
        cases hLast : last.needsParentheses parent true with
        | true =>
            have hLevel := (needsParentheses_right parent last).mp hLast
            have hKept : last.needsParentheses op false := by
              rw [needsParentheses_left]
              exact Nat.lt_of_lt_of_le hTighter hLevel
            simp [kinds, hLast, hKept, hWhole (binary op last right) hTighter, parenthesized]
        | false =>
            have ih := kinds_attach last
            have hLevel : (attach op right last).level < parent.precedence := by
              have hBare := level_le_of_bare_right hLast
              rw [level_attach]
              omega
            simp [kinds, hLast, hWhole _ hLevel, ih, parenthesized]
      next hLooser =>
        have hBare : (binary parent left last).needsParentheses op false = false := by
          rw [needsParentheses_left_eq, decide_eq_false_iff_not]
          exact hLooser
        rw [kinds, hBare]
        rfl

/-- What an expression becomes with an argument in parentheses written after the variable that it ends
with. -/
def callLast (argument : Expr) : Expr → Expr
  | reference name => call name [argument]
  | binary op left right => binary op left (callLast argument right)
  | other => other

/-- An argument in parentheses behind a variable makes a call of it, which is a primary as the
variable was. -/
theorem level_callLast (expr : Expr) : (callLast argument expr).level = expr.level := by
  cases expr <;> rfl

/-- The tokens are those of the expression with the parentheses behind. -/
theorem kinds_callLast {expr : Expr} (h : expr.endsWithVariable) :
    (callLast argument expr).kinds = expr.kinds ++ parenthesized true argument.kinds := by
  match expr with
  | reference name => rfl
  | binary op left right =>
      rw [endsWithVariable, Bool.and_eq_true, Bool.not_eq_true'] at h
      have ih := kinds_callLast h.2
      have hBare : (callLast argument right).needsParentheses op true = false := by
        rw [needsParentheses_right_eq, level_callLast, ← needsParentheses_right_eq, h.1]
      simp [callLast, kinds, hBare, h.1, ih, parenthesized]

/-- What two expressions become, the first of which ends with a variable while the next one begins with
a parenthesis. -/
def glue (first : Expr) : Expr → Expr
  | binary op left right =>
      attach op right (if left.needsParentheses op false then callLast left first else glue first left)
  | other => other

/-- Gluing changes the tree, and leaves the row of tokens as it was. -/
theorem kinds_glue (hEnds : first.endsWithVariable) {next : Expr} (hBegins : next.beginsWithParenthesis) :
    (glue first next).kinds = first.kinds ++ next.kinds := by
  match next with
  | binary op left right =>
      rw [beginsWithParenthesis] at hBegins
      rw [glue, kinds_attach]
      cases hLeft : left.needsParentheses op false with
      | true => simp [kinds, hLeft, kinds_callLast hEnds]
      | false =>
          rw [hLeft, Bool.false_or] at hBegins
          simp [kinds, hLeft, kinds_glue hEnds hBegins, parenthesized]

theorem kinds_ne_nil (expr : Expr) : expr.kinds ≠ [] := by
  cases expr <;> simp [kinds]

/-- The last token of both is that of the second. -/
theorem endsWithVariable_of_kinds_append {expr : Expr} (h : expr.kinds = first.kinds ++ next.kinds) :
    expr.endsWithVariable = next.endsWithVariable := by
  have hLast : (first.kinds ++ next.kinds).getLast? = next.kinds.getLast? := by
    obtain ⟨kind, others, hNext⟩ := List.exists_cons_of_ne_nil next.kinds_ne_nil
    rw [hNext, List.getLast?_append, List.getLast?_cons, Option.some_or]
  rw [Bool.eq_iff_iff, endsWithVariable_iff, endsWithVariable_iff, h, hLast]

end Expr

namespace Stmt

variable {stmt : Stmt} {next : Expr} {others : Block}

/-- A statement that ends with an expression, with another expression glued to it. -/
def merge (next : Expr) : Stmt → Stmt
  | declare name value => declare name (value.glue next)
  | assign name value => assign name (value.glue next)
  | yield value => yield (value.glue next)
  | evaluate value => evaluate (value.glue next)
  | other => other

/-- A statement in front of a block. It takes in the first of the others if they touch. -/
def prepend (stmt : Stmt) : Block → Block
  | evaluate next :: others =>
      if stmt.touches (evaluate next :: others) then merge next stmt :: others
      else stmt :: evaluate next :: others
  | others => stmt :: others

mutual

/-- What a printed statement is read as: neighbours that touch in a block inside it have become one. -/
def settled : Stmt → Stmt
  | function name parameters body => function name parameters (blockSettled body)
  | loop condition body => loop condition (blockSettled body)
  | branch condition positive negative =>
      branch condition (blockSettled positive) (blockSettled negative)
  | other => other

/-- What a printed block is read as: neighbours that touch have become one statement. -/
def blockSettled : List Stmt → List Stmt
  | [] => []
  | stmt :: others => prepend (settled stmt) (blockSettled others)

end

theorem kinds_merge (hEnds : stmt.endsWithVariable) (hBegins : next.beginsWithParenthesis) :
    (merge next stmt).kinds = stmt.kinds ++ next.kinds := by
  cases stmt with
  | declare _ _ | assign _ _ | yield _ | evaluate _ =>
      simp [merge, kinds, Expr.kinds_glue hEnds hBegins]
  | function _ _ _ | loop _ _ | branch _ _ _ => cases hEnds

/-- Merged statements have no other blocks inside, and end as the second one does. -/
theorem clashes_merge (hEnds : stmt.endsWithVariable) (hBegins : next.beginsWithParenthesis) :
    (merge next stmt).clashes = false ∧ (merge next stmt).endsWithVariable = next.endsWithVariable := by
  cases stmt with
  | declare _ _ | assign _ _ | yield _ | evaluate _ =>
      exact ⟨rfl, Expr.endsWithVariable_of_kinds_append (Expr.kinds_glue hEnds hBegins)⟩
  | function _ _ _ | loop _ _ | branch _ _ _ => cases hEnds

/-- A statement either stands in front of the others or is merged with the first of them. -/
theorem prepend_cases (stmt : Stmt) (others : Block) :
    (stmt.touches others = false ∧ prepend stmt others = stmt :: others) ∨
      ∃ next further, others = evaluate next :: further ∧ stmt.endsWithVariable ∧
        next.beginsWithParenthesis ∧ prepend stmt others = merge next stmt :: further := by
  cases hTouches : stmt.touches others with
  | false =>
      refine Or.inl ⟨rfl, ?_⟩
      match others with
      | evaluate next :: further => rw [prepend, if_neg (Bool.eq_false_iff.mp hTouches)]
      | [] | function _ _ _ :: _ | declare _ _ :: _ | loop _ _ :: _ | branch _ _ _ :: _
      | assign _ _ :: _ | yield _ :: _ => rfl
  | true =>
      match others with
      | evaluate next :: further =>
          have hBoth := hTouches
          rw [touches, Bool.and_eq_true] at hBoth
          exact Or.inr ⟨next, further, rfl, hBoth.1, hBoth.2, by rw [prepend, if_pos hTouches]⟩
      | function _ _ _ :: _ | declare _ _ :: _ | loop _ _ :: _ | branch _ _ _ :: _
      | assign _ _ :: _ | yield _ :: _ => simp [touches, beginsWithParenthesis] at hTouches

/-- A statement in front is not lost, whether or not it takes in the next one. -/
theorem prepend_ne_nil (stmt : Stmt) (others : Block) : prepend stmt others ≠ [] := by
  obtain ⟨-, hSame⟩ | ⟨next, further, -, -, -, hSame⟩ := prepend_cases stmt others <;>
    rw [hSame] <;> exact List.cons_ne_nil _ _

/-- Taking in the next statement leaves the tokens of the block as they were. -/
theorem blockKinds_prepend (stmt : Stmt) (others : Block) :
    blockKinds (prepend stmt others) = stmt.kinds ++ blockKinds others := by
  obtain ⟨-, hSame⟩ | ⟨next, further, rfl, hEnds, hBegins, hSame⟩ := prepend_cases stmt others
  · rw [hSame, blockKinds]
  · rw [hSame, blockKinds, kinds_merge hEnds hBegins, List.append_assoc]
    rfl

/-- Once the others are settled, only the new statement could touch its neighbour, and then it takes
it in. -/
theorem blockClashes_prepend (hStmt : stmt.clashes = false) (hOthers : blockClashes others = false) :
    blockClashes (prepend stmt others) = false := by
  obtain ⟨hTouches, hSame⟩ | ⟨next, further, rfl, hEnds, hBegins, hSame⟩ := prepend_cases stmt others
  · rw [hSame, blockClashes, hStmt, hTouches, hOthers]
    rfl
  · obtain ⟨hMerged, hEnd⟩ := clashes_merge hEnds hBegins
    simp only [blockClashes, Bool.or_eq_false_iff] at hOthers
    have hTouches : (merge next stmt).touches further = (evaluate next).touches further := by
      cases further with
      | nil => rfl
      | cons _ _ => rw [touches, touches, hEnd, endsWithVariable]
    rw [hSame, blockClashes, hMerged, hTouches, hOthers.1.2, hOthers.2]
    rfl

/-- So no block becomes empty, and an `else` is printed or not as before. -/
theorem isEmpty_blockSettled (block : Block) : (blockSettled block).isEmpty = block.isEmpty := by
  cases block with
  | nil => rfl
  | cons stmt others =>
      rw [blockSettled, List.isEmpty_cons, List.isEmpty_eq_false_iff]
      exact prepend_ne_nil _ _

mutual

/-- What has settled is printed with the same tokens. -/
theorem kinds_settled (stmt : Stmt) : stmt.settled.kinds = stmt.kinds := by
  match stmt with
  | function _ _ body | loop _ body => simp [settled, kinds, blockKinds_settled body]
  | branch _ positive negative =>
      simp [settled, kinds, blockKinds_settled positive, blockKinds_settled negative,
        isEmpty_blockSettled]
  | declare _ _ | assign _ _ | yield _ | evaluate _ => rfl

/-- What a printed block is read as has the tokens of the block. -/
theorem blockKinds_settled (block : Block) : blockKinds (blockSettled block) = blockKinds block := by
  match block with
  | [] => rfl
  | stmt :: others =>
      rw [blockSettled, blockKinds_prepend, kinds_settled stmt, blockKinds_settled others, blockKinds]

end

mutual

/-- And no neighbours in it touch. -/
theorem clashes_settled (stmt : Stmt) : stmt.settled.clashes = false := by
  match stmt with
  | function _ _ body | loop _ body => exact blockClashes_settled body
  | branch _ positive negative =>
      rw [settled, clashes, blockClashes_settled positive, blockClashes_settled negative]
      rfl
  | declare _ _ | assign _ _ | yield _ | evaluate _ => rfl

/-- In what a printed block is read as no neighbours touch. -/
theorem blockClashes_settled (block : Block) : blockClashes (blockSettled block) = false := by
  match block with
  | [] => rfl
  | stmt :: others =>
      rw [blockSettled]
      exact blockClashes_prepend (clashes_settled stmt) (blockClashes_settled others)

end

end Stmt

/-- The tokens of a printed program are read as the program in which neighbours that touch have become
one statement. -/
theorem parse_eq_settled {block : Block} {tokens : List (Token Name)}
    (hTokens : beforeEnd tokens = Stmt.blockKinds block) :
    parse tokens = .ok (Stmt.blockSettled block) := by
  rw [← Stmt.blockKinds_settled] at hTokens
  obtain ⟨reread, hReread, hSame⟩ := parse_blockKinds hTokens
  rw [hReread, hSame.mpr (Stmt.blockClashes_settled block)]

end IntScript
