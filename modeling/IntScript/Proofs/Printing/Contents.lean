import IntScript.Proofs.Printing.CanonicalTokens

/-! What a program keeps of the tokens that it is read from. Brackets, keywords, semicolons and the sign
of assignment only give it its shape. Identifiers, integers, operators and commas stay, in their order,
and printing brings them out again. -/
namespace IntScript.Grammar

/-- A token that does more than to give a tree its shape. -/
def lasting : TokenKind Name → Bool
  | .identifier _ | .integer _ | .operator _ | .delimiter .comma => true
  | .keyword _ | .delimiter _ | .endOfFile => false

/-- What a row holds apart from its shape. -/
def contents (row : Kinds) : Kinds :=
  row.filter lasting

@[simp] theorem contents_nil : contents [] = [] := rfl

@[simp] theorem contents_cons (kind : TokenKind Name) (row : Kinds) :
    contents (kind :: row) = if lasting kind then kind :: contents row else contents row :=
  List.filter_cons

@[simp] theorem contents_append (front back : Kinds) :
    contents (front ++ back) = contents front ++ contents back :=
  List.filter_append ..

/-- This is the point of leaving parentheses out. -/
@[simp] theorem contents_parenthesized (wanted : Bool) (inner : Kinds) :
    contents (parenthesized wanted inner) = contents inner := by
  cases wanted <;> simp [parenthesized, lasting]

def stepContents (steps : List (BinaryOp × Expr)) : Kinds :=
  steps.flatMap (fun step => .operator step.1 :: contents step.2.kinds)

/-- Operations joined from the left have their contents in the order in which they were read. -/
theorem contents_foldl_join (first : Expr) (steps : List (BinaryOp × Expr)) :
    contents (steps.foldl join first).kinds = contents first.kinds ++ stepContents steps := by
  induction steps generalizing first with
  | nil => simp [stepContents]
  | cons step steps ih => simp [ih, join, Expr.kinds, stepContents, lasting]

variable {follow : Follow}

mutual

/-- An expression keeps the contents of what it is read from. -/
theorem Operand.contents_eq {level : Nat} {input rest : Kinds} {expr : Expr}
    (h : Operand follow level input expr rest) :
    contents input = contents expr.kinds ++ contents rest := by
  match h with
  | .primary inner => exact inner.contents_eq
  | .joined left steps =>
      rw [left.contents_eq, steps.contents_eq, contents_foldl_join, List.append_assoc]

theorem Steps.contents_eq {level : Nat} {input rest : Kinds} {steps : List (BinaryOp × Expr)}
    (h : Steps follow level input steps rest) :
    contents input = stepContents steps ++ contents rest := by
  match h with
  | .nil _ _ => rfl
  | .cons known operand others =>
      simp [operand.contents_eq, others.contents_eq, stepContents, lasting]

/-- A group has the contents of what is in it, and a call those of its arguments. -/
theorem Primary.contents_eq {input rest : Kinds} {expr : Expr} (h : Primary follow input expr rest) :
    contents input = contents expr.kinds ++ contents rest := by
  match h with
  | .literal _ _ | .reference _ _ => simp [Expr.kinds, lasting]
  | .call _ inner => simp [inner.contents_eq, Expr.kinds, lasting]
  | .group inner => simp [inner.contents_eq, lasting]

theorem Arguments.contents_eq {input rest : Kinds} {values : List Expr}
    (h : Arguments follow input values rest) :
    contents input = contents (Expr.argumentKinds values) ++ contents rest := by
  match h with
  | .none _ => simp [Expr.argumentKinds, lasting]
  | .some inner => exact inner.contents_eq

theorem Values.contents_eq {input rest : Kinds} {values : List Expr}
    (h : Values follow input values rest) :
    contents input = contents (Expr.argumentKinds values) ++ contents rest := by
  match h with
  | .last inner => simp [inner.contents_eq, Expr.argumentKinds, lasting]
  | .more inner others =>
      have hOthers := others.contents_eq
      cases others <;> simp [inner.contents_eq, hOthers, Expr.argumentKinds, lasting]

end

theorem Names.contents_eq {input rest : Kinds} {names : List Name} (h : Names input names rest) :
    contents input = contents (Stmt.parameterKinds names) ++ contents rest := by
  induction h with
  | last name rest => simp [Stmt.parameterKinds, lasting]
  | more name others ih => cases others <;> simp [ih, Stmt.parameterKinds, lasting]

theorem Parameters.contents_eq {input rest : Kinds} {names : List Name}
    (h : Parameters input names rest) :
    contents input = contents (Stmt.parameterKinds names) ++ contents rest := by
  cases h with
  | none => simp [Stmt.parameterKinds, lasting]
  | some inner => exact inner.contents_eq

theorem Condition.contents_eq {input rest : Kinds} {test : Expr}
    (h : Condition follow input test rest) :
    contents input = contents test.kinds ++ contents rest := by
  cases h with
  | group inner => simp [inner.contents_eq, lasting]

mutual

/-- An `else` without statements has no contents, which is why it may be missing in the printed
text. -/
theorem Statement.contents_eq {input rest : Kinds} {stmt : Stmt}
    (h : Statement follow input stmt rest) :
    contents input = contents stmt.kinds ++ contents rest := by
  match h with
  | .function _ parameters inner =>
      simp [parameters.contents_eq, inner.contents_eq, Stmt.kinds, lasting]
  | .declare _ inner | .assign _ inner | .yield inner | .evaluate inner =>
      simp [inner.contents_eq, Stmt.kinds, lasting]
  | .loop condition inner =>
      simp [condition.contents_eq, inner.contents_eq, Stmt.kinds, lasting]
  | .branch condition inner =>
      simp [condition.contents_eq, inner.contents_eq, Stmt.kinds, lasting]
  | @Statement.otherwise _ _ _ _ _ _ _ negative condition first second =>
      -- An empty second block is not printed, but nothing of it is kept either.
      have hSecond := second.contents_eq
      cases negative <;>
        simp [condition.contents_eq, first.contents_eq, hSecond, Stmt.kinds, Stmt.blockKinds, lasting]

/-- Semicolons between statements leave no trace. -/
theorem Braced.contents_eq {input rest : Kinds} {block : Block} (h : Braced follow input block rest) :
    contents input = contents (Stmt.blockKinds block) ++ contents rest := by
  match h with
  | .group inner => simp [inner.contents_eq, lasting]

/-- A program keeps the contents of what it is read from. -/
theorem Statements.contents_eq {input rest : Kinds} {block : Block}
    (h : Statements follow input block rest) :
    contents input = contents (Stmt.blockKinds block) ++ contents rest := by
  match h with
  | .nil _ => rfl
  | .semicolon others => simp [others.contents_eq, lasting]
  | .cons first others => simp [first.contents_eq, others.contents_eq, Stmt.blockKinds]

end

end IntScript.Grammar
