import IntScript.Program.Source

/-!
The grammar of programs, as relations between a row of token kinds, the tree that a first part of it
derives, and the kinds after that part.

Nothing here says how a derivation is found. Only one thing is left open: what may stand after a
variable. With `unopened` an identifier before an opening parenthesis is never a variable, which is
how programs are read; without any condition the relations are the plain grammar, in which a variable
may end one statement and a parenthesis begin the next.
-/

namespace IntScript.Grammar

/-- A row of tokens without their places. -/
abbrev Kinds := List (TokenKind Name)

/-- What may stand after a variable. -/
abbrev Follow := Kinds → Prop

def unopened : Follow :=
  fun rest => rest.head? ≠ some (.delimiter .openParen)

def anything : Follow :=
  fun _ => True

/-- The operators that join the operands of a level, from the tightest level 1 to the loosest level
6. -/
def operators : Nat → List BinaryOp
  | 1 => [.mul, .div, .mod]
  | 2 => [.add, .sub]
  | 3 => [.gt, .lt, .ge, .le]
  | 4 => [.eq, .ne]
  | 5 => [.and]
  | 6 => [.or]
  | _ => []

def loosest : Nat := 6

/-- Join an operator and its right operand to what stands left of them. -/
def join (left : Expr) (step : BinaryOp × Expr) : Expr :=
  .binary step.1 left step.2

section

variable (follow : Follow)

mutual

/-- `operand(n + 1) := operand(n) (operator(n + 1) operand(n))*`, where level 0 are the primaries. The
repetitions are joined from the left. -/
inductive Operand : Nat → Kinds → Expr → Kinds → Prop where
  | primary {input rest : Kinds} {expr : Expr}
      (inner : Primary input expr rest) :
      Operand 0 input expr rest
  | joined {level : Nat} {input middle rest : Kinds} {first : Expr} {steps : List (BinaryOp × Expr)}
      (left : Operand level input first middle) (right : Steps level middle steps rest) :
      Operand (level + 1) input (steps.foldl join first) rest

/-- `(operator(n + 1) operand(n))*` -/
inductive Steps : Nat → Kinds → List (BinaryOp × Expr) → Kinds → Prop where
  | nil (level : Nat) (rest : Kinds) :
      Steps level rest [] rest
  | cons {level : Nat} {op : BinaryOp} {input middle rest : Kinds} {right : Expr}
      {steps : List (BinaryOp × Expr)} (known : op ∈ operators (level + 1))
      (operand : Operand level input right middle) (others : Steps level middle steps rest) :
      Steps level (.operator op :: input) ((op, right) :: steps) rest

/-- `primary := INT | IDENT "(" arguments | IDENT | "(" expr ")"` -/
inductive Primary : Kinds → Expr → Kinds → Prop where
  | literal (value : Int32) (rest : Kinds) :
      Primary (.integer value :: rest) (.literal value) rest
  | reference (name : Name) {rest : Kinds} (free : follow rest) :
      Primary (.identifier name :: rest) (.reference name) rest
  | call (callee : Name) {input rest : Kinds} {values : List Expr}
      (inner : Arguments input values rest) :
      Primary (.identifier callee :: .delimiter .openParen :: input) (.call callee values) rest
  | group {input rest : Kinds} {expr : Expr}
      (inner : Operand loosest input expr (.delimiter .closeParen :: rest)) :
      Primary (.delimiter .openParen :: input) expr rest

/-- `arguments := (expr ("," expr)*)? ")"` -/
inductive Arguments : Kinds → List Expr → Kinds → Prop where
  | none (rest : Kinds) :
      Arguments (.delimiter .closeParen :: rest) [] rest
  | some {input rest : Kinds} {values : List Expr} (inner : Values input values rest) :
      Arguments input values rest

/-- `expr ("," expr)* ")"` -/
inductive Values : Kinds → List Expr → Kinds → Prop where
  | last {input rest : Kinds} {value : Expr}
      (inner : Operand loosest input value (.delimiter .closeParen :: rest)) :
      Values input [value] rest
  | more {input middle rest : Kinds} {value : Expr} {values : List Expr}
      (inner : Operand loosest input value (.delimiter .comma :: middle))
      (others : Values middle values rest) :
      Values input (value :: values) rest

end

/-- `name ("," name)* ")"` -/
inductive Names : Kinds → List Name → Kinds → Prop where
  | last (name : Name) (rest : Kinds) :
      Names (.identifier name :: .delimiter .closeParen :: rest) [name] rest
  | more (name : Name) {input rest : Kinds} {names : List Name} (others : Names input names rest) :
      Names (.identifier name :: .delimiter .comma :: input) (name :: names) rest

/-- `parameters := (name ("," name)*)? ")"` -/
inductive Parameters : Kinds → List Name → Kinds → Prop where
  | none (rest : Kinds) :
      Parameters (.delimiter .closeParen :: rest) [] rest
  | some {input rest : Kinds} {names : List Name} (inner : Names input names rest) :
      Parameters input names rest

/-- `condition := "(" expr ")"` -/
inductive Condition : Kinds → Expr → Kinds → Prop where
  | group {input rest : Kinds} {expr : Expr}
      (inner : Operand follow loosest input expr (.delimiter .closeParen :: rest)) :
      Condition (.delimiter .openParen :: input) expr rest

mutual

/-- A statement, without the semicolon that may end it. -/
inductive Statement : Kinds → Stmt → Kinds → Prop where
  | function (name : Name) {input middle rest : Kinds} {names : List Name} {body : Block}
      (parameters : Parameters input names middle) (inner : Braced middle body rest) :
      Statement (.keyword .function :: .identifier name :: .delimiter .openParen :: input)
        (.function name names body) rest
  | declare (name : Name) {input rest : Kinds} {value : Expr}
      (inner : Operand follow loosest input value rest) :
      Statement (.keyword .declare :: .identifier name :: .delimiter .assign :: input)
        (.declare name value) rest
  | loop {input middle rest : Kinds} {test : Expr} {body : Block}
      (condition : Condition follow input test middle) (inner : Braced middle body rest) :
      Statement (.keyword .loop :: input) (.loop test body) rest
  | branch {input middle rest : Kinds} {test : Expr} {positive : Block}
      (condition : Condition follow input test middle) (inner : Braced middle positive rest) :
      Statement (.keyword .branch :: input) (.branch test positive []) rest
  | otherwise {input middle between rest : Kinds} {test : Expr} {positive negative : Block}
      (condition : Condition follow input test middle)
      (first : Braced middle positive (.keyword .otherwise :: between))
      (second : Braced between negative rest) :
      Statement (.keyword .branch :: input) (.branch test positive negative) rest
  | assign (name : Name) {input rest : Kinds} {value : Expr}
      (inner : Operand follow loosest input value rest) :
      Statement (.identifier name :: .delimiter .assign :: input) (.assign name value) rest
  | yield {input rest : Kinds} {value : Expr} (inner : Operand follow loosest input value rest) :
      Statement (.keyword .yield :: input) (.yield value) rest
  | evaluate {input rest : Kinds} {value : Expr} (inner : Operand follow loosest input value rest) :
      Statement input (.evaluate value) rest

/-- `block := "{" stmt* "}"` -/
inductive Braced : Kinds → Block → Kinds → Prop where
  | group {input rest : Kinds} {block : Block}
      (inner : Statements input block (.delimiter .closeBrace :: rest)) :
      Braced (.delimiter .openBrace :: input) block rest

/-- `stmt*`. Semicolons may stand before, between and after the statements, in any number. -/
inductive Statements : Kinds → Block → Kinds → Prop where
  | nil (rest : Kinds) :
      Statements rest [] rest
  | semicolon {input rest : Kinds} {block : Block} (others : Statements input block rest) :
      Statements (.delimiter .semicolon :: input) block rest
  | cons {input middle rest : Kinds} {stmt : Stmt} {block : Block}
      (first : Statement input stmt middle) (others : Statements middle block rest) :
      Statements input (stmt :: block) rest

end

end

/-- `program := stmt*`, up to the end of the row. -/
def Program (follow : Follow) (input : Kinds) (block : Block) : Prop :=
  Statements follow input block []

theorem unopened_operator (op : BinaryOp) (rest : Kinds) : unopened (.operator op :: rest) := by
  simp [unopened]

theorem unopened_delimiter {delimiter : Delimiter} (h : delimiter ≠ .openParen) (rest : Kinds) :
    unopened (.delimiter delimiter :: rest) := by
  simpa [unopened] using h

/-- Every operator has a level, so that no token spells one which the grammar does not know. -/
theorem exists_level (op : BinaryOp) : ∃ level, level < loosest ∧ op ∈ operators (level + 1) := by
  cases op with
  | mul | div | mod => exact ⟨0, by decide⟩
  | add | sub => exact ⟨1, by decide⟩
  | gt | lt | ge | le => exact ⟨2, by decide⟩
  | eq | ne => exact ⟨3, by decide⟩
  | and => exact ⟨4, by decide⟩
  | or => exact ⟨5, by decide⟩

section

variable {follow : Follow}

/-- An operand of a level is one of each looser level. -/
theorem Operand.looser {level larger : Nat} {input rest : Kinds} {expr : Expr}
    (h : Operand follow level input expr rest) (hLe : level ≤ larger) :
    Operand follow larger input expr rest := by
  induction hLe with
  | refl => exact h
  | step _ ih => exact Operand.joined ih (Steps.nil _ _)

/-- Steps are read from the left but derived from the right, and this joins the two. -/
theorem Steps.snoc {level : Nat} {input middle rest : Kinds} {steps : List (BinaryOp × Expr)}
    {op : BinaryOp} {right : Expr}
    (h : Steps follow level input steps (.operator op :: middle)) (known : op ∈ operators (level + 1))
    (operand : Operand follow level middle right rest) :
    Steps follow level input (steps ++ [(op, right)]) rest := by
  induction steps generalizing input with
  | nil =>
      cases h with
      | nil => exact Steps.cons known operand (Steps.nil _ _)
  | cons step steps ih =>
      cases h with
      | cons first operand' others => exact Steps.cons first operand' (ih others)

/-- One more operand joins from the left. -/
theorem Operand.snoc {level : Nat} {input middle rest : Kinds} {op : BinaryOp} {left right : Expr}
    (h : Operand follow (level + 1) input left (.operator op :: middle))
    (known : op ∈ operators (level + 1)) (operand : Operand follow level middle right rest) :
    Operand follow (level + 1) input (.binary op left right) rest := by
  cases h with
  | joined first steps =>
      have hJoined := Operand.joined first (steps.snoc known operand)
      rwa [List.foldl_append] at hJoined

end

end IntScript.Grammar
