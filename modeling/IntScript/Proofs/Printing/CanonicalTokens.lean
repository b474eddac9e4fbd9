import IntScript.Program.Printer
import IntScript.Proofs.Grammar.Completeness

/-! The tokens of a printed program, and what they derive. Printing keeps the tree but for one thing:
a line break is no token, so a statement that ends with a variable and a next one that begins with a
parenthesis touch. -/
namespace IntScript

open Grammar

/-- The tokens of an operand, in parentheses if they are wanted. -/
def Grammar.parenthesized (wanted : Bool) (inner : Kinds) : Kinds :=
  if wanted then .delimiter .openParen :: inner ++ [.delimiter .closeParen] else inner

namespace Expr

mutual

def kinds : Expr → Kinds
  | literal value => [.integer value]
  | reference name => [.identifier name]
  | call callee arguments =>
      .identifier callee :: .delimiter .openParen :: argumentKinds arguments ++ [.delimiter .closeParen]
  | binary op left right =>
      parenthesized (left.needsParentheses op false) (kinds left) ++
        .operator op :: parenthesized (right.needsParentheses op true) (kinds right)

def argumentKinds : List Expr → Kinds
  | [] => []
  | [argument] => kinds argument
  | argument :: others => kinds argument ++ .delimiter .comma :: argumentKinds others

end

/-- The printed expression ends with a variable: its rightmost leaf is one and not in parentheses. -/
def endsWithVariable : Expr → Bool
  | reference _ => true
  | binary op _ right => !right.needsParentheses op true && right.endsWithVariable
  | literal _ | call _ _ => false

/-- The printed expression begins with a parenthesis: its leftmost operand is in parentheses. -/
def beginsWithParenthesis : Expr → Bool
  | binary op left _ => left.needsParentheses op false || left.beginsWithParenthesis
  | literal _ | reference _ | call _ _ => false

/-- The tightest level that the expression belongs to. -/
def level : Expr → Nat
  | binary op _ _ => op.precedence
  | literal _ | reference _ | call _ _ => 0

theorem precedence_pos (op : BinaryOp) : 0 < op.precedence := by
  cases op <;> decide

/-- Only what binds looser is put in parentheses on the left. -/
theorem needsParentheses_left (op : BinaryOp) (left : Expr) :
    left.needsParentheses op false ↔ op.precedence < left.level := by
  cases left <;> simp [needsParentheses, level]

/-- On the right this is also done for what binds as loosely, since operators group to the left. -/
theorem needsParentheses_right (op : BinaryOp) (right : Expr) :
    right.needsParentheses op true ↔ op.precedence ≤ right.level := by
  cases right with
  | binary inner _ _ =>
      simp only [needsParentheses, level, Bool.true_and, Bool.or_eq_true, decide_eq_true_eq, beq_iff_eq]
      omega
  | _ => simpa [needsParentheses, level] using Nat.ne_of_gt (precedence_pos op)

/-- An operand that stands bare left of an operator is of its level or of a tighter one. -/
theorem level_le_of_bare_left {op : BinaryOp} {left : Expr} (h : left.needsParentheses op false = false) :
    left.level ≤ op.precedence := by
  have hLoose := mt (needsParentheses_left op left).mpr
  rw [h] at hLoose
  exact Nat.le_of_not_lt (hLoose Bool.false_ne_true)

/-- An operand that stands bare right of an operator is of a tighter level. -/
theorem level_le_of_bare_right {op : BinaryOp} {right : Expr}
    (h : right.needsParentheses op true = false) : right.level ≤ op.precedence - 1 := by
  have hLoose := mt (needsParentheses_right op right).mpr
  rw [h] at hLoose
  exact Nat.le_sub_one_of_lt (Nat.lt_of_not_le (hLoose Bool.false_ne_true))

theorem level_le_loosest (expr : Expr) : expr.level ≤ loosest := by
  cases expr with
  | binary op _ _ =>
      rw [level]
      cases op <;> decide
  | _ => exact Nat.zero_le _

end Expr

section

variable {follow : Follow}

/-- Operands of the right levels derive the expression that an operator makes of them. -/
theorem Grammar.Operand.binary {op : BinaryOp} {left right : Expr} {input middle rest : Kinds}
    {level : Nat} (hLeft : Operand follow op.precedence input left (.operator op :: middle))
    (hRight : Operand follow (op.precedence - 1) middle right rest) (hLevel : op.precedence ≤ level) :
    Operand follow level input (.binary op left right) rest := by
  obtain ⟨tighter, hTighter⟩ := Nat.exists_eq_add_one.mpr (Expr.precedence_pos op)
  have hKnown : op ∈ operators (tighter + 1) := (Parser.mem_operators_iff _ _).mpr hTighter
  rw [hTighter] at hLeft hRight
  exact (hLeft.snoc hKnown hRight).looser (hTighter ▸ hLevel)

/-- An operand that its tokens derive is derived by them at any level once they are in parentheses. -/
theorem Grammar.Operand.inParentheses (hFollow : ∀ rest, unopened rest → follow rest)
    {operand : Expr} {tokens : Kinds} {ends : Prop}
    (hTokens : ∀ level, operand.level ≤ level → ∀ rest, (ends → follow rest) →
      Operand follow level (tokens ++ rest) operand rest)
    {wanted : Bool} {level : Nat} (hLevel : wanted = false → operand.level ≤ level) (rest : Kinds)
    (hRest : wanted = false → ends → follow rest) :
    Operand follow level (parenthesized wanted tokens ++ rest) operand rest := by
  cases wanted with
  | false => exact hTokens level (hLevel rfl) rest (hRest rfl)
  | true =>
      simp only [parenthesized, if_true, List.cons_append, List.append_assoc, List.nil_append]
      refine (Operand.primary (Primary.group ?_)).looser (Nat.zero_le _)
      exact hTokens _ operand.level_le_loosest _ (fun _ => hFollow _ (by simp [unopened]))

mutual

/-- The tokens of a printed expression derive it, before anything that may stand after its last
variable if it ends with one. -/
theorem Expr.derives (hFollow : ∀ rest, unopened rest → follow rest) (expr : Expr) (level : Nat)
    (hLevel : expr.level ≤ level) (rest : Kinds) (hRest : expr.endsWithVariable → follow rest) :
    Operand follow level (expr.kinds ++ rest) expr rest := by
  match expr with
  | .literal value => exact (Operand.primary (Primary.literal value rest)).looser (Nat.zero_le _)
  | .reference name =>
      exact (Operand.primary (Primary.reference name (hRest rfl))).looser (Nat.zero_le _)
  | .call callee arguments =>
      have hInner : Arguments follow
          (Expr.argumentKinds arguments ++ .delimiter .closeParen :: rest) arguments rest := by
        match hArguments : arguments with
        | [] => exact Arguments.none rest
        | value :: others =>
            exact Arguments.some (Expr.argumentsDerive hFollow (value :: others) value others rfl rest)
      simp only [Expr.kinds, List.cons_append, List.append_assoc, List.nil_append]
      exact (Operand.primary (Primary.call callee hInner)).looser (Nat.zero_le _)
  | .binary op left right =>
      have hLeft (others : Kinds) : Operand follow op.precedence
          (parenthesized (left.needsParentheses op false) left.kinds ++ .operator op :: others) left
          (.operator op :: others) :=
        Operand.inParentheses hFollow (Expr.derives hFollow left) Expr.level_le_of_bare_left _
          (fun _ _ => hFollow _ (unopened_operator op others))
      have hRight : Operand follow (op.precedence - 1)
          (parenthesized (right.needsParentheses op true) right.kinds ++ rest) right rest := by
        refine Operand.inParentheses hFollow (Expr.derives hFollow right) Expr.level_le_of_bare_right _
          (fun hBare hEnds => hRest ?_)
        rw [Expr.endsWithVariable, hBare, hEnds]
        rfl
      simp only [Expr.kinds, List.append_assoc, List.cons_append]
      exact (hLeft _).binary hRight hLevel

/-- Arguments that are printed are derived again, each at the loosest level. -/
theorem Expr.argumentsDerive (hFollow : ∀ rest, unopened rest → follow rest) (values : List Expr)
    (first : Expr) (others : List Expr) (hValues : values = first :: others) (rest : Kinds) :
    Values follow (Expr.argumentKinds values ++ .delimiter .closeParen :: rest) values rest := by
  match values with
  | [value] =>
      refine Values.last ?_
      exact Expr.derives hFollow value _ value.level_le_loosest _
        (fun _ => hFollow _ (by simp [unopened]))
  | value :: next :: further =>
      have hOthers := Expr.argumentsDerive hFollow (next :: further) next further rfl rest
      simp only [Expr.argumentKinds, List.append_assoc, List.cons_append]
      refine Values.more ?_ hOthers
      exact Expr.derives hFollow value _ value.level_le_loosest _
        (fun _ => hFollow _ (by simp [unopened]))

end

end

namespace Stmt

def parameterKinds : List Name → Kinds
  | [] => []
  | [name] => [.identifier name]
  | name :: others => .identifier name :: .delimiter .comma :: parameterKinds others

mutual

def kinds : Stmt → Kinds
  | function name parameters body =>
      .keyword .function :: .identifier name :: .delimiter .openParen :: parameterKinds parameters ++
        .delimiter .closeParen :: .delimiter .openBrace :: blockKinds body ++ [.delimiter .closeBrace]
  | declare name value => .keyword .declare :: .identifier name :: .delimiter .assign :: value.kinds
  | loop condition body =>
      .keyword .loop :: .delimiter .openParen :: condition.kinds ++
        .delimiter .closeParen :: .delimiter .openBrace :: blockKinds body ++ [.delimiter .closeBrace]
  | branch condition positive negative =>
      .keyword .branch :: .delimiter .openParen :: condition.kinds ++
        .delimiter .closeParen :: .delimiter .openBrace :: blockKinds positive ++
        .delimiter .closeBrace ::
          (if negative.isEmpty then []
            else .keyword .otherwise :: .delimiter .openBrace :: blockKinds negative ++
              [.delimiter .closeBrace])
  | assign name value => .identifier name :: .delimiter .assign :: value.kinds
  | yield value => .keyword .yield :: value.kinds
  | evaluate value => value.kinds

def blockKinds : List Stmt → Kinds
  | [] => []
  | stmt :: others => kinds stmt ++ blockKinds others

end

def endsWithVariable : Stmt → Bool
  | declare _ value | assign _ value | yield value | evaluate value => value.endsWithVariable
  | function _ _ _ | loop _ _ | branch _ _ _ => false

def beginsWithParenthesis : Stmt → Bool
  | evaluate value => value.beginsWithParenthesis
  | function _ _ _ | declare _ _ | loop _ _ | branch _ _ _ | assign _ _ | yield _ => false

/-- The statement, once printed, ends with a variable, and the next one begins with a parenthesis. -/
def touches (stmt : Stmt) : List Stmt → Bool
  | [] => false
  | next :: _ => stmt.endsWithVariable && next.beginsWithParenthesis

mutual

def clashes : Stmt → Bool
  | function _ _ body | loop _ body => blockClashes body
  | branch _ positive negative => blockClashes positive || blockClashes negative
  | declare _ _ | assign _ _ | yield _ | evaluate _ => false

/-- Two neighbours touch in a list of statements, or in a block inside one of them. -/
def blockClashes : List Stmt → Bool
  | [] => false
  | stmt :: others => clashes stmt || stmt.touches others || blockClashes others

end

end Stmt

/-- Somewhere in the program, at any depth, a statement that ends with a variable stands before one
that begins with a parenthesis. -/
abbrev Block.clashes (block : Block) : Bool :=
  Stmt.blockClashes block

/-- An expression is never empty, so what follows it has no say in this. -/
theorem Expr.unopened_kinds (expr : Expr) (rest : Kinds) :
    unopened (expr.kinds ++ rest) ↔ expr.beginsWithParenthesis = false := by
  match expr with
  | .literal _ | .reference _ | .call _ _ =>
      simp [Expr.kinds, unopened, Expr.beginsWithParenthesis]
  | .binary op left right =>
      have ih := Expr.unopened_kinds left
      cases hWanted : left.needsParentheses op false with
      | true => simp [Expr.kinds, unopened, Expr.beginsWithParenthesis, parenthesized, hWanted]
      | false => simp [Expr.kinds, Expr.beginsWithParenthesis, parenthesized, hWanted, ih]

/-- A keyword in front is no parenthesis. -/
theorem Stmt.unopened_kinds (stmt : Stmt) (rest : Kinds) :
    unopened (stmt.kinds ++ rest) ↔ stmt.beginsWithParenthesis = false := by
  cases stmt with
  | evaluate value => exact value.unopened_kinds rest
  | _ => simp [Stmt.kinds, unopened, Stmt.beginsWithParenthesis]

/-- A token in front that is no identifier has no part in how the row ends. -/
theorem Grammar.exists_getLast?_cons {kind : TokenKind Name} (hKind : ∀ name, kind ≠ .identifier name)
    (kinds : Kinds) : (∃ name, (kind :: kinds).getLast? = some (.identifier name)) ↔
      ∃ name, kinds.getLast? = some (.identifier name) := by
  rw [List.getLast?_cons]
  cases kinds.getLast? with
  | none => simp [hKind]
  | some last => simp

/-- Calls end with a parenthesis, so an identifier at the end is always a variable. -/
theorem Expr.endsWithVariable_iff (expr : Expr) :
    expr.endsWithVariable ↔ ∃ name, expr.kinds.getLast? = some (.identifier name) := by
  match expr with
  | .literal _ | .reference _ => simp [Expr.kinds, Expr.endsWithVariable]
  | .call _ _ => simp [Expr.kinds, Expr.endsWithVariable, List.getLast?_cons]
  | .binary op left right =>
      have ih := Expr.endsWithVariable_iff right
      cases hWanted : right.needsParentheses op true with
      | true =>
          simp [Expr.kinds, Expr.endsWithVariable, parenthesized, hWanted, List.getLast?_cons]
      | false =>
          rw [Expr.endsWithVariable, hWanted, Bool.not_false, Bool.true_and, ih,
            ← exists_getLast?_cons (fun _ => nofun : ∀ name, TokenKind.operator op ≠ .identifier name)]
          simp [Expr.kinds, parenthesized, hWanted]

/-- The last token of a printed statement is an identifier exactly when it ends with a variable. -/
theorem Stmt.endsWithVariable_iff (stmt : Stmt) :
    stmt.endsWithVariable ↔ ∃ name, stmt.kinds.getLast? = some (.identifier name) := by
  cases stmt with
  | evaluate value => exact value.endsWithVariable_iff
  | declare name value | assign name value =>
      rw [Stmt.endsWithVariable, value.endsWithVariable_iff,
        ← exists_getLast?_cons (fun _ => nofun : ∀ name, TokenKind.delimiter .assign ≠ .identifier name)]
      simp [Stmt.kinds]
  | yield value =>
      rw [Stmt.endsWithVariable, value.endsWithVariable_iff, Stmt.kinds,
        exists_getLast?_cons (fun _ => nofun : ∀ name, TokenKind.keyword .yield ≠ .identifier name)]
  | function name parameters body =>
      simp [Stmt.kinds, Stmt.endsWithVariable, List.getLast?_cons]
  | loop condition body => simp [Stmt.kinds, Stmt.endsWithVariable, List.getLast?_cons]
  | branch condition positive negative =>
      cases negative with
      | nil => simp [Stmt.kinds, Stmt.endsWithVariable, List.getLast?_cons]
      | cons first others => simp [Stmt.kinds, Stmt.endsWithVariable, List.getLast?_cons]

/-- A variable at the end of a statement is followed by an opening parenthesis exactly when the
statement touches the next one. -/
theorem Stmt.unopened_blockKinds {stmt : Stmt} {others : Block} {rest : Kinds}
    (hTouches : stmt.touches others = false) (hRest : unopened rest)
    (hEnds : stmt.endsWithVariable) : unopened (Stmt.blockKinds others ++ rest) := by
  cases others with
  | nil => exact hRest
  | cons next further =>
      rw [Stmt.touches, hEnds, Bool.true_and] at hTouches
      rw [Stmt.blockKinds, List.append_assoc]
      exact (next.unopened_kinds _).mpr hTouches

/-- Names are printed with commas between them and derived as such. -/
theorem Stmt.parametersDerive (names : List Name) (rest : Kinds) :
    Parameters (Stmt.parameterKinds names ++ .delimiter .closeParen :: rest) names rest := by
  cases names with
  | nil => exact Parameters.none rest
  | cons name others =>
      refine Parameters.some ?_
      induction others generalizing name with
      | nil => exact Names.last name rest
      | cons next further ih => exact Names.more name (ih next)

section

variable {follow : Follow}

/-- The parenthesis closes the condition, so a variable at its end does no harm. -/
theorem Expr.conditionDerives (hFollow : ∀ rest, unopened rest → follow rest) (test : Expr)
    (rest : Kinds) :
    Condition follow (.delimiter .openParen :: (test.kinds ++ .delimiter .closeParen :: rest)) test
      rest :=
  Condition.group (Expr.derives hFollow test _ test.level_le_loosest _
    (fun _ => hFollow _ (by simp [unopened])))

mutual

/-- The tokens of a statement derive it, unless neighbours touch in a block inside it and the
grammar asks that a variable has no parenthesis after it. -/
theorem Stmt.derives (hFollow : ∀ rest, unopened rest → follow rest) (stmt : Stmt) (rest : Kinds)
    (hSeparate : stmt.clashes = false ∨ ∀ rest, follow rest)
    (hRest : stmt.endsWithVariable → follow rest) :
    Statement follow (stmt.kinds ++ rest) stmt rest := by
  match stmt with
  | .function name parameters body =>
      have hBody := Stmt.bracedDerives hFollow body rest hSeparate
      simp only [Stmt.kinds, List.append_assoc, List.cons_append, List.nil_append]
      exact Statement.function name (Stmt.parametersDerive parameters _) hBody
  | .declare name value =>
      exact Statement.declare name
        (Expr.derives hFollow value _ value.level_le_loosest rest hRest)
  | .loop test body =>
      have hBody := Stmt.bracedDerives hFollow body rest hSeparate
      simp only [Stmt.kinds, List.append_assoc, List.cons_append, List.nil_append]
      exact Statement.loop (Expr.conditionDerives hFollow test _) hBody
  | .branch test positive negative =>
      rw [Stmt.clashes, Bool.or_eq_false_iff] at hSeparate
      have hPositive (rest : Kinds) :=
        Stmt.bracedDerives hFollow positive rest (hSeparate.imp_left (·.1))
      have hNegative := Stmt.bracedDerives hFollow negative rest (hSeparate.imp_left (·.2))
      simp only [Stmt.kinds, List.append_assoc, List.cons_append]
      cases negative with
      | nil => exact Statement.branch (Expr.conditionDerives hFollow test _) (hPositive rest)
      | cons first others =>
          simp only [List.isEmpty_cons, Bool.false_eq_true, if_false, List.append_assoc,
            List.cons_append, List.nil_append]
          exact Statement.otherwise (Expr.conditionDerives hFollow test _) (hPositive _) hNegative
  | .assign name value =>
      exact Statement.assign name
        (Expr.derives hFollow value _ value.level_le_loosest rest hRest)
  | .yield value =>
      exact Statement.yield (Expr.derives hFollow value _ value.level_le_loosest rest hRest)
  | .evaluate value =>
      exact Statement.evaluate (Expr.derives hFollow value _ value.level_le_loosest rest hRest)

/-- The brace at the end separates the last statement from whatever comes next. -/
theorem Stmt.bracedDerives (hFollow : ∀ rest, unopened rest → follow rest) (block : Block)
    (rest : Kinds) (hSeparate : block.clashes = false ∨ ∀ rest, follow rest) :
    Braced follow
      (.delimiter .openBrace :: (Stmt.blockKinds block ++ .delimiter .closeBrace :: rest)) block rest :=
  Braced.group (Stmt.blockDerives hFollow block _ (by simp [unopened]) hSeparate)

/-- The tokens of a printed block derive it if no neighbours touch, or if they may. -/
theorem Stmt.blockDerives (hFollow : ∀ rest, unopened rest → follow rest) (block : Block)
    (rest : Kinds) (hRest : unopened rest) (hSeparate : block.clashes = false ∨ ∀ rest, follow rest) :
    Statements follow (Stmt.blockKinds block ++ rest) block rest := by
  match block with
  | [] => exact Statements.nil rest
  | stmt :: others =>
      rw [Block.clashes, Stmt.blockClashes, Bool.or_eq_false_iff, Bool.or_eq_false_iff] at hSeparate
      have hOthers := Stmt.blockDerives hFollow others rest hRest (hSeparate.imp_left (·.2))
      rw [Stmt.blockKinds, List.append_assoc]
      refine Statements.cons
        (Stmt.derives hFollow stmt _ (hSeparate.imp_left (·.1.1)) (fun hEnds => ?_)) hOthers
      rcases hSeparate with hClashes | hAny
      · exact hFollow _ (Stmt.unopened_blockKinds hClashes.1.2 hRest hEnds)
      · exact hAny _

end

end

end IntScript
