import IntScript.Proofs.Grammar.Reading

/-! Whatever is read has a derivation: the recursion of each proof is that of the reading steps. -/
namespace IntScript.Parser

open Grammar

variable {bound : Nat}

mutual

/-- By induction on the level, as the grammar defines its operands. -/
theorem operand_sound (stop : Span) (level : Nat) (tokens : Tokens) (bound : Nat)
    (fits : tokens.length ≤ bound) (expr : Expr) (rest : Tokens)
    (h : Reads (operand stop level tokens fits) expr rest) :
    Operand unopened level (kinds tokens) expr (kinds rest) := by
  match level, h with
  | 0, h =>
      rw [reads_operand_zero] at h
      exact Operand.primary (primary_sound stop tokens bound fits expr rest h)
  | level + 1, h =>
      rw [reads_operand_succ] at h
      obtain ⟨left, middle, hLeft, hOthers⟩ := h
      have hFirst := operand_sound stop level tokens bound fits left middle hLeft
      obtain ⟨steps, hSteps, rfl⟩ :=
        operations_sound stop level left middle bound hLeft.shorter expr rest hOthers
      exact Operand.joined hFirst hSteps
termination_by (bound, level + 1)
decreasing_by
  · exact Prod.Lex.right _ (Nat.succ_pos _)
  · exact Prod.Lex.right _ (Nat.lt_succ_self _)
  · exact Prod.Lex.left _ _ hLeft.shorter

/-- Steps are joined from the left as they are read, and the derivation holds the whole row of them. -/
theorem operations_sound (stop : Span) (level : Nat) (left : Expr) (tokens : Tokens) (bound : Nat)
    (shorter : tokens.length < bound) (expr : Expr) (rest : Tokens)
    (h : Reads (operations stop level left tokens shorter) expr rest) :
    ∃ steps, Steps unopened level (kinds tokens) steps (kinds rest) ∧ expr = steps.foldl join left := by
  rw [reads_operations] at h
  rcases h with ⟨_, rfl, rfl⟩ | ⟨op, span, others, right, middle, hTokens, hMem, hRight, fewer, hOthers⟩
  · exact ⟨[], Steps.nil _ _, rfl⟩
  · have hOperand := operand_sound stop level others _ _ right middle hRight
    obtain ⟨steps, hSteps, rfl⟩ := operations_sound stop level _ middle bound fewer expr rest hOthers
    exact ⟨(op, right) :: steps, hTokens ▸ Steps.cons hMem hOperand hSteps, rfl⟩
termination_by (tokens.length, 0)
decreasing_by
  · exact Prod.Lex.left _ _ (hTokens ▸ Nat.lt_succ_self _)
  · exact Prod.Lex.left _ _ (hTokens ▸ Nat.lt_succ_of_lt hRight.shorter)

/-- An identifier without a parenthesis after it becomes a variable, which is the condition that the
greedy grammar has. -/
theorem primary_sound (stop : Span) (tokens : Tokens) (bound : Nat) (fits : tokens.length ≤ bound)
    (expr : Expr) (rest : Tokens) (h : Reads (primary stop tokens fits) expr rest) :
    Primary unopened (kinds tokens) expr (kinds rest) := by
  obtain ⟨kind, span, others, rfl, ⟨value, rfl⟩ | ⟨name, rfl⟩ | rfl⟩ := h.beginsPrimary
  · obtain ⟨rfl, rfl⟩ := (reads_primary_integer ..).mp h
    exact Primary.literal value _
  · rcases (reads_primary_identifier ..).mp h with
      ⟨hFree, rfl, rfl⟩ | ⟨opened, input, values, rfl, hInner, rfl⟩
    · exact Primary.reference name hFree
    · exact Primary.call name (arguments_sound stop opened input _ _ values rest hInner)
  · obtain ⟨close, hInner⟩ := (reads_primary_openParen ..).mp h
    exact Primary.group (operand_sound stop _ others _ _ expr _ hInner)
termination_by (bound, 0)
decreasing_by
  · exact Prod.Lex.left _ _ (Nat.lt_of_succ_lt fits)
  · exact Prod.Lex.left _ _ fits

theorem arguments_sound (stop opened : Span) (tokens : Tokens) (bound : Nat)
    (fits : tokens.length ≤ bound) (values : List Expr) (rest : Tokens)
    (h : Reads (arguments stop opened tokens fits) values rest) :
    Arguments unopened (kinds tokens) values (kinds rest) := by
  rcases (reads_arguments ..).mp h with ⟨span, rfl, rfl⟩ | ⟨_, hFurther⟩
  · exact Arguments.none _
  · exact Arguments.some (furtherArguments_sound stop opened tokens bound fits values rest hFurther)
termination_by (bound, BinaryOp.loosest + 3)
decreasing_by
  · exact Prod.Lex.right _ (Nat.lt_succ_self _)

theorem furtherArguments_sound (stop opened : Span) (tokens : Tokens) (bound : Nat)
    (fits : tokens.length ≤ bound) (values : List Expr) (rest : Tokens)
    (h : Reads (furtherArguments stop opened tokens fits) values rest) :
    Values unopened (kinds tokens) values (kinds rest) := by
  obtain ⟨value, span, ⟨hValue, rfl⟩ | ⟨others, further, hValue, hFurther, rfl⟩⟩ :=
    (reads_furtherArguments ..).mp h
  · exact Values.last (operand_sound stop _ tokens bound fits value _ hValue)
  · exact Values.more (operand_sound stop _ tokens bound fits value _ hValue)
      (furtherArguments_sound stop opened others _ _ further rest hFurther)
termination_by (bound, BinaryOp.loosest + 2)
decreasing_by
  · exact Prod.Lex.right _ (Nat.lt_succ_self _)
  · exact Prod.Lex.right _ (Nat.lt_succ_self _)
  · exact Prod.Lex.left _ _ (Nat.lt_of_succ_lt hValue.shorter)

end

theorem expression_sound {stop : Span} {tokens : Tokens} {expr : Expr} {rest : Tokens}
    (h : Reads (expression stop tokens) expr rest) :
    Operand unopened loosest (kinds tokens) expr (kinds rest) :=
  operand_sound stop _ tokens _ _ expr rest h

theorem furtherParameters_sound (stop opened : Span) (tokens : Tokens) (bound : Nat)
    (fits : tokens.length ≤ bound) (names : List Name) (rest : Tokens)
    (h : Reads (furtherParameters stop opened tokens fits) names rest) :
    Names (kinds tokens) names (kinds rest) := by
  obtain ⟨name, place, span, ⟨rfl, rfl⟩ | ⟨others, further, rfl, hFurther, rfl⟩⟩ :=
    (reads_furtherParameters ..).mp h
  · exact Names.last name _
  · exact Names.more name (furtherParameters_sound stop opened others _ _ further rest hFurther)
termination_by bound
decreasing_by exact Nat.lt_of_succ_lt fits

theorem parameters_sound {stop opened : Span} {tokens : Tokens} {fits : tokens.length ≤ bound}
    {names : List Name} {rest : Tokens} (h : Reads (parameters stop opened tokens fits) names rest) :
    Parameters (kinds tokens) names (kinds rest) := by
  rcases (reads_parameters ..).mp h with ⟨span, rfl, rfl⟩ | ⟨_, hFurther⟩
  · exact Parameters.none _
  · exact Parameters.some (furtherParameters_sound stop opened tokens bound fits names rest hFurther)

theorem condition_sound {stop : Span} {tokens : Tokens} {test : Expr} {rest : Tokens}
    (h : Reads (condition stop tokens) test rest) :
    Condition unopened (kinds tokens) test (kinds rest) := by
  obtain ⟨opened, others, close, rfl, hTest⟩ := (reads_condition ..).mp h
  exact Condition.group (expression_sound hTest)

/-- The keyword, which the step does not see, is put back in front. -/
theorem declaration_sound {stop span : Span} {tokens : Tokens} {stmt : Stmt} {rest : Tokens}
    (h : Reads (declaration stop tokens) stmt rest) :
    Statement unopened (kinds (⟨.keyword .declare, span⟩ :: tokens)) stmt (kinds rest) := by
  obtain ⟨name, _, _, others, value, rfl, hValue, rfl⟩ := (reads_declaration ..).mp h
  exact Statement.declare name (expression_sound hValue)

/-- Two tokens of lookahead choose between the two derivations. -/
theorem assignmentOrExpression_sound {stop : Span} {tokens : Tokens} {stmt : Stmt} {rest : Tokens}
    (h : Reads (assignmentOrExpression stop tokens) stmt rest) :
    Statement unopened (kinds tokens) stmt (kinds rest) := by
  rcases (reads_assignmentOrExpression ..).mp h with
    ⟨name, _, _, others, value, rfl, hValue, rfl⟩ | ⟨_, value, hValue, rfl⟩
  · exact Statement.assign name (expression_sound hValue)
  · exact Statement.evaluate (expression_sound hValue)

/-- Without a keyword of its own in front, a statement is an assignment or an expression. -/
theorem otherStatement_sound {stop : Span} {tokens : Tokens} {fits : tokens.length ≤ bound}
    {stmt : Stmt} {rest : Tokens}
    (hHead : ∀ keyword span others, tokens = ⟨.keyword keyword, span⟩ :: others → keyword = .otherwise)
    (h : Reads (bareStatement stop tokens fits) stmt rest) :
    Statement unopened (kinds tokens) stmt (kinds rest) :=
  assignmentOrExpression_sound ((reads_bareStatement_other stop tokens fits hHead stmt rest).mp h)

/-- A dropped semicolon may be put back between statements. -/
theorem statements_of_withoutSemicolon {follow : Follow} {tokens : Tokens} {body : Block}
    {rest : Kinds} (h : Statements follow (kinds (withoutSemicolon tokens)) body rest) :
    Statements follow (kinds tokens) body rest := by
  unfold withoutSemicolon at h
  split at h
  · exact Statements.semicolon h
  · exact h

mutual

/-- One case for each keyword that begins a statement. -/
theorem bareStatement_sound (stop : Span) (tokens : Tokens) (bound : Nat)
    (fits : tokens.length ≤ bound) (stmt : Stmt) (rest : Tokens)
    (h : Reads (bareStatement stop tokens fits) stmt rest) :
    Statement unopened (kinds tokens) stmt (kinds rest) := by
  match tokens, fits, h with
  | ⟨.keyword .function, span⟩ :: others, fits, h =>
      obtain ⟨name, _, opened, input, names, middle, body, hOthers, hNames, hBody, rfl⟩ :=
        (reads_bareStatement_function ..).mp h
      rw [hOthers]
      exact Statement.function name (parameters_sound hNames)
        (block_sound stop middle _ _ body rest hBody)
  | ⟨.keyword .declare, span⟩ :: others, fits, h =>
      exact declaration_sound ((reads_bareStatement_declare ..).mp h)
  | ⟨.keyword .loop, span⟩ :: others, fits, h =>
      obtain ⟨test, middle, body, hTest, hBody, rfl⟩ := (reads_bareStatement_loop ..).mp h
      exact Statement.loop (condition_sound hTest) (block_sound stop middle _ _ body rest hBody)
  | ⟨.keyword .branch, span⟩ :: others, fits, h =>
      obtain ⟨test, middle, positive, between, hTest, hPositive, hNegative⟩ :=
        (reads_bareStatement_branch ..).mp h
      have hFirst := block_sound stop middle _ _ positive between hPositive
      rcases hNegative with ⟨_, rfl, rfl⟩ | ⟨place, input, negative, hBetween, hNegative, rfl⟩
      · exact Statement.branch (condition_sound hTest) hFirst
      · rw [hBetween] at hFirst
        exact Statement.otherwise (condition_sound hTest) hFirst
          (block_sound stop input _ _ negative rest hNegative)
  | ⟨.keyword .yield, span⟩ :: others, fits, h =>
      obtain ⟨value, hValue, rfl⟩ := (reads_bareStatement_yield ..).mp h
      exact Statement.yield (expression_sound hValue)
  | ⟨.keyword .otherwise, _⟩ :: _, _, h =>
      exact otherStatement_sound (by rintro _ _ _ ⟨⟩; rfl) h
  | [], _, h | ⟨.delimiter _, _⟩ :: _, _, h | ⟨.operator _, _⟩ :: _, _, h
  | ⟨.integer _, _⟩ :: _, _, h | ⟨.identifier _, _⟩ :: _, _, h | ⟨.endOfFile, _⟩ :: _, _, h =>
      exact otherStatement_sound (by rintro _ _ _ ⟨⟩) h
termination_by (bound, 2)
decreasing_by
  · have hShorter := hNames.shorter
    simp only [hOthers, List.length_cons] at fits
    exact Prod.Lex.left _ _ (by omega)
  · have hShorter := hTest.shorter
    simp only [List.length_cons] at fits
    exact Prod.Lex.left _ _ (by omega)
  · have hShorter := hTest.shorter
    simp only [List.length_cons] at fits
    exact Prod.Lex.left _ _ (by omega)
  · have hShorter := hTest.shorter
    have hFewer := hPositive.shorter
    simp only [hBetween, List.length_cons] at fits hFewer
    exact Prod.Lex.left _ _ (by omega)

theorem block_sound (stop : Span) (tokens : Tokens) (bound : Nat) (fits : tokens.length ≤ bound)
    (body : Block) (rest : Tokens) (h : Reads (block stop tokens fits) body rest) :
    Braced unopened (kinds tokens) body (kinds rest) := by
  obtain ⟨opened, others, hTokens, hBody⟩ := (reads_block ..).mp h
  rw [hTokens]
  exact Braced.group (statements_sound stop opened others _ _ body rest hBody)
termination_by (bound, 1)
decreasing_by
  simp only [hTokens, List.length_cons] at fits
  exact Prod.Lex.left _ _ (by omega)

/-- Semicolons between statements are in the derivation, and so is the brace that ends it. -/
theorem statements_sound (stop opened : Span) (tokens : Tokens) (bound : Nat)
    (fits : tokens.length ≤ bound) (body : Block) (rest : Tokens)
    (h : Reads (statements stop opened tokens fits) body rest) :
    Statements unopened (kinds tokens) body (.delimiter .closeBrace :: kinds rest) := by
  match tokens, fits, h with
  | [], _, h => exact (not_reads_statements_nil _ _ _ _ _ h).elim
  | token :: others, fits, h =>
      obtain ⟨kind, span⟩ := token
      by_cases hClose : kind = .delimiter .closeBrace
      · subst hClose
        obtain ⟨rfl, rfl⟩ := (reads_statements_closeBrace ..).mp h
        exact Statements.nil _
      · by_cases hSemicolon : kind = .delimiter .semicolon
        · subst hSemicolon
          rw [reads_statements_semicolon] at h
          exact Statements.semicolon (statements_sound stop opened others _ _ body rest h)
        · rw [reads_statements_cons _ _ _ _ _ hClose hSemicolon] at h
          obtain ⟨first, middle, further, hFirst, hFurther, rfl⟩ := h
          obtain ⟨whole, hBare, hMiddle⟩ := (reads_statement ..).mp hFirst
          have hOthers := statements_sound stop opened middle _ _ further rest hFurther
          rw [hMiddle] at hOthers
          exact Statements.cons (bareStatement_sound stop _ _ fits first whole hBare)
            (statements_of_withoutSemicolon hOthers)
termination_by (bound, 4)
decreasing_by
  · exact Prod.Lex.left _ _ fits
  · exact Prod.Lex.left _ _ hFirst.shorter
  · exact Prod.Lex.right _ (by decide)

end

/-- What was read is derived to the very end of the row. -/
theorem program_sound (stop : Span) (tokens : Tokens) (body : Block)
    (h : program stop tokens = .ok body) :
    Statements unopened (kinds tokens) body [] := by
  match tokens, h with
  | [], h =>
      rw [program_nil] at h
      cases h
      exact Statements.nil _
  | ⟨kind, span⟩ :: others, h =>
      by_cases hSemicolon : kind = .delimiter .semicolon
      · subst hSemicolon
        rw [program_semicolon] at h
        exact Statements.semicolon (program_sound stop others body h)
      · obtain ⟨first, middle, further, hFirst, hFurther, rfl⟩ :=
          (program_cons_eq_ok_iff stop _ others hSemicolon body).mp h
        obtain ⟨whole, hBare, hMiddle⟩ := (reads_statement ..).mp hFirst
        have hOthers := program_sound stop middle further hFurther
        rw [hMiddle] at hOthers
        exact Statements.cons (bareStatement_sound stop _ _ _ first whole hBare)
          (statements_of_withoutSemicolon hOthers)
termination_by tokens.length
decreasing_by
  · exact Nat.lt_succ_self _
  · exact hFirst.shorter

end IntScript.Parser
