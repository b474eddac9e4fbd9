import IntScript.Proofs.Grammar.Soundness

/-! Whatever has a derivation is read. A reading step goes on as long as it can, so it finds a given
derivation only before tokens that do not go on with what the derivation ends with. -/
namespace IntScript.Grammar

variable {follow : Follow}

/-- No operator of the level or of a tighter one stands in front. -/
def Detached (level : Nat) (rest : Kinds) : Prop :=
  ∀ op others, rest = .operator op :: others → level < op.precedence

/-- Where no operator of a level stands, there is none of a tighter one either. -/
theorem Detached.tighter {level : Nat} {rest : Kinds} (h : Detached (level + 1) rest) :
    Detached level rest :=
  fun op others hRest => Nat.lt_of_succ_lt (h op others hRest)

/-- Before a repetition of operators of a level stands no tighter operator. -/
theorem Steps.detached {level : Nat} {input rest : Kinds} {steps : List (BinaryOp × Expr)}
    (h : Steps follow level input steps rest) (hRest : Detached (level + 1) rest) :
    Detached level input := by
  cases h with
  | nil => exact hRest.tighter
  | cons known _ _ =>
      intro op others hInput
      cases hInput
      rw [(Parser.mem_operators_iff _ _).mp known]
      exact Nat.lt_succ_self _

def Begins : TokenKind Name → Prop
  | .integer _ | .identifier _ | .delimiter .openParen => True
  | _ => False

theorem Primary.begins {input rest : Kinds} {expr : Expr} (h : Primary follow input expr rest) :
    ∃ kind others, input = kind :: others ∧ Begins kind := by
  cases h <;> exact ⟨_, _, rfl, trivial⟩

theorem Operand.begins {level : Nat} {input rest : Kinds} {expr : Expr}
    (h : Operand follow level input expr rest) :
    ∃ kind others, input = kind :: others ∧ Begins kind := by
  induction level generalizing input expr rest with
  | zero =>
      cases h with
      | primary inner => exact inner.begins
  | succ level ih =>
      cases h with
      | joined left _ => exact ih left

theorem Values.begins {input rest : Kinds} {values : List Expr} (h : Values follow input values rest) :
    ∃ kind others, input = kind :: others ∧ Begins kind := by
  cases h with
  | last inner => exact inner.begins
  | more inner _ => exact inner.begins

/-- What a statement may begin with. -/
def Introduces : TokenKind Name → Prop
  | .keyword keyword => keyword ≠ .otherwise
  | kind => Begins kind

/-- What goes on with a statement and begins none. -/
def Continues : TokenKind Name → Prop
  | .operator _ | .delimiter .assign | .keyword .otherwise => True
  | _ => False

/-- A statement that ends here has ended, whatever comes next. -/
def Finished (rest : Kinds) : Prop :=
  ∀ kind others, rest = kind :: others → ¬ Continues kind

/-- After a statement no operator of any level can stand. -/
theorem Finished.detached {level : Nat} {rest : Kinds} (h : Finished rest) : Detached level rest := by
  intro op others hRest
  exact (h _ others hRest trivial).elim

theorem finished_closeBrace (rest : Kinds) : Finished (.delimiter .closeBrace :: rest) := by
  rintro kind others ⟨⟩ h
  exact h

/-- What begins a statement cannot be taken for a part of the one before it. -/
theorem Introduces.not_continues {kind : TokenKind Name} (h : Introduces kind) : ¬ Continues kind := by
  intro hContinues
  cases kind with
  | keyword keyword =>
      cases keyword with
      | otherwise => exact h rfl
      | _ => exact hContinues
  | delimiter delimiter =>
      cases delimiter with
      | openParen => exact hContinues
      | _ => exact h
  | integer value | identifier name => exact hContinues
  | operator op | endOfFile => exact h

theorem Statement.introduces {input rest : Kinds} {stmt : Stmt} (h : Statement follow input stmt rest) :
    ∃ kind others, input = kind :: others ∧ Introduces kind := by
  cases h with
  | evaluate inner =>
      obtain ⟨kind, others, hInput, hKind⟩ := inner.begins
      refine ⟨kind, others, hInput, ?_⟩
      cases kind with
      | keyword keyword => exact hKind.elim
      | _ => exact hKind
  | assign name _ => exact ⟨_, _, rfl, trivial⟩
  | _ => exact ⟨_, _, rfl, nofun⟩

/-- What follows a statement in a block is another one, a semicolon or the end of the block, so the
statement has ended. -/
theorem Statements.finished {input rest : Kinds} {block : Block}
    (h : Statements follow input block rest) (hRest : Finished rest) : Finished input := by
  cases h with
  | nil => exact hRest
  | semicolon _ =>
      rintro kind others ⟨⟩ hKind
      exact hKind
  | cons first _ =>
      obtain ⟨kind, others, rfl, hKind⟩ := first.introduces
      rintro _ _ ⟨⟩
      exact hKind.not_continues

/-- An identifier before the sign of assignment is an operand of its own, and nothing follows it. -/
theorem Operand.rest_of_assign {level : Nat} {name : Name} {others rest : Kinds} {expr : Expr}
    (h : Operand follow level (.identifier name :: .delimiter .assign :: others) expr rest) :
    rest = .delimiter .assign :: others := by
  induction level generalizing expr rest with
  | zero =>
      cases h with
      | primary inner =>
          cases inner with
          | reference => rfl
  | succ level ih =>
      cases h with
      | joined left steps =>
          rw [ih left] at steps
          cases steps with
          | nil => rfl

end IntScript.Grammar

namespace IntScript.Parser

open Grammar

theorem kinds_eq_cons {tokens : Tokens} {kind : TokenKind Name} {others : Kinds}
    (h : kinds tokens = kind :: others) :
    ∃ span rest, tokens = ⟨kind, span⟩ :: rest ∧ kinds rest = others := by
  obtain ⟨token, rest, rfl, rfl, rfl⟩ := List.map_eq_cons_iff.mp h
  exact ⟨token.span, rest, rfl, rfl⟩

theorem unjoined_of_detached {level : Nat} {tokens : Tokens} (h : Detached level (kinds tokens)) :
    Unjoined level tokens := by
  rintro op span rest rfl hMem
  have hLevel := h op _ rfl
  rw [mem_operators_iff] at hMem
  omega

mutual

/-- The reader takes all of the derived operand, since what follows it could not go on with it. -/
theorem operand_complete {level : Nat} {input : Kinds} {expr : Expr} {rest : Kinds}
    (h : Operand unopened level input expr rest) (hRest : Detached level rest) (stop : Span)
    (tokens : Tokens) (hTokens : kinds tokens = input) (bound : Nat) (fits : tokens.length ≤ bound) :
    ∃ left, kinds left = rest ∧ Reads (operand stop level tokens fits) expr left := by
  match h with
  | .primary inner =>
      obtain ⟨left, hLeft, hReads⟩ := primary_complete inner stop tokens hTokens bound fits
      exact ⟨left, hLeft, (reads_operand_zero ..).mpr hReads⟩
  | .joined first steps =>
      obtain ⟨middle, hMiddle, hFirst⟩ :=
        operand_complete first (steps.detached hRest) stop tokens hTokens bound fits
      obtain ⟨left, hLeft, hSteps⟩ :=
        operations_complete steps hRest stop _ middle hMiddle bound hFirst.shorter
      exact ⟨left, hLeft, (reads_operand_succ ..).mpr ⟨_, middle, hFirst, hSteps⟩⟩

/-- The reader joins every derived step to what it has, and stops where the derivation does. -/
theorem operations_complete {level : Nat} {input : Kinds} {steps : List (BinaryOp × Expr)}
    {rest : Kinds} (h : Steps unopened level input steps rest) (hRest : Detached (level + 1) rest)
    (stop : Span) (first : Expr) (tokens : Tokens) (hTokens : kinds tokens = input) (bound : Nat)
    (shorter : tokens.length < bound) :
    ∃ left, kinds left = rest ∧
      Reads (operations stop level first tokens shorter) (steps.foldl join first) left := by
  match h with
  | .nil .. =>
      refine ⟨tokens, hTokens, (reads_operations ..).mpr (Or.inl ⟨?_, rfl, rfl⟩)⟩
      rw [← hTokens] at hRest
      exact unjoined_of_detached hRest
  | .cons known operand others =>
      obtain ⟨span, input, rfl, hInput⟩ := kinds_eq_cons hTokens
      obtain ⟨middle, hMiddle, hRight⟩ :=
        operand_complete operand (others.detached hRest) stop input hInput _ (Nat.le_refl _)
      have fewer : middle.length < bound :=
        Nat.lt_trans hRight.shorter (Nat.lt_of_succ_lt shorter)
      obtain ⟨left, hLeft, hOthers⟩ :=
        operations_complete others hRest stop _ middle hMiddle bound fewer
      exact ⟨left, hLeft, (reads_operations ..).mpr
        (Or.inr ⟨_, span, input, _, middle, rfl, known, hRight, fewer, hOthers⟩)⟩

/-- No condition on the rest is needed: whether a variable is a call is in the derivation already. -/
theorem primary_complete {input : Kinds} {expr : Expr} {rest : Kinds}
    (h : Primary unopened input expr rest) (stop : Span) (tokens : Tokens)
    (hTokens : kinds tokens = input) (bound : Nat) (fits : tokens.length ≤ bound) :
    ∃ left, kinds left = rest ∧ Reads (primary stop tokens fits) expr left := by
  match h with
  | .literal value _ =>
      obtain ⟨span, others, rfl, hOthers⟩ := kinds_eq_cons hTokens
      exact ⟨others, hOthers, (reads_primary_integer ..).mpr ⟨rfl, rfl⟩⟩
  | .reference name free =>
      obtain ⟨span, others, rfl, hOthers⟩ := kinds_eq_cons hTokens
      rw [← hOthers] at free
      exact ⟨others, hOthers, (reads_primary_identifier ..).mpr (Or.inl ⟨free, rfl, rfl⟩)⟩
  | .call callee inner =>
      obtain ⟨span, others, rfl, hOthers⟩ := kinds_eq_cons hTokens
      obtain ⟨opened, input, rfl, hInput⟩ := kinds_eq_cons hOthers
      obtain ⟨left, hLeft, hValues⟩ :=
        arguments_complete inner stop opened input hInput _ (Nat.le_refl _)
      exact ⟨left, hLeft,
        (reads_primary_identifier ..).mpr (Or.inr ⟨opened, input, _, rfl, hValues, rfl⟩)⟩
  | .group inner =>
      obtain ⟨span, others, rfl, hOthers⟩ := kinds_eq_cons hTokens
      obtain ⟨middle, hMiddle, hInner⟩ :=
        operand_complete inner (fun _ _ hSame => nomatch hSame) stop others hOthers _ (Nat.le_refl _)
      obtain ⟨close, left, rfl, hLeft⟩ := kinds_eq_cons hMiddle
      exact ⟨left, hLeft, (reads_primary_openParen ..).mpr ⟨close, hInner⟩⟩

/-- The parenthesis that ends the arguments is the last token taken, so anything may follow. -/
theorem arguments_complete {input : Kinds} {values : List Expr} {rest : Kinds}
    (h : Arguments unopened input values rest) (stop opened : Span) (tokens : Tokens)
    (hTokens : kinds tokens = input) (bound : Nat) (fits : tokens.length ≤ bound) :
    ∃ left, kinds left = rest ∧ Reads (arguments stop opened tokens fits) values left := by
  match h with
  | .none .. =>
      obtain ⟨span, left, rfl, hLeft⟩ := kinds_eq_cons hTokens
      exact ⟨left, hLeft, (reads_arguments ..).mpr (Or.inl ⟨span, rfl, rfl⟩)⟩
  | .some inner =>
      obtain ⟨left, hLeft, hInner⟩ :=
        furtherArguments_complete inner stop opened tokens hTokens bound fits
      refine ⟨left, hLeft, (reads_arguments ..).mpr (Or.inr ⟨?_, hInner⟩)⟩
      rintro span others rfl
      obtain ⟨kind, _, hInput, hKind⟩ := inner.begins
      rw [← hTokens] at hInput
      cases hInput
      exact hKind

theorem furtherArguments_complete {input : Kinds} {values : List Expr} {rest : Kinds}
    (h : Values unopened input values rest) (stop opened : Span) (tokens : Tokens)
    (hTokens : kinds tokens = input) (bound : Nat) (fits : tokens.length ≤ bound) :
    ∃ left, kinds left = rest ∧ Reads (furtherArguments stop opened tokens fits) values left := by
  match h with
  | .last inner =>
      obtain ⟨middle, hMiddle, hInner⟩ :=
        operand_complete inner (fun _ _ hSame => nomatch hSame) stop tokens hTokens bound fits
      obtain ⟨close, left, rfl, hLeft⟩ := kinds_eq_cons hMiddle
      exact ⟨left, hLeft, (reads_furtherArguments ..).mpr ⟨_, close, Or.inl ⟨hInner, rfl⟩⟩⟩
  | .more inner others =>
      obtain ⟨middle, hMiddle, hInner⟩ :=
        operand_complete inner (fun _ _ hSame => nomatch hSame) stop tokens hTokens bound fits
      obtain ⟨comma, input, rfl, hInput⟩ := kinds_eq_cons hMiddle
      obtain ⟨left, hLeft, hOthers⟩ :=
        furtherArguments_complete others stop opened input hInput _ (Nat.le_refl _)
      exact ⟨left, hLeft, (reads_furtherArguments ..).mpr
        ⟨_, comma, Or.inr ⟨input, _, hInner, hOthers, rfl⟩⟩⟩

end

theorem expression_complete {input : Kinds} {expr : Expr} {rest : Kinds}
    (h : Operand unopened loosest input expr rest) (hRest : Detached loosest rest) (stop : Span)
    {tokens : Tokens} (hTokens : kinds tokens = input) :
    ∃ left, kinds left = rest ∧ Reads (expression stop tokens) expr left :=
  operand_complete h hRest stop tokens hTokens _ (Nat.le_refl _)

theorem furtherParameters_complete {input : Kinds} {names : List Name} {rest : Kinds}
    (h : Names input names rest) (stop opened : Span) (tokens : Tokens)
    (hTokens : kinds tokens = input) (bound : Nat) (fits : tokens.length ≤ bound) :
    ∃ left, kinds left = rest ∧ Reads (furtherParameters stop opened tokens fits) names left := by
  induction h generalizing tokens bound with
  | last name rest =>
      obtain ⟨place, others, rfl, hOthers⟩ := kinds_eq_cons hTokens
      obtain ⟨span, left, rfl, hLeft⟩ := kinds_eq_cons hOthers
      exact ⟨left, hLeft, (reads_furtherParameters ..).mpr ⟨name, place, span, Or.inl ⟨rfl, rfl⟩⟩⟩
  | more name _ ih =>
      obtain ⟨place, others, rfl, hOthers⟩ := kinds_eq_cons hTokens
      obtain ⟨span, input, rfl, hInput⟩ := kinds_eq_cons hOthers
      obtain ⟨left, hLeft, hFurther⟩ := ih input hInput _ (Nat.le_refl _)
      exact ⟨left, hLeft, (reads_furtherParameters ..).mpr
        ⟨name, place, span, Or.inr ⟨input, _, rfl, hFurther, rfl⟩⟩⟩

theorem parameters_complete {input : Kinds} {names : List Name} {rest : Kinds}
    (h : Parameters input names rest) (stop opened : Span) {tokens : Tokens}
    (hTokens : kinds tokens = input) (bound : Nat) (fits : tokens.length ≤ bound) :
    ∃ left, kinds left = rest ∧ Reads (parameters stop opened tokens fits) names left := by
  cases h with
  | none =>
      obtain ⟨span, left, rfl, hLeft⟩ := kinds_eq_cons hTokens
      exact ⟨left, hLeft, (reads_parameters ..).mpr (Or.inl ⟨span, rfl, rfl⟩)⟩
  | some inner =>
      obtain ⟨left, hLeft, hInner⟩ :=
        furtherParameters_complete inner stop opened tokens hTokens bound fits
      refine ⟨left, hLeft, (reads_parameters ..).mpr (Or.inr ⟨?_, hInner⟩)⟩
      rintro span others rfl
      rw [← hTokens] at inner
      cases inner

theorem condition_complete {input : Kinds} {test : Expr} {rest : Kinds}
    (h : Condition unopened input test rest) (stop : Span) {tokens : Tokens}
    (hTokens : kinds tokens = input) :
    ∃ left, kinds left = rest ∧ Reads (condition stop tokens) test left := by
  cases h with
  | group inner =>
      obtain ⟨opened, others, rfl, hOthers⟩ := kinds_eq_cons hTokens
      obtain ⟨middle, hMiddle, hTest⟩ :=
        expression_complete inner (fun _ _ hSame => nomatch hSame) stop hOthers
      obtain ⟨close, left, rfl, hLeft⟩ := kinds_eq_cons hMiddle
      exact ⟨left, hLeft, (reads_condition ..).mpr ⟨opened, others, close, rfl, hTest⟩⟩

theorem evaluate_complete {input : Kinds} {value : Expr} {rest : Kinds}
    (h : Operand unopened loosest input value rest) (hRest : Finished rest) (stop : Span)
    {tokens : Tokens} (hTokens : kinds tokens = input) {bound : Nat} (fits : tokens.length ≤ bound) :
    ∃ left, kinds left = rest ∧ Reads (bareStatement stop tokens fits) (.evaluate value) left := by
  obtain ⟨left, hLeft, hValue⟩ := expression_complete h hRest.detached stop hTokens
  obtain ⟨kind, others, hInput, hKind⟩ := h.begins
  refine ⟨left, hLeft, (reads_bareStatement_other stop tokens fits ?_ _ _).mpr
    ((reads_assignmentOrExpression ..).mpr (Or.inr ⟨?_, value, hValue, rfl⟩))⟩
  · rintro keyword span rest rfl
    rw [← hTokens] at hInput
    cases hInput
    exact hKind.elim
  · rintro name span place rest rfl
    rw [← hTokens] at h
    exact hRest _ _ h.rest_of_assign trivial

/-- One semicolon at most is left out. -/
theorem withoutSemicolon_eq (tokens : Tokens) :
    withoutSemicolon tokens = tokens ∨
      ∃ span rest, tokens = ⟨.delimiter .semicolon, span⟩ :: rest ∧ withoutSemicolon tokens = rest := by
  unfold withoutSemicolon
  split
  · exact Or.inr ⟨_, _, rfl, rfl⟩
  · exact Or.inl rfl

theorem reads_statements_withoutSemicolon {stop opened : Span} {tokens : Tokens} {body : Block}
    {rest : Tokens} (h : Reads (statements stop opened tokens (Nat.le_refl _)) body rest) :
    Reads (statements stop opened (withoutSemicolon tokens) (Nat.le_refl _)) body rest := by
  rcases withoutSemicolon_eq tokens with hSame | ⟨span, others, rfl, hSame⟩
  · rw [hSame]
    exact h
  · rw [hSame]
    exact (reads_statements_semicolon ..).mp h

/-- A semicolon in front of a program changes nothing in what is read of it. -/
theorem program_withoutSemicolon (stop : Span) (tokens : Tokens) :
    program stop (withoutSemicolon tokens) = program stop tokens := by
  rcases withoutSemicolon_eq tokens with hSame | ⟨span, others, rfl, hSame⟩
  · rw [hSame]
  · rw [hSame, program_semicolon]

mutual

/-- The first token decides what is read, and in a derivation it decides the same. -/
theorem bareStatement_complete {input : Kinds} {stmt : Stmt} {rest : Kinds}
    (h : Statement unopened input stmt rest) (hRest : Finished rest) (stop : Span) (tokens : Tokens)
    (hTokens : kinds tokens = input) (bound : Nat) (fits : tokens.length ≤ bound) :
    ∃ left, kinds left = rest ∧ Reads (bareStatement stop tokens fits) stmt left := by
  match h with
  | .function name parameters inner =>
      obtain ⟨span, rest₁, rfl, hRest₁⟩ := kinds_eq_cons hTokens
      obtain ⟨place, rest₂, rfl, hRest₂⟩ := kinds_eq_cons hRest₁
      obtain ⟨opened, input, rfl, hInput⟩ := kinds_eq_cons hRest₂
      obtain ⟨middle, hMiddle, hNames⟩ :=
        parameters_complete parameters stop opened hInput _ (Nat.le_refl _)
      obtain ⟨left, hLeft, hBody⟩ := block_complete inner stop middle hMiddle _ (Nat.le_refl _)
      exact ⟨left, hLeft, (reads_bareStatement_function ..).mpr
        ⟨name, place, opened, input, _, middle, _, rfl, hNames, hBody, rfl⟩⟩
  | .declare name inner =>
      obtain ⟨span, rest₁, rfl, hRest₁⟩ := kinds_eq_cons hTokens
      obtain ⟨place, rest₂, rfl, hRest₂⟩ := kinds_eq_cons hRest₁
      obtain ⟨sign, input, rfl, hInput⟩ := kinds_eq_cons hRest₂
      obtain ⟨left, hLeft, hValue⟩ := expression_complete inner hRest.detached stop hInput
      exact ⟨left, hLeft, (reads_bareStatement_declare ..).mpr
        ((reads_declaration ..).mpr ⟨name, place, sign, input, _, rfl, hValue, rfl⟩)⟩
  | .loop condition inner =>
      obtain ⟨span, others, rfl, hOthers⟩ := kinds_eq_cons hTokens
      obtain ⟨middle, hMiddle, hTest⟩ := condition_complete condition stop hOthers
      obtain ⟨left, hLeft, hBody⟩ := block_complete inner stop middle hMiddle _ (Nat.le_refl _)
      exact ⟨left, hLeft,
        (reads_bareStatement_loop ..).mpr ⟨_, middle, _, hTest, hBody, rfl⟩⟩
  | .branch condition inner =>
      obtain ⟨span, others, rfl, hOthers⟩ := kinds_eq_cons hTokens
      obtain ⟨middle, hMiddle, hTest⟩ := condition_complete condition stop hOthers
      obtain ⟨left, hLeft, hBody⟩ := block_complete inner stop middle hMiddle _ (Nat.le_refl _)
      refine ⟨left, hLeft, (reads_bareStatement_branch ..).mpr
        ⟨_, middle, _, left, hTest, hBody, Or.inl ⟨?_, rfl, rfl⟩⟩⟩
      rintro place input rfl
      exact hRest _ _ hLeft.symm trivial
  | .otherwise condition first second =>
      obtain ⟨span, others, rfl, hOthers⟩ := kinds_eq_cons hTokens
      obtain ⟨middle, hMiddle, hTest⟩ := condition_complete condition stop hOthers
      obtain ⟨between, hBetween, hPositive⟩ := block_complete first stop middle hMiddle _ (Nat.le_refl _)
      obtain ⟨place, input, rfl, hInput⟩ := kinds_eq_cons hBetween
      obtain ⟨left, hLeft, hNegative⟩ := block_complete second stop input hInput _ (Nat.le_refl _)
      exact ⟨left, hLeft, (reads_bareStatement_branch ..).mpr
        ⟨_, middle, _, _, hTest, hPositive, Or.inr ⟨place, input, _, rfl, hNegative, rfl⟩⟩⟩
  | .assign name inner =>
      obtain ⟨span, rest₁, rfl, hRest₁⟩ := kinds_eq_cons hTokens
      obtain ⟨sign, input, rfl, hInput⟩ := kinds_eq_cons hRest₁
      obtain ⟨left, hLeft, hValue⟩ := expression_complete inner hRest.detached stop hInput
      refine ⟨left, hLeft, (reads_bareStatement_other stop _ fits (by rintro _ _ _ ⟨⟩) _ _).mpr ?_⟩
      exact (reads_assignmentOrExpression ..).mpr
        (Or.inl ⟨name, span, sign, input, _, rfl, hValue, rfl⟩)
  | .yield inner =>
      obtain ⟨span, others, rfl, hOthers⟩ := kinds_eq_cons hTokens
      obtain ⟨left, hLeft, hValue⟩ := expression_complete inner hRest.detached stop hOthers
      exact ⟨left, hLeft, (reads_bareStatement_yield ..).mpr ⟨_, hValue, rfl⟩⟩
  | .evaluate inner => exact evaluate_complete inner hRest stop hTokens fits

theorem block_complete {input : Kinds} {body : Block} {rest : Kinds}
    (h : Braced unopened input body rest) (stop : Span) (tokens : Tokens)
    (hTokens : kinds tokens = input) (bound : Nat) (fits : tokens.length ≤ bound) :
    ∃ left, kinds left = rest ∧ Reads (block stop tokens fits) body left := by
  match h with
  | .group inner =>
      obtain ⟨opened, others, rfl, hOthers⟩ := kinds_eq_cons hTokens
      obtain ⟨left, hLeft, hBody⟩ :=
        statements_complete inner rfl stop opened others hOthers _ (Nat.le_refl _)
      exact ⟨left, hLeft, (reads_block ..).mpr ⟨opened, others, rfl, hBody⟩⟩

/-- The block is read up to the brace at which its derivation ends. -/
theorem statements_complete {input : Kinds} {body : Block} {close rest : Kinds}
    (h : Statements unopened input body close) (hClose : close = .delimiter .closeBrace :: rest)
    (stop opened : Span) (tokens : Tokens) (hTokens : kinds tokens = input) (bound : Nat)
    (fits : tokens.length ≤ bound) :
    ∃ left, kinds left = rest ∧ Reads (statements stop opened tokens fits) body left := by
  match h with
  | .nil _ =>
      obtain ⟨span, left, rfl, hLeft⟩ := kinds_eq_cons (hTokens.trans hClose)
      exact ⟨left, hLeft, (reads_statements_closeBrace ..).mpr ⟨rfl, rfl⟩⟩
  | .semicolon others =>
      obtain ⟨span, input, rfl, hInput⟩ := kinds_eq_cons hTokens
      obtain ⟨left, hLeft, hOthers⟩ :=
        statements_complete others hClose stop opened input hInput _ (Nat.le_refl _)
      exact ⟨left, hLeft, (reads_statements_semicolon ..).mpr hOthers⟩
  | .cons first others =>
      have hMiddle := others.finished (hClose ▸ finished_closeBrace rest)
      obtain ⟨middle, hKinds, hFirst⟩ :=
        bareStatement_complete first hMiddle stop tokens hTokens bound fits
      obtain ⟨left, hLeft, hOthers⟩ :=
        statements_complete others hClose stop opened middle hKinds _ (Nat.le_refl _)
      obtain ⟨kind, further, rfl, hKind⟩ := first.introduces
      obtain ⟨span, input, rfl, -⟩ := kinds_eq_cons hTokens
      have hNotClose : kind ≠ .delimiter .closeBrace := by
        rintro rfl
        exact hKind
      have hNotSemicolon : kind ≠ .delimiter .semicolon := by
        rintro rfl
        exact hKind
      exact ⟨left, hLeft, (reads_statements_cons stop opened _ input fits hNotClose hNotSemicolon _ _).mpr
        ⟨_, withoutSemicolon middle, _, (reads_statement ..).mpr ⟨middle, hFirst, rfl⟩,
          reads_statements_withoutSemicolon hOthers, rfl⟩⟩

end

/-- A program has no brace after it, so its statements are derived up to the end of the row. -/
theorem program_complete {input : Kinds} {body : Block} {rest : Kinds}
    (h : Statements unopened input body rest) (hRest : rest = []) (stop : Span) (tokens : Tokens)
    (hTokens : kinds tokens = input) : program stop tokens = .ok body := by
  match h with
  | .nil _ =>
      rw [List.map_eq_nil_iff.mp (hTokens.trans hRest), program_nil]
  | .semicolon others =>
      obtain ⟨span, input, rfl, hInput⟩ := kinds_eq_cons hTokens
      rw [program_semicolon]
      exact program_complete others hRest stop input hInput
  | .cons first others =>
      have hMiddle := others.finished (hRest ▸ (fun _ _ hSame => nomatch hSame))
      obtain ⟨middle, hKinds, hFirst⟩ :=
        bareStatement_complete first hMiddle stop tokens hTokens _ (Nat.le_refl _)
      have hOthers := program_complete others hRest stop middle hKinds
      obtain ⟨kind, further, rfl, hKind⟩ := first.introduces
      obtain ⟨span, input, rfl, -⟩ := kinds_eq_cons hTokens
      have hNotSemicolon : kind ≠ .delimiter .semicolon := by
        rintro rfl
        exact hKind
      exact (program_cons_eq_ok_iff stop _ input hNotSemicolon _).mpr
        ⟨_, withoutSemicolon middle, _, (reads_statement ..).mpr ⟨middle, hFirst, rfl⟩,
          (program_withoutSemicolon stop middle).trans hOthers, rfl⟩

end IntScript.Parser

namespace IntScript

/-- The kinds of the tokens before the first one for the end of the text, which need not be there. -/
def Grammar.beforeEnd (tokens : List (Token Name)) : Grammar.Kinds :=
  (tokens.map (·.kind)).takeWhile (· != .endOfFile)

/-- The reader and the grammar leave out the same tokens. -/
theorem Parser.kinds_relevant (tokens : List (Token Name)) :
    Parser.kinds (Parser.relevant tokens) = Grammar.beforeEnd tokens := by
  rw [Parser.kinds, Parser.relevant, Grammar.beforeEnd, List.takeWhile_map]
  rfl

/-- Parsing finds the trees that the tokens before the end derive, and no others. -/
theorem parse_eq_ok_iff (tokens : List (Token Name)) (block : Block) :
    parse tokens = .ok block ↔ Grammar.Program Grammar.unopened (Grammar.beforeEnd tokens) block := by
  rw [← Parser.kinds_relevant]
  constructor
  · exact Parser.program_sound _ _ block
  · exact fun h => Parser.program_complete h rfl _ _ rfl

/-- Parsing is exactly derivation from the tokens before the end: it finds every tree that they
derive, no other, and an error when they derive none. -/
theorem parse_exact (tokens : List (Token Name)) :
    (∀ block, parse tokens = .ok block ↔
      Grammar.Program Grammar.unopened (Grammar.beforeEnd tokens) block) ∧
    ((∃ error, parse tokens = .error error) ↔
      ¬ ∃ block, Grammar.Program Grammar.unopened (Grammar.beforeEnd tokens) block) := by
  refine ⟨parse_eq_ok_iff tokens, ?_⟩
  simp only [← parse_eq_ok_iff]
  cases parse tokens with
  | error error => simp
  | ok block => simp

end IntScript
