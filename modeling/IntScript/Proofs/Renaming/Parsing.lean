import IntScript.Program.Source
import IntScript.Proofs.Grammar.Reading
import IntScript.Proofs.Renaming

/-! Reading does not depend on how names are numbered: from the same tokens every reading step finds the
same and leaves the same tokens, or it reports the same error. -/
namespace IntScript.Parser

variable {pairs : Name → Name → Prop}

/-- Both steps found what is alike, and left the same tokens. -/
structure Parsed.Like (pairs : Name → Name → Prop) {α : Type} (like : α → α → Prop) {bound larger : Nat}
    (first : Parsed α bound) (second : Parsed α larger) : Prop where
  value : like first.value second.value
  rest : List.Forall₂ (Token.Like pairs) first.rest second.rest

/-- Both steps find what is alike and leave the same tokens, or both report the same error. -/
abbrev ReadsLike (pairs : Name → Name → Prop) {α : Type} (like : α → α → Prop) {bound larger : Nat} :
    Except ParseError (Parsed α bound) → Except ParseError (Parsed α larger) → Prop :=
  OutcomeLike (ParseError.Like pairs) (Parsed.Like pairs like)

theorem ReadsLike.bind {α β γ : Type} {like : α → α → Prop} {alike : β → γ → Prop}
    {bound larger : Nat} {first : Except ParseError (Parsed α bound)}
    {second : Except ParseError (Parsed α larger)}
    {next : Parsed α bound → Except ParseError β} {next' : Parsed α larger → Except ParseError γ}
    (h : ReadsLike pairs like first second)
    (hNext : ∀ found other, like found.value other.value →
      List.Forall₂ (Token.Like pairs) found.rest other.rest →
      OutcomeLike (ParseError.Like pairs) alike (next found) (next' other)) :
    OutcomeLike (ParseError.Like pairs) alike (first >>= next) (second >>= next') :=
  OutcomeLike.bind h (fun found other hFound => hNext found other hFound.value hFound.rest)

theorem ReadsLike.map {α β : Type} {like : α → α → Prop} {alike : β → β → Prop}
    {bound larger bound' larger' : Nat} {first : Except ParseError (Parsed α bound)}
    {second : Except ParseError (Parsed α larger)} {f : Parsed α bound → Parsed β bound'}
    {g : Parsed α larger → Parsed β larger'} (h : ReadsLike pairs like first second)
    (hMap : ∀ found other, found.Like pairs like other → (f found).Like pairs alike (g other)) :
    ReadsLike pairs alike (f <$> first) (g <$> second) := by
  cases h with
  | ok same => exact .ok (hMap _ _ same)
  | error same => exact .error same

section

variable {tokens others : Tokens} (hTokens : List.Forall₂ (Token.Like pairs) tokens others)

include hTokens

/-- Delimiters are found in both or in neither, and errors name the same place. -/
theorem expect_like (stop : Span) (delimiter : Delimiter) :
    ReadsLike pairs Eq (expect stop delimiter tokens) (expect stop delimiter others) := by
  cases hTokens with
  | nil => exact .error (.expectedDelimiter delimiter (.mk .endOfFile stop))
  | cons hToken hRest =>
      obtain ⟨hKind, span⟩ := hToken
      rw [expect, expect]
      simp only [hKind.eq_delimiter_iff]
      split
      next => exact .ok ⟨rfl, hRest⟩
      next => exact .error (.expectedDelimiter delimiter (.mk hKind span))

theorem expectClosing_like (stop : Span) (closer opener : Delimiter) (opened : Span) :
    ReadsLike pairs Eq (expectClosing stop closer opener opened tokens)
      (expectClosing stop closer opener opened others) := by
  cases hTokens with
  | nil => exact .error (.unclosedDelimiter opener opened stop)
  | cons hToken hRest => exact expect_like (.cons hToken hRest) stop closer

theorem expectIdentifier_like (stop : Span) (role : IdentifierRole) :
    ReadsLike pairs pairs (expectIdentifier stop role tokens) (expectIdentifier stop role others) := by
  cases hTokens with
  | nil => exact .error (.expectedIdentifier role (.mk .endOfFile stop))
  | cons hToken hRest =>
      obtain ⟨hKind, span⟩ := hToken
      cases hKind with
      | identifier paired => exact .ok ⟨paired, hRest⟩
      | keyword | delimiter | operator | integer | endOfFile =>
          exact .error (.expectedIdentifier role (.mk (by constructor) span))

/-- The operator in front is the same, since it is no name. -/
theorem operatorAt_like (level : Nat) : operatorAt level tokens = operatorAt level others := by
  cases hTokens with
  | nil => rfl
  | cons hToken hRest =>
      obtain ⟨hKind, span⟩ := hToken
      rw [operatorAt, operatorAt, hKind.operator?]

end

mutual

/-- By the level and the tokens, as the reader goes on. The bounds may differ, for nothing that is
found depends on them. -/
theorem operand_like (stop : Span) (level : Nat) {tokens others : Tokens}
    (hTokens : List.Forall₂ (Token.Like pairs) tokens others) {bound larger : Nat}
    (fits : tokens.length ≤ bound) (fits' : others.length ≤ larger) :
    ReadsLike pairs (Expr.Like pairs) (operand stop level tokens fits)
      (operand stop level others fits') := by
  match level with
  | 0 =>
      rw [operand, operand]
      exact primary_like stop hTokens fits fits'
  | level + 1 =>
      rw [operand, operand]
      refine (operand_like stop level hTokens fits fits').bind fun left left' hLeft hRest => ?_
      exact operations_like stop level hLeft hRest left.shorter left'.shorter
termination_by (bound, level + 1)
decreasing_by
  · exact Prod.Lex.right _ (Nat.succ_pos _)
  · exact Prod.Lex.right _ (Nat.lt_succ_self _)
  · exact Prod.Lex.left _ _ left.shorter

theorem operations_like (stop : Span) (level : Nat) {left left' : Expr} (hLeft : left.Like pairs left')
    {tokens others : Tokens} (hTokens : List.Forall₂ (Token.Like pairs) tokens others)
    {bound larger : Nat} (shorter : tokens.length < bound) (shorter' : others.length < larger) :
    ReadsLike pairs (Expr.Like pairs) (operations stop level left tokens shorter)
      (operations stop level left' others shorter') := by
  match tokens, others, hTokens with
  | [], [], .nil =>
      rw [operations, operations]
      exact .ok ⟨hLeft, .nil⟩
  | token :: rest, token' :: rest', .cons hToken hRest =>
      have hSame := operatorAt_like (.cons hToken hRest) (level + 1)
      rw [operations, operations, ← hSame]
      cases operatorAt (level + 1) (token :: rest) with
      | none => exact .ok ⟨hLeft, .cons hToken hRest⟩
      | some op =>
          simp only
          refine (operand_like stop level hRest _ _).bind fun right right' hRight hFurther => ?_
          exact operations_like stop level (.binary op hLeft hRight) hFurther _ _
termination_by (tokens.length, 0)
decreasing_by
  · exact Prod.Lex.left _ _ (Nat.lt_succ_self _)
  · exact Prod.Lex.left _ _ (Nat.lt_succ_of_lt right.shorter)

/-- Whether an identifier is called is decided by a delimiter. -/
theorem primary_like (stop : Span) {tokens others : Tokens}
    (hTokens : List.Forall₂ (Token.Like pairs) tokens others) {bound larger : Nat}
    (fits : tokens.length ≤ bound) (fits' : others.length ≤ larger) :
    ReadsLike pairs (Expr.Like pairs) (primary stop tokens fits) (primary stop others fits') := by
  match tokens, others, hTokens with
  | [], [], .nil =>
      rw [primary, primary]
      exact .error (.expectedExpression (.mk .endOfFile stop))
  | ⟨kind, span⟩ :: rest, ⟨kind', _⟩ :: rest', .cons (.mk hKind _) hRest =>
      cases hKind with
      | keyword | operator | endOfFile =>
          rw [primary, primary]
          exact .error (.expectedExpression (.mk (by constructor) span))
      | integer value =>
          rw [primary, primary]
          exact .ok ⟨.literal value, hRest⟩
      | identifier paired =>
          match rest, rest', hRest with
          | [], [], .nil =>
              rw [primary, primary]
              exact .ok ⟨.reference paired, .nil⟩
          | ⟨next, opened⟩ :: input, ⟨next', _⟩ :: input', .cons (.mk hNext _) hInput =>
              rw [primary, primary]
              simp only [hNext.eq_delimiter_iff]
              split
              next =>
                refine (arguments_like stop opened hInput _ _).bind fun found found' hFound hMore => ?_
                exact .ok ⟨.call paired hFound, hMore⟩
              next => exact .ok ⟨.reference paired, .cons (.mk hNext opened) hInput⟩
      | delimiter delimiter =>
          rw [primary, primary]
          simp only
          split
          next =>
            refine (operand_like stop BinaryOp.loosest hRest _ _).bind fun inner inner' hInner hMore => ?_
            refine (expectClosing_like hMore stop .closeParen .openParen span).bind
              fun close close' _ hAfter => ?_
            exact .ok ⟨hInner, hAfter⟩
          next => exact .error (.expectedExpression (.mk (.delimiter delimiter) span))
termination_by (bound, 0)
decreasing_by
  · exact Prod.Lex.left _ _ fits
  · exact Prod.Lex.left _ _ (Nat.lt_of_succ_lt fits)

theorem arguments_like (stop opened : Span) {tokens others : Tokens}
    (hTokens : List.Forall₂ (Token.Like pairs) tokens others) {bound larger : Nat}
    (fits : tokens.length ≤ bound) (fits' : others.length ≤ larger) :
    ReadsLike pairs (List.Forall₂ (Expr.Like pairs)) (arguments stop opened tokens fits)
      (arguments stop opened others fits') := by
  match tokens, others, hTokens with
  | [], [], .nil =>
      rw [arguments, arguments]
      exact furtherArguments_like stop opened .nil fits fits'
  | ⟨kind, span⟩ :: rest, ⟨kind', _⟩ :: rest', .cons (.mk hKind _) hRest =>
      rw [arguments, arguments]
      simp only [hKind.eq_delimiter_iff]
      split
      next => exact .ok ⟨.nil, hRest⟩
      next => exact furtherArguments_like stop opened (.cons (.mk hKind span) hRest) fits fits'
termination_by (bound, BinaryOp.loosest + 3)
decreasing_by
  · exact Prod.Lex.right _ (Nat.lt_succ_self _)
  · exact Prod.Lex.right _ (Nat.lt_succ_self _)

theorem furtherArguments_like (stop opened : Span) {tokens others : Tokens}
    (hTokens : List.Forall₂ (Token.Like pairs) tokens others) {bound larger : Nat}
    (fits : tokens.length ≤ bound) (fits' : others.length ≤ larger) :
    ReadsLike pairs (List.Forall₂ (Expr.Like pairs)) (furtherArguments stop opened tokens fits)
      (furtherArguments stop opened others fits') := by
  rw [furtherArguments, furtherArguments]
  refine (operand_like stop BinaryOp.loosest hTokens fits fits').bind
    fun argument argument' hArgument hRest => ?_
  obtain ⟨value, rest, shorter⟩ := argument
  obtain ⟨value', rest', shorter'⟩ := argument'
  cases hRest with
  | nil => exact .error (.unclosedDelimiter .openParen opened stop)
  | cons hToken hInput =>
      obtain ⟨hKind, span⟩ := hToken
      simp only [hKind.eq_delimiter_iff]
      split
      next =>
        refine (furtherArguments_like stop opened hInput _ _).bind fun found found' hFound hMore => ?_
        exact .ok ⟨.cons hArgument hFound, hMore⟩
      next =>
        refine (expect_like (.cons (.mk hKind span) hInput) stop .closeParen).bind
          fun close close' _ hAfter => ?_
        exact .ok ⟨.cons hArgument .nil, hAfter⟩
termination_by (bound, BinaryOp.loosest + 2)
decreasing_by
  · exact Prod.Lex.right _ (Nat.lt_succ_self _)
  · exact Prod.Lex.left _ _ (Nat.lt_of_succ_lt shorter)

end

section

variable {tokens others : Tokens} (hTokens : List.Forall₂ (Token.Like pairs) tokens others)

include hTokens

theorem expression_like (stop : Span) :
    ReadsLike pairs (Expr.Like pairs) (expression stop tokens) (expression stop others) :=
  operand_like stop BinaryOp.loosest hTokens _ _

theorem condition_like (stop : Span) :
    ReadsLike pairs (Expr.Like pairs) (condition stop tokens) (condition stop others) := by
  rw [condition, condition]
  refine (expect_like hTokens stop .openParen).bind fun opening opening' hOpened hRest => ?_
  rw [← hOpened]
  refine (expression_like hRest stop).bind fun value value' hValue hMore => ?_
  refine (expectClosing_like hMore stop .closeParen .openParen opening.value).bind
    fun close close' _ hAfter => ?_
  exact .ok ⟨hValue, hAfter⟩

theorem declaration_like (stop : Span) :
    ReadsLike pairs (Stmt.Like pairs) (declaration stop tokens) (declaration stop others) := by
  rw [declaration, declaration]
  refine (expectIdentifier_like hTokens stop .variableName).bind fun name name' hName hRest => ?_
  refine (expect_like hRest stop .assign).bind fun sign sign' _ hMore => ?_
  refine (expression_like hMore stop).bind fun value value' hValue hAfter => ?_
  exact .ok ⟨.declare hName hValue, hAfter⟩

/-- An expression for its effects, as the reader has it when there is no assignment. -/
theorem evaluation_like (stop : Span) :
    ReadsLike pairs (Stmt.Like pairs)
      (do
        let value ← expression stop tokens
        .ok (⟨.evaluate value.value, value.rest, value.shorter⟩ : Parsed Stmt tokens.length))
      (do
        let value ← expression stop others
        .ok (⟨.evaluate value.value, value.rest, value.shorter⟩ : Parsed Stmt others.length)) :=
  (expression_like hTokens stop).bind fun _ _ hValue hRest => .ok ⟨.evaluate hValue, hRest⟩

/-- The two tokens that decide are of the same kinds in both. -/
theorem assignmentOrExpression_like (stop : Span) :
    ReadsLike pairs (Stmt.Like pairs) (assignmentOrExpression stop tokens)
      (assignmentOrExpression stop others) := by
  unfold assignmentOrExpression
  split
  next name span place rest =>
    cases hTokens with
    | cons hToken hMore =>
        cases hMore with
        | cons hNext hRest =>
            obtain ⟨hKind, span⟩ := hToken
            obtain ⟨hSign, place⟩ := hNext
            cases hKind with
            | identifier paired =>
                cases hSign with
                | delimiter =>
                    refine (expression_like hRest stop).bind fun value value' hValue hAfter => ?_
                    exact .ok ⟨.assign paired hValue, hAfter⟩
  next hOther =>
    split
    next name span place rest =>
      cases hTokens with
      | cons hToken hMore =>
          cases hMore with
          | cons hNext hRest =>
              obtain ⟨hKind, span⟩ := hToken
              obtain ⟨hSign, place⟩ := hNext
              cases hKind with
              | identifier paired =>
                  cases hSign with
                  | delimiter => exact (hOther _ _ _ _ rfl).elim
    next => exact evaluation_like hTokens stop

theorem withoutSemicolon_like :
    List.Forall₂ (Token.Like pairs) (withoutSemicolon tokens) (withoutSemicolon others) := by
  cases hTokens with
  | nil => exact .nil
  | cons hToken hRest =>
      obtain ⟨hKind, span⟩ := hToken
      cases hKind with
      | delimiter delimiter =>
          cases delimiter with
          | semicolon => exact hRest
          | openParen | closeParen | openBrace | closeBrace | comma | assign =>
              exact .cons (.mk (.delimiter _) span) hRest
      | identifier paired => exact .cons (.mk (.identifier paired) span) hRest
      | keyword | operator | integer | endOfFile => exact .cons (.mk (by constructor) span) hRest

end

theorem furtherParameters_like (stop opened : Span) {tokens others : Tokens}
    (hTokens : List.Forall₂ (Token.Like pairs) tokens others) {bound larger : Nat}
    (fits : tokens.length ≤ bound) (fits' : others.length ≤ larger) :
    ReadsLike pairs (List.Forall₂ pairs) (furtherParameters stop opened tokens fits)
      (furtherParameters stop opened others fits') := by
  rw [furtherParameters, furtherParameters]
  refine (expectIdentifier_like hTokens stop .parameterName).bind
    fun parameter parameter' hParameter hRest => ?_
  obtain ⟨name, rest, shorter⟩ := parameter
  obtain ⟨name', rest', shorter'⟩ := parameter'
  cases hRest with
  | nil => exact .error (.unclosedDelimiter .openParen opened stop)
  | cons hToken hInput =>
      obtain ⟨hKind, span⟩ := hToken
      simp only [hKind.eq_delimiter_iff]
      split
      next =>
        refine (furtherParameters_like stop opened hInput _ _).bind fun found found' hFound hMore => ?_
        exact .ok ⟨.cons hParameter hFound, hMore⟩
      next =>
        refine (expect_like (.cons (.mk hKind span) hInput) stop .closeParen).bind
          fun close close' _ hAfter => ?_
        exact .ok ⟨.cons hParameter .nil, hAfter⟩
termination_by bound
decreasing_by exact Nat.lt_of_succ_lt (Nat.lt_of_lt_of_le shorter fits)

theorem parameters_like (stop opened : Span) {tokens others : Tokens}
    (hTokens : List.Forall₂ (Token.Like pairs) tokens others) {bound larger : Nat}
    (fits : tokens.length ≤ bound) (fits' : others.length ≤ larger) :
    ReadsLike pairs (List.Forall₂ pairs) (parameters stop opened tokens fits)
      (parameters stop opened others fits') := by
  cases hTokens with
  | nil => exact furtherParameters_like stop opened .nil fits fits'
  | cons hToken hRest =>
      obtain ⟨hKind, span⟩ := hToken
      rw [parameters, parameters]
      simp only [hKind.eq_delimiter_iff]
      split
      next => exact .ok ⟨.nil, hRest⟩
      next => exact furtherParameters_like stop opened (.cons (.mk hKind span) hRest) fits fits'

/-- The same step under another bound. -/
theorem ReadsLike.widen {α : Type} {like : α → α → Prop} {bound larger bound' larger' : Nat}
    {first : Except ParseError (Parsed α bound)} {second : Except ParseError (Parsed α larger)}
    (h : ReadsLike pairs like first second) (fits : bound ≤ bound') (fits' : larger ≤ larger') :
    ReadsLike pairs like ((·.widen fits) <$> first) ((·.widen fits') <$> second) :=
  h.map (fun _ _ hFound => ⟨hFound.value, hFound.rest⟩)

theorem dropSemicolon_like {α : Type} {like : α → α → Prop} {bound larger : Nat}
    {first : Parsed α bound} {second : Parsed α larger} (h : first.Like pairs like second) :
    (dropSemicolon first).Like pairs like (dropSemicolon second) := by
  constructor
  · rw [dropSemicolon_value, dropSemicolon_value]
    exact h.value
  · rw [dropSemicolon_rest, dropSemicolon_rest]
    exact withoutSemicolon_like h.rest

mutual

theorem statement_like (stop : Span) {tokens others : Tokens}
    (hTokens : List.Forall₂ (Token.Like pairs) tokens others) {bound larger : Nat}
    (fits : tokens.length ≤ bound) (fits' : others.length ≤ larger) :
    ReadsLike pairs (Stmt.Like pairs) (statement stop tokens fits) (statement stop others fits') := by
  rw [statement, statement]
  exact (bareStatement_like stop hTokens fits fits').map (fun _ _ hFound => dropSemicolon_like hFound)
termination_by (bound, 3)
decreasing_by exact Prod.Lex.right _ (Nat.lt_succ_self _)

/-- Keywords are the same in both, so the same kind of statement is read. -/
theorem bareStatement_like (stop : Span) {tokens others : Tokens}
    (hTokens : List.Forall₂ (Token.Like pairs) tokens others) {bound larger : Nat}
    (fits : tokens.length ≤ bound) (fits' : others.length ≤ larger) :
    ReadsLike pairs (Stmt.Like pairs) (bareStatement stop tokens fits)
      (bareStatement stop others fits') := by
  match tokens, others, hTokens with
  | [], [], .nil =>
      rw [bareStatement, bareStatement]
      exact (assignmentOrExpression_like .nil stop).widen fits fits'
  | ⟨kind, span⟩ :: rest, ⟨kind', _⟩ :: rest', .cons (.mk hKind _) hRest =>
      have hOther := (assignmentOrExpression_like (.cons (.mk hKind span) hRest) stop).widen fits fits'
      cases hKind with
      | delimiter | operator | integer | identifier | endOfFile =>
          rw [bareStatement, bareStatement]
          exact hOther
      | keyword keyword =>
          cases keyword with
          | otherwise =>
              rw [bareStatement, bareStatement]
              exact hOther
          | declare =>
              rw [bareStatement, bareStatement]
              exact (declaration_like hRest stop).bind fun _ _ hFound hMore => .ok ⟨hFound, hMore⟩
          | yield =>
              rw [bareStatement, bareStatement]
              exact (expression_like hRest stop).bind fun _ _ hValue hMore => .ok ⟨.yield hValue, hMore⟩
          | function =>
              rw [bareStatement, bareStatement]
              refine (expectIdentifier_like hRest stop .functionName).bind fun name name' hName hAfter => ?_
              refine (expect_like hAfter stop .openParen).bind fun opening opening' hOpened hInner => ?_
              rw [← hOpened]
              refine (parameters_like stop opening.value hInner _ _).bind
                fun found found' hFound hMore => ?_
              refine (block_like stop hMore _ _).bind fun body body' hBody hLast => ?_
              exact .ok ⟨.function hName hFound hBody, hLast⟩
          | loop =>
              rw [bareStatement, bareStatement]
              refine (condition_like hRest stop).bind fun test test' hTest hMore => ?_
              refine (block_like stop hMore _ _).bind fun body body' hBody hLast => ?_
              exact .ok ⟨.loop hTest hBody, hLast⟩
          | branch =>
              rw [bareStatement, bareStatement]
              refine (condition_like hRest stop).bind fun test test' hTest hMore => ?_
              refine (block_like stop hMore _ _).bind fun positive positive' hPositive hAfter => ?_
              obtain ⟨block, left, shorter⟩ := positive
              obtain ⟨block', left', shorter'⟩ := positive'
              cases hAfter with
              | nil => exact .ok ⟨.branch hTest hPositive .nil, .nil⟩
              | cons hNext hInput =>
                  obtain ⟨hNextKind, place⟩ := hNext
                  simp only [hNextKind.eq_keyword_iff]
                  split
                  next =>
                    refine (block_like stop hInput _ _).bind fun negative negative' hNegative hLast => ?_
                    exact .ok ⟨.branch hTest hPositive hNegative, hLast⟩
                  next => exact .ok ⟨.branch hTest hPositive .nil, .cons (.mk hNextKind place) hInput⟩
termination_by (bound, 2)
decreasing_by
  · exact Prod.Lex.left _ _
      (Nat.lt_trans (Nat.lt_trans found.shorter opening.shorter) (Nat.lt_trans name.shorter fits))
  · exact Prod.Lex.left _ _ (Nat.lt_trans test.shorter fits)
  · exact Prod.Lex.left _ _ (Nat.lt_trans test.shorter fits)
  · exact Prod.Lex.left _ _ (Nat.lt_of_succ_lt (Nat.lt_trans shorter (Nat.lt_trans test.shorter fits)))

theorem block_like (stop : Span) {tokens others : Tokens}
    (hTokens : List.Forall₂ (Token.Like pairs) tokens others) {bound larger : Nat}
    (fits : tokens.length ≤ bound) (fits' : others.length ≤ larger) :
    ReadsLike pairs (Block.Like pairs) (block stop tokens fits) (block stop others fits') := by
  rw [block, block]
  refine (expect_like hTokens stop .openBrace).bind fun opening opening' hOpened hRest => ?_
  rw [← hOpened]
  refine (statements_like stop opening.value hRest _ _).bind fun body body' hBody hMore => ?_
  exact .ok ⟨hBody, hMore⟩
termination_by (bound, 1)
decreasing_by exact Prod.Lex.left _ _ (Nat.lt_of_lt_of_le opening.shorter fits)

theorem statements_like (stop opened : Span) {tokens others : Tokens}
    (hTokens : List.Forall₂ (Token.Like pairs) tokens others) {bound larger : Nat}
    (fits : tokens.length ≤ bound) (fits' : others.length ≤ larger) :
    ReadsLike pairs (Block.Like pairs) (statements stop opened tokens fits)
      (statements stop opened others fits') := by
  match tokens, others, hTokens with
  | [], [], .nil =>
      rw [statements, statements]
      exact .error (.unclosedDelimiter .openBrace opened stop)
  | ⟨kind, span⟩ :: rest, ⟨kind', _⟩ :: rest', .cons (.mk hKind _) hRest =>
      rw [statements, statements]
      simp only [hKind.eq_delimiter_iff]
      split
      next => exact .ok ⟨.nil, hRest⟩
      next =>
        split
        next =>
          refine (statements_like stop opened hRest _ _).bind fun found found' hFound hMore => ?_
          exact .ok ⟨hFound, hMore⟩
        next =>
          refine (statement_like stop (.cons (.mk hKind span) hRest) fits fits').bind
            fun first first' hFirst hMore => ?_
          refine (statements_like stop opened hMore _ _).bind fun found found' hFound hLast => ?_
          exact .ok ⟨.cons hFirst hFound, hLast⟩
termination_by (bound, 4)
decreasing_by
  · exact Prod.Lex.right _ (Nat.lt_succ_self _)
  · exact Prod.Lex.left _ _ first.shorter
  · exact Prod.Lex.left _ _ fits

end

/-- Both rows of tokens are programs, and the same, or both have the same error. -/
abbrev ProgramLike (pairs : Name → Name → Prop) :
    Except ParseError Block → Except ParseError Block → Prop :=
  OutcomeLike (ParseError.Like pairs) (Block.Like pairs)

/-- What both come to at the end are two programs of the same shape, or one error in the same place. -/
theorem program_like (stop : Span) {tokens others : Tokens}
    (hTokens : List.Forall₂ (Token.Like pairs) tokens others) :
    ProgramLike pairs (program stop tokens) (program stop others) := by
  match tokens, others, hTokens with
  | [], [], .nil =>
      rw [program_nil]
      exact .ok .nil
  | ⟨kind, span⟩ :: rest, ⟨kind', _⟩ :: rest', .cons (.mk hKind _) hRest =>
      rw [program, program]
      simp only [hKind.eq_delimiter_iff]
      split
      next => exact program_like stop hRest
      next =>
        refine (statement_like stop (.cons (.mk hKind span) hRest) _ _).bind
          fun first first' hFirst hMore => ?_
        exact (program_like stop hMore).bind fun _ _ hOthers => .ok (.cons hFirst hOthers)
termination_by tokens.length
decreasing_by
  · exact first.shorter
  · exact Nat.lt_succ_self _

/-- The span depends on the places of the tokens, and on which of them ends the text. -/
theorem stopSpan_eq (tokens : Tokens) :
    stopSpan tokens =
      (((tokens.find? (fun token => token.kind == .endOfFile)).map (·.span)).getD
        (((tokens.map (·.span)).getLast?.map (fun span => Span.emptyAt span.limit)).getD Span.origin)) := by
  rw [stopSpan, List.getLast?_map]
  cases tokens.find? (fun token => token.kind == .endOfFile) with
  | some token => rfl
  | none => cases tokens.getLast? <;> rfl

section

variable {tokens others : Tokens} (hTokens : List.Forall₂ (Token.Like pairs) tokens others)

include hTokens

/-- Only identifiers differ, and none of them ends a text. -/
theorem relevant_like : List.Forall₂ (Token.Like pairs) (relevant tokens) (relevant others) := by
  rw [relevant, relevant]
  induction hTokens with
  | nil => exact .nil
  | cons hToken hRest ih =>
      obtain ⟨hKind, span⟩ := hToken
      rw [List.takeWhile_cons, List.takeWhile_cons]
      cases hKind with
      | endOfFile => exact .nil
      | identifier paired => exact .cons (.mk (.identifier paired) span) ih
      | keyword | delimiter | operator | integer => exact .cons (.mk (by constructor) span) ih

theorem stopSpan_like : stopSpan tokens = stopSpan others := by
  have hSpans : tokens.map (·.span) = others.map (·.span) := by
    induction hTokens with
    | nil => rfl
    | cons hToken hRest ih =>
        cases hToken
        rw [List.map_cons, List.map_cons, ih]
  have hFound : (tokens.find? (fun token => token.kind == .endOfFile)).map (·.span) =
      (others.find? (fun token => token.kind == .endOfFile)).map (·.span) := by
    clear hSpans
    induction hTokens with
    | nil => rfl
    | cons hToken hRest ih =>
        obtain ⟨hKind, span⟩ := hToken
        rw [List.find?_cons, List.find?_cons]
        cases hKind with
        | endOfFile => rfl
        | keyword | delimiter | operator | integer | identifier => exact ih
  rw [stopSpan_eq, stopSpan_eq, hFound, hSpans]

/-- The readers only compare kinds of tokens and never one name with another. -/
theorem parse_like : ProgramLike pairs (parse tokens) (parse others) := by
  rw [parse, parse, stopSpan_like hTokens]
  exact program_like _ (relevant_like hTokens)

end

end IntScript.Parser
