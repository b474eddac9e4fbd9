import IntScript.Proofs.Grammar

/-! What each reading step does when it succeeds, without the bounds that make the steps end. Every
step is described by what it finds and by the tokens that it leaves. -/
namespace IntScript.Parser

variable {α β : Type} {bound larger : Nat}

/-- The step succeeds with this value and leaves these tokens. -/
def Reads (result : Except ParseError (Parsed α bound)) (value : α) (rest : Tokens) : Prop :=
  ∃ shorter, result = .ok ⟨value, rest, shorter⟩

def kinds (tokens : Tokens) : Grammar.Kinds :=
  tokens.map (·.kind)

theorem reads_ok (parsed : Parsed α bound) (value : α) (rest : Tokens) :
    Reads (.ok parsed) value rest ↔ value = parsed.value ∧ rest = parsed.rest := by
  constructor
  · rintro ⟨_, h⟩
    cases h
    exact ⟨rfl, rfl⟩
  · rintro ⟨rfl, rfl⟩
    exact ⟨parsed.shorter, rfl⟩

theorem not_reads_error (error : ParseError) (value : α) (rest : Tokens) :
    ¬ Reads (.error error : Except ParseError (Parsed α bound)) value rest := by
  rintro ⟨_, h⟩
  cases h

/-- The bound on what is left is part of every step that succeeds. -/
theorem Reads.shorter {result : Except ParseError (Parsed α bound)} {value : α} {rest : Tokens}
    (h : Reads result value rest) : rest.length < bound :=
  h.1

/-- Two steps in a row succeed exactly when the first does and the second does on what it left. -/
theorem reads_bind (first : Except ParseError (Parsed α bound))
    (next : Parsed α bound → Except ParseError (Parsed β larger)) (value : β) (rest : Tokens) :
    Reads (first >>= next) value rest ↔
      ∃ found middle, ∃ h : Reads first found middle,
        Reads (next ⟨found, middle, h.shorter⟩) value rest := by
  cases first with
  | error error =>
      constructor
      · exact fun h => (not_reads_error error value rest h).elim
      · rintro ⟨found, middle, h, _⟩
        exact (not_reads_error error found middle h).elim
  | ok parsed =>
      constructor
      · exact fun h => ⟨parsed.value, parsed.rest, ⟨parsed.shorter, rfl⟩, h⟩
      · rintro ⟨found, middle, ⟨_, h⟩, hNext⟩
        cases h
        exact hNext

/-- Changing what a step found leaves the question of what it read. -/
theorem reads_map (first : Except ParseError (Parsed α bound))
    (f : Parsed α bound → Parsed β larger) (value : β) (rest : Tokens) :
    Reads (f <$> first) value rest ↔
      ∃ found middle, ∃ h : Reads first found middle,
        value = (f ⟨found, middle, h.shorter⟩).value ∧ rest = (f ⟨found, middle, h.shorter⟩).rest := by
  rw [map_eq_pure_bind, reads_bind]
  simp only [pure, Except.pure, reads_ok]

theorem reads_expect (stop : Span) (delimiter : Delimiter) (tokens : Tokens) (span : Span)
    (rest : Tokens) :
    Reads (expect stop delimiter tokens) span rest ↔
      tokens = ⟨.delimiter delimiter, span⟩ :: rest := by
  cases tokens with
  | nil => simp [expect, not_reads_error]
  | cons token others =>
      obtain ⟨kind, place⟩ := token
      by_cases h : kind = .delimiter delimiter
      · simpa [expect, h, reads_ok] using and_congr eq_comm eq_comm
      · simp [expect, h, not_reads_error]

/-- What is open matters for the error only. -/
theorem reads_expectClosing (stop : Span) (closer opener : Delimiter) (opened : Span)
    (tokens : Tokens) (span : Span) (rest : Tokens) :
    Reads (expectClosing stop closer opener opened tokens) span rest ↔
      tokens = ⟨.delimiter closer, span⟩ :: rest := by
  cases tokens with
  | nil => simp [expectClosing, not_reads_error]
  | cons token others => simpa [expectClosing] using reads_expect stop closer (token :: others) span rest

theorem reads_expectIdentifier (stop : Span) (role : IdentifierRole) (tokens : Tokens)
    (name : Name) (rest : Tokens) :
    Reads (expectIdentifier stop role tokens) name rest ↔
      ∃ span, tokens = ⟨.identifier name, span⟩ :: rest := by
  cases tokens with
  | nil => simp [expectIdentifier, not_reads_error]
  | cons token others =>
      obtain ⟨kind, place⟩ := token
      cases kind with
      | identifier found => simpa [expectIdentifier, reads_ok] using and_congr eq_comm eq_comm
      | _ => simp [expectIdentifier, not_reads_error]

/-- The levels of the grammar are the precedence levels of the operators. -/
theorem mem_operators_iff (level : Nat) (op : BinaryOp) :
    op ∈ Grammar.operators level ↔ op.precedence = level := by
  rcases level with _ | _ | _ | _ | _ | _ | _ | level <;> cases op <;>
    simp [Grammar.operators, BinaryOp.precedence]

def Unjoined (level : Nat) (tokens : Tokens) : Prop :=
  ∀ op span rest, tokens = ⟨.operator op, span⟩ :: rest → op ∉ Grammar.operators level

/-- The precedence of an operator and the lists of the grammar agree on its level. -/
theorem operatorAt_eq_some_iff (level : Nat) (tokens : Tokens) (op : BinaryOp) :
    operatorAt level tokens = some op ↔
      ∃ span rest, tokens = ⟨.operator op, span⟩ :: rest ∧ op ∈ Grammar.operators level := by
  cases tokens with
  | nil => simp [operatorAt]
  | cons token others =>
      obtain ⟨kind, span⟩ := token
      cases kind <;> simp [operatorAt, TokenKind.operator?, Option.filter, mem_operators_iff]
      grind

theorem operatorAt_eq_none_iff (level : Nat) (tokens : Tokens) :
    operatorAt level tokens = none ↔ Unjoined level tokens := by
  rw [Option.eq_none_iff_forall_ne_some]
  simp only [ne_eq, operatorAt_eq_some_iff, Unjoined]
  constructor
  · exact fun h op span rest hTokens hMem => h op ⟨span, rest, hTokens, hMem⟩
  · rintro h op ⟨span, rest, hTokens, hMem⟩
    exact h op span rest hTokens hMem

theorem reads_operand_zero (stop : Span) (tokens : Tokens) (fits : tokens.length ≤ bound)
    (expr : Expr) (rest : Tokens) :
    Reads (operand stop 0 tokens fits) expr rest ↔ Reads (primary stop tokens fits) expr rest := by
  rw [operand]

/-- A level is one operand of the level below, and steps of its own. -/
theorem reads_operand_succ (stop : Span) (level : Nat) (tokens : Tokens)
    (fits : tokens.length ≤ bound) (expr : Expr) (rest : Tokens) :
    Reads (operand stop (level + 1) tokens fits) expr rest ↔
      ∃ left middle, ∃ h : Reads (operand stop level tokens fits) left middle,
        Reads (operations stop level left middle h.shorter) expr rest := by
  rw [operand, reads_bind]

/-- Operators of the level are read as long as there are any. -/
theorem reads_operations (stop : Span) (level : Nat) (left : Expr) (tokens : Tokens)
    (shorter : tokens.length < bound) (expr : Expr) (rest : Tokens) :
    Reads (operations stop level left tokens shorter) expr rest ↔
      (Unjoined (level + 1) tokens ∧ expr = left ∧ rest = tokens) ∨
      ∃ op span others right middle, tokens = ⟨.operator op, span⟩ :: others ∧
        op ∈ Grammar.operators (level + 1) ∧
        Reads (operand stop level others (Nat.le_refl _)) right middle ∧
        ∃ fewer, Reads (@operations stop level (.binary op left right) middle bound fewer) expr rest := by
  cases tokens with
  | nil =>
      rw [operations, reads_ok]
      constructor
      · rintro ⟨rfl, rfl⟩
        refine Or.inl ⟨fun _ _ _ h => ?_, rfl, rfl⟩
        cases h
      · rintro (⟨_, rfl, rfl⟩ | ⟨_, _, _, _, _, h, _⟩)
        · exact ⟨rfl, rfl⟩
        · cases h
  | cons token others =>
      rw [operations]
      cases hAt : operatorAt (level + 1) (token :: others) with
      | none =>
          have hUnjoined := (operatorAt_eq_none_iff _ _).mp hAt
          simp only [reads_ok]
          constructor
          · rintro ⟨rfl, rfl⟩
            exact Or.inl ⟨hUnjoined, rfl, rfl⟩
          · rintro (⟨_, rfl, rfl⟩ | ⟨op, span, others', _, _, hTokens, hMem, _⟩)
            · exact ⟨rfl, rfl⟩
            · exact (hUnjoined op span others' hTokens hMem).elim
      | some op =>
          obtain ⟨span, rest', hTokens, hMem⟩ := (operatorAt_eq_some_iff _ _ _).mp hAt
          cases hTokens
          simp only [reads_bind]
          constructor
          · rintro ⟨right, middle, hRight, hOthers⟩
            exact Or.inr ⟨op, span, others, right, middle, rfl, hMem, hRight, _, hOthers⟩
          · rintro (⟨hUnjoined, _⟩ | ⟨_, _, _, right, middle, hSame, _, hRight, _, hOthers⟩)
            · exact (hUnjoined op span others rfl hMem).elim
            · cases hSame
              exact ⟨right, middle, hRight, hOthers⟩

theorem reads_primary_integer (stop : Span) (value : Int32) (span : Span) (others : Tokens)
    (fits : (⟨.integer value, span⟩ :: others : Tokens).length ≤ bound) (expr : Expr) (rest : Tokens) :
    Reads (primary stop (⟨.integer value, span⟩ :: others) fits) expr rest ↔
      expr = .literal value ∧ rest = others := by
  simp [primary, reads_ok]

/-- An identifier is a variable exactly when no opening parenthesis stands after it. -/
theorem reads_primary_identifier (stop : Span) (name : Name) (span : Span) (others : Tokens)
    (fits : (⟨.identifier name, span⟩ :: others : Tokens).length ≤ bound) (expr : Expr)
    (rest : Tokens) :
    Reads (primary stop (⟨.identifier name, span⟩ :: others) fits) expr rest ↔
      (Grammar.unopened (kinds others) ∧ expr = .reference name ∧ rest = others) ∨
      ∃ opened input values, others = ⟨.delimiter .openParen, opened⟩ :: input ∧
        Reads (arguments stop opened input (Nat.le_refl _)) values rest ∧
        expr = .call name values := by
  cases others with
  | nil => simp [primary, reads_ok, Grammar.unopened, kinds]
  | cons next input =>
      obtain ⟨kind, opened⟩ := next
      by_cases h : kind = .delimiter .openParen
      · subst h
        simp only [primary, reads_bind, reads_ok, Grammar.unopened, kinds, List.map_cons,
          List.head?_cons, if_pos, ne_eq, not_true_eq_false, false_and, false_or]
        constructor
        · rintro ⟨values, middle, hInner, rfl, rfl⟩
          exact ⟨opened, input, values, rfl, hInner, rfl⟩
        · rintro ⟨_, _, values, hOthers, hInner, rfl⟩
          cases hOthers
          exact ⟨values, rest, hInner, rfl, rfl⟩
      · simp [primary, reads_ok, h, Grammar.unopened, kinds]

/-- Parentheses leave no trace in the expression. -/
theorem reads_primary_openParen (stop : Span) (span : Span) (others : Tokens)
    (fits : (⟨.delimiter .openParen, span⟩ :: others : Tokens).length ≤ bound) (expr : Expr)
    (rest : Tokens) :
    Reads (primary stop (⟨.delimiter .openParen, span⟩ :: others) fits) expr rest ↔
      ∃ close, Reads (operand stop BinaryOp.loosest others (Nat.le_refl _)) expr
        (⟨.delimiter .closeParen, close⟩ :: rest) := by
  simp only [primary, reads_bind, reads_ok, reads_expectClosing, if_pos]
  constructor
  · rintro ⟨value, middle, hInner, close, _, rfl, rfl, rfl⟩
    exact ⟨close, hInner⟩
  · rintro ⟨close, hInner⟩
    exact ⟨expr, _, hInner, close, rest, rfl, rfl, rfl⟩

/-- Only an integer, an identifier or an opening parenthesis begins an operand. -/
theorem Reads.beginsPrimary {stop : Span} {tokens : Tokens} {fits : tokens.length ≤ bound}
    {expr : Expr} {rest : Tokens} (h : Reads (primary stop tokens fits) expr rest) :
    ∃ kind span others, tokens = ⟨kind, span⟩ :: others ∧
      ((∃ value, kind = .integer value) ∨ (∃ name, kind = .identifier name) ∨
        kind = .delimiter .openParen) := by
  cases tokens with
  | nil =>
      rw [primary] at h
      exact (not_reads_error _ _ _ h).elim
  | cons token others =>
      obtain ⟨kind, span⟩ := token
      refine ⟨kind, span, others, rfl, ?_⟩
      cases kind with
      | integer value => exact Or.inl ⟨value, rfl⟩
      | identifier name => exact Or.inr (Or.inl ⟨name, rfl⟩)
      | delimiter delimiter =>
          by_cases hOpen : delimiter = .openParen
          · exact Or.inr (Or.inr (by rw [hOpen]))
          · simp only [primary, if_neg hOpen] at h
            exact (not_reads_error _ _ _ h).elim
      | keyword _ | operator _ | endOfFile =>
          simp only [primary] at h
          exact (not_reads_error _ _ _ h).elim

/-- Arguments are none at all, or some that end with the parenthesis. -/
theorem reads_arguments (stop opened : Span) (tokens : Tokens) (fits : tokens.length ≤ bound)
    (values : List Expr) (rest : Tokens) :
    Reads (arguments stop opened tokens fits) values rest ↔
      (∃ span, tokens = ⟨.delimiter .closeParen, span⟩ :: rest ∧ values = []) ∨
      ((∀ span others, tokens ≠ ⟨.delimiter .closeParen, span⟩ :: others) ∧
        Reads (furtherArguments stop opened tokens fits) values rest) := by
  cases tokens with
  | nil => simp [arguments]
  | cons token others =>
      obtain ⟨kind, span⟩ := token
      by_cases h : kind = .delimiter .closeParen
      · simpa [arguments, h, reads_ok, and_comm] using fun _ => eq_comm
      · simp [arguments, h]

/-- After an argument stands the closing parenthesis, or a comma and further arguments. -/
theorem reads_furtherArguments (stop opened : Span) (tokens : Tokens)
    (fits : tokens.length ≤ bound) (values : List Expr) (rest : Tokens) :
    Reads (furtherArguments stop opened tokens fits) values rest ↔
      ∃ value span,
        (Reads (operand stop BinaryOp.loosest tokens fits) value (⟨.delimiter .closeParen, span⟩ :: rest) ∧
          values = [value]) ∨
        ∃ others further,
          Reads (operand stop BinaryOp.loosest tokens fits) value (⟨.delimiter .comma, span⟩ :: others) ∧
          Reads (furtherArguments stop opened others (Nat.le_refl _)) further rest ∧
          values = value :: further := by
  rw [furtherArguments, reads_bind]
  constructor
  · rintro ⟨value, middle, hValue, h⟩
    cases middle with
    | nil => exact (not_reads_error _ _ _ h).elim
    | cons token others =>
        obtain ⟨kind, span⟩ := token
        refine ⟨value, span, ?_⟩
        by_cases hComma : kind = .delimiter .comma
        · subst hComma
          simp only [if_pos, reads_bind, reads_ok] at h
          obtain ⟨further, _, hFurther, rfl, rfl⟩ := h
          exact Or.inr ⟨others, further, hValue, hFurther, rfl⟩
        · simp only [if_neg hComma, reads_bind, reads_expect, reads_ok] at h
          obtain ⟨_, _, hClose, rfl, rfl⟩ := h
          cases hClose
          exact Or.inl ⟨hValue, rfl⟩
  · rintro ⟨value, span, ⟨hValue, rfl⟩ | ⟨others, further, hValue, hFurther, rfl⟩⟩
    · refine ⟨value, _, hValue, ?_⟩
      simp [reads_bind, reads_expect, reads_ok]
    · refine ⟨value, _, hValue, ?_⟩
      simp only [if_pos, reads_bind, reads_ok]
      exact ⟨further, rest, hFurther, rfl, rfl⟩

/-- After a name there is the end of the list or a comma, and nothing else. -/
theorem reads_furtherParameters (stop opened : Span) (tokens : Tokens)
    (fits : tokens.length ≤ bound) (names : List Name) (rest : Tokens) :
    Reads (furtherParameters stop opened tokens fits) names rest ↔
      ∃ name place span,
        (tokens = ⟨.identifier name, place⟩ :: ⟨.delimiter .closeParen, span⟩ :: rest ∧ names = [name]) ∨
        ∃ others further,
          tokens = ⟨.identifier name, place⟩ :: ⟨.delimiter .comma, span⟩ :: others ∧
          Reads (furtherParameters stop opened others (Nat.le_refl _)) further rest ∧
          names = name :: further := by
  rw [furtherParameters, reads_bind]
  simp only [reads_expectIdentifier]
  constructor
  · rintro ⟨name, middle, ⟨place, rfl⟩, h⟩
    cases middle with
    | nil => exact (not_reads_error _ _ _ h).elim
    | cons token others =>
        obtain ⟨kind, span⟩ := token
        refine ⟨name, place, span, ?_⟩
        by_cases hComma : kind = .delimiter .comma
        · subst hComma
          simp only [if_pos, reads_bind, reads_ok] at h
          obtain ⟨further, _, hFurther, rfl, rfl⟩ := h
          exact Or.inr ⟨others, further, rfl, hFurther, rfl⟩
        · simp only [if_neg hComma, reads_bind, reads_expect, reads_ok] at h
          obtain ⟨_, _, hClose, rfl, rfl⟩ := h
          cases hClose
          exact Or.inl ⟨rfl, rfl⟩
  · rintro ⟨name, place, span, ⟨rfl, rfl⟩ | ⟨others, further, rfl, hFurther, rfl⟩⟩
    · refine ⟨name, _, ⟨place, rfl⟩, ?_⟩
      simp [reads_bind, reads_expect, reads_ok]
    · refine ⟨name, _, ⟨place, rfl⟩, ?_⟩
      simp only [if_pos, reads_bind, reads_ok]
      exact ⟨further, rest, hFurther, rfl, rfl⟩

theorem reads_parameters (stop opened : Span) (tokens : Tokens) (fits : tokens.length ≤ bound)
    (names : List Name) (rest : Tokens) :
    Reads (parameters stop opened tokens fits) names rest ↔
      (∃ span, tokens = ⟨.delimiter .closeParen, span⟩ :: rest ∧ names = []) ∨
      ((∀ span others, tokens ≠ ⟨.delimiter .closeParen, span⟩ :: others) ∧
        Reads (furtherParameters stop opened tokens fits) names rest) := by
  cases tokens with
  | nil => simp [parameters]
  | cons token others =>
      obtain ⟨kind, span⟩ := token
      by_cases h : kind = .delimiter .closeParen
      · simpa [parameters, h, reads_ok, and_comm] using fun _ => eq_comm
      · simp [parameters, h]

theorem reads_condition (stop : Span) (tokens : Tokens) (test : Expr) (rest : Tokens) :
    Reads (condition stop tokens) test rest ↔
      ∃ opened others close, tokens = ⟨.delimiter .openParen, opened⟩ :: others ∧
        Reads (expression stop others) test (⟨.delimiter .closeParen, close⟩ :: rest) := by
  simp only [condition, reads_bind, reads_expect, reads_expectClosing, reads_ok]
  constructor
  · rintro ⟨opened, others, rfl, value, middle, hValue, close, _, rfl, rfl, rfl⟩
    exact ⟨opened, others, close, rfl, hValue⟩
  · rintro ⟨opened, others, close, rfl, hValue⟩
    exact ⟨opened, others, rfl, test, _, hValue, close, rest, rfl, rfl, rfl⟩

theorem reads_declaration (stop : Span) (tokens : Tokens) (stmt : Stmt) (rest : Tokens) :
    Reads (declaration stop tokens) stmt rest ↔
      ∃ name span place others value,
        tokens = ⟨.identifier name, span⟩ :: ⟨.delimiter .assign, place⟩ :: others ∧
        Reads (expression stop others) value rest ∧ stmt = .declare name value := by
  simp only [declaration, reads_bind, reads_expectIdentifier, reads_expect, reads_ok]
  constructor
  · rintro ⟨name, _, ⟨span, rfl⟩, place, others, rfl, value, _, hValue, rfl, rfl⟩
    exact ⟨name, span, place, others, value, rfl, hValue, rfl⟩
  · rintro ⟨name, span, place, others, value, rfl, hValue, rfl⟩
    exact ⟨name, _, ⟨span, rfl⟩, place, others, rfl, value, rest, hValue, rfl, rfl⟩

/-- Two tokens decide whether a statement that begins with no keyword is an assignment. -/
theorem reads_assignmentOrExpression (stop : Span) (tokens : Tokens) (stmt : Stmt) (rest : Tokens) :
    Reads (assignmentOrExpression stop tokens) stmt rest ↔
      (∃ name span place others value,
        tokens = ⟨.identifier name, span⟩ :: ⟨.delimiter .assign, place⟩ :: others ∧
        Reads (expression stop others) value rest ∧ stmt = .assign name value) ∨
      ((∀ name span place others,
          tokens ≠ ⟨.identifier name, span⟩ :: ⟨.delimiter .assign, place⟩ :: others) ∧
        ∃ value, Reads (expression stop tokens) value rest ∧ stmt = .evaluate value) := by
  unfold assignmentOrExpression
  split
  · rename_i name span place others
    simp only [reads_bind, reads_ok]
    constructor
    · rintro ⟨value, _, hValue, rfl, rfl⟩
      exact Or.inl ⟨name, span, place, others, value, rfl, hValue, rfl⟩
    · rintro (⟨_, _, _, _, value, hSame, hValue, rfl⟩ | ⟨hOther, _⟩)
      · cases hSame
        exact ⟨value, rest, hValue, rfl, rfl⟩
      · exact (hOther _ _ _ _ rfl).elim
  · rename_i hOther
    simp only [reads_bind, reads_ok]
    constructor
    · rintro ⟨value, _, hValue, rfl, rfl⟩
      exact Or.inr ⟨hOther, value, hValue, rfl⟩
    · rintro (⟨_, _, _, _, _, hSame, _⟩ | ⟨_, value, hValue, rfl⟩)
      · exact (hOther _ _ _ _ hSame).elim
      · exact ⟨value, rest, hValue, rfl, rfl⟩

/-- The row without a semicolon in front, if it has one there. -/
def withoutSemicolon : Tokens → Tokens
  | ⟨.delimiter .semicolon, _⟩ :: rest => rest
  | tokens => tokens

theorem dropSemicolon_value (parsed : Parsed α bound) : (dropSemicolon parsed).value = parsed.value := by
  unfold dropSemicolon
  split
  · rfl
  · dsimp only
    split <;> rfl

theorem dropSemicolon_rest (parsed : Parsed α bound) :
    (dropSemicolon parsed).rest = withoutSemicolon parsed.rest := by
  unfold dropSemicolon
  split
  · rename_i h
    simp only [h, withoutSemicolon]
  · rename_i token rest h
    obtain ⟨kind, span⟩ := token
    dsimp only
    by_cases hKind : kind = .delimiter .semicolon
    · subst hKind
      simp only [if_pos, h, withoutSemicolon]
    · rw [if_neg hKind, h]
      unfold withoutSemicolon
      split
      · rename_i hSame
        cases hSame
        exact (hKind rfl).elim
      · rfl

/-- The semicolon belongs to the statement but leaves no trace in it. -/
theorem reads_statement (stop : Span) (tokens : Tokens) (fits : tokens.length ≤ bound) (stmt : Stmt)
    (rest : Tokens) :
    Reads (statement stop tokens fits) stmt rest ↔
      ∃ middle, Reads (bareStatement stop tokens fits) stmt middle ∧ rest = withoutSemicolon middle := by
  rw [statement, reads_map]
  simp only [dropSemicolon_value, dropSemicolon_rest]
  constructor
  · rintro ⟨_, middle, hBare, rfl, hRest⟩
    exact ⟨middle, hBare, hRest⟩
  · rintro ⟨middle, hBare, hRest⟩
    exact ⟨stmt, middle, hBare, rfl, hRest⟩

theorem reads_bareStatement_function (stop span : Span) (others : Tokens)
    (fits : (⟨.keyword .function, span⟩ :: others : Tokens).length ≤ bound) (stmt : Stmt)
    (rest : Tokens) :
    Reads (bareStatement stop (⟨.keyword .function, span⟩ :: others) fits) stmt rest ↔
      ∃ name place opened input names middle body,
        others = ⟨.identifier name, place⟩ :: ⟨.delimiter .openParen, opened⟩ :: input ∧
        Reads (parameters stop opened input (Nat.le_refl _)) names middle ∧
        Reads (block stop middle (Nat.le_refl _)) body rest ∧ stmt = .function name names body := by
  simp only [bareStatement, reads_bind, reads_expectIdentifier, reads_expect, reads_ok]
  constructor
  · rintro ⟨name, _, ⟨place, rfl⟩, opened, input, rfl, names, middle, hNames, body, _, hBody, rfl, rfl⟩
    exact ⟨name, place, opened, input, names, middle, body, rfl, hNames, hBody, rfl⟩
  · rintro ⟨name, place, opened, input, names, middle, body, rfl, hNames, hBody, rfl⟩
    exact ⟨name, _, ⟨place, rfl⟩, opened, input, rfl, names, middle, hNames, body, rest, hBody, rfl, rfl⟩

theorem reads_bareStatement_declare (stop span : Span) (others : Tokens)
    (fits : (⟨.keyword .declare, span⟩ :: others : Tokens).length ≤ bound) (stmt : Stmt)
    (rest : Tokens) :
    Reads (bareStatement stop (⟨.keyword .declare, span⟩ :: others) fits) stmt rest ↔
      Reads (declaration stop others) stmt rest := by
  simp only [bareStatement, reads_bind, reads_ok, Parsed.widen]
  constructor
  · rintro ⟨_, _, h, rfl, rfl⟩
    exact h
  · exact fun h => ⟨stmt, rest, h, rfl, rfl⟩

theorem reads_bareStatement_loop (stop span : Span) (others : Tokens)
    (fits : (⟨.keyword .loop, span⟩ :: others : Tokens).length ≤ bound) (stmt : Stmt)
    (rest : Tokens) :
    Reads (bareStatement stop (⟨.keyword .loop, span⟩ :: others) fits) stmt rest ↔
      ∃ test middle body, Reads (condition stop others) test middle ∧
        Reads (block stop middle (Nat.le_refl _)) body rest ∧ stmt = .loop test body := by
  simp only [bareStatement, reads_bind, reads_ok]
  constructor
  · rintro ⟨test, middle, hTest, body, _, hBody, rfl, rfl⟩
    exact ⟨test, middle, body, hTest, hBody, rfl⟩
  · rintro ⟨test, middle, body, hTest, hBody, rfl⟩
    exact ⟨test, middle, hTest, body, rest, hBody, rfl, rfl⟩

/-- Whether there is a second block is decided by the token after the first one. -/
theorem reads_bareStatement_branch (stop span : Span) (others : Tokens)
    (fits : (⟨.keyword .branch, span⟩ :: others : Tokens).length ≤ bound) (stmt : Stmt)
    (rest : Tokens) :
    Reads (bareStatement stop (⟨.keyword .branch, span⟩ :: others) fits) stmt rest ↔
      ∃ test middle positive between, Reads (condition stop others) test middle ∧
        Reads (block stop middle (Nat.le_refl _)) positive between ∧
        (((∀ place input, between ≠ ⟨.keyword .otherwise, place⟩ :: input) ∧
            rest = between ∧ stmt = .branch test positive []) ∨
          ∃ place input negative, between = ⟨.keyword .otherwise, place⟩ :: input ∧
            Reads (block stop input (Nat.le_refl _)) negative rest ∧
            stmt = .branch test positive negative) := by
  simp only [bareStatement, reads_bind]
  constructor
  · rintro ⟨test, middle, hTest, positive, between, hPositive, h⟩
    refine ⟨test, middle, positive, between, hTest, hPositive, ?_⟩
    cases between with
    | nil =>
        obtain ⟨rfl, rfl⟩ := (reads_ok _ _ _).mp h
        refine Or.inl ⟨fun _ _ hSame => ?_, rfl, rfl⟩
        cases hSame
    | cons next input =>
        obtain ⟨kind, place⟩ := next
        by_cases hKind : kind = .keyword .otherwise
        · subst hKind
          simp only [if_pos, reads_bind, reads_ok] at h
          obtain ⟨negative, _, hNegative, rfl, rfl⟩ := h
          exact Or.inr ⟨place, input, negative, rfl, hNegative, rfl⟩
        · simp only [if_neg hKind, reads_ok] at h
          obtain ⟨rfl, rfl⟩ := h
          refine Or.inl ⟨fun _ _ hSame => ?_, rfl, rfl⟩
          cases hSame
          exact hKind rfl
  · rintro ⟨test, middle, positive, between, hTest, hPositive, h⟩
    refine ⟨test, middle, hTest, positive, between, hPositive, ?_⟩
    rcases h with ⟨hNone, rfl, rfl⟩ | ⟨place, input, negative, rfl, hNegative, rfl⟩
    · cases rest with
      | nil => simp [reads_ok]
      | cons next input =>
          obtain ⟨kind, place⟩ := next
          have hKind : kind ≠ .keyword .otherwise := by
            rintro rfl
            exact hNone place input rfl
          simp [hKind, reads_ok]
    · simp only [if_pos, reads_bind, reads_ok]
      exact ⟨negative, rest, hNegative, rfl, rfl⟩

theorem reads_bareStatement_yield (stop span : Span) (others : Tokens)
    (fits : (⟨.keyword .yield, span⟩ :: others : Tokens).length ≤ bound) (stmt : Stmt)
    (rest : Tokens) :
    Reads (bareStatement stop (⟨.keyword .yield, span⟩ :: others) fits) stmt rest ↔
      ∃ value, Reads (expression stop others) value rest ∧ stmt = .yield value := by
  simp only [bareStatement, reads_bind, reads_ok]
  constructor
  · rintro ⟨value, _, hValue, rfl, rfl⟩
    exact ⟨value, hValue, rfl⟩
  · rintro ⟨value, hValue, rfl⟩
    exact ⟨value, rest, hValue, rfl, rfl⟩

/-- Without a keyword that introduces a statement in front there is an assignment or an expression. -/
theorem reads_bareStatement_other (stop : Span) (tokens : Tokens) (fits : tokens.length ≤ bound)
    (hHead : ∀ keyword span others, tokens = ⟨.keyword keyword, span⟩ :: others → keyword = .otherwise)
    (stmt : Stmt) (rest : Tokens) :
    Reads (bareStatement stop tokens fits) stmt rest ↔
      Reads (assignmentOrExpression stop tokens) stmt rest := by
  have hWiden (first : Except ParseError (Parsed Stmt tokens.length)) :
      Reads ((·.widen fits) <$> first) stmt rest ↔ Reads first stmt rest := by
    simp only [reads_map, Parsed.widen]
    constructor
    · rintro ⟨_, _, h, rfl, rfl⟩
      exact h
    · exact fun h => ⟨stmt, rest, h, rfl, rfl⟩
  cases tokens with
  | nil => rw [bareStatement, hWiden]
  | cons token others =>
      obtain ⟨kind, span⟩ := token
      cases kind with
      | keyword keyword =>
          cases hHead keyword span others rfl
          simp only [bareStatement, hWiden]
      | _ => simp only [bareStatement, hWiden]

theorem reads_block (stop : Span) (tokens : Tokens) (fits : tokens.length ≤ bound) (body : Block)
    (rest : Tokens) :
    Reads (block stop tokens fits) body rest ↔
      ∃ opened others, tokens = ⟨.delimiter .openBrace, opened⟩ :: others ∧
        Reads (statements stop opened others (Nat.le_refl _)) body rest := by
  rw [block]
  simp only [reads_bind, reads_expect, reads_ok]
  constructor
  · rintro ⟨opened, others, rfl, _, _, hBody, rfl, rfl⟩
    exact ⟨opened, others, rfl, hBody⟩
  · rintro ⟨opened, others, rfl, hBody⟩
    exact ⟨opened, others, rfl, body, rest, hBody, rfl, rfl⟩

/-- A block that is not closed is not read. -/
theorem not_reads_statements_nil (stop opened : Span) (fits : ([] : Tokens).length ≤ bound)
    (body : Block) (rest : Tokens) : ¬ Reads (statements stop opened [] fits) body rest := by
  rw [statements]
  exact not_reads_error _ _ _

theorem reads_statements_closeBrace (stop opened span : Span) (others : Tokens)
    (fits : (⟨.delimiter .closeBrace, span⟩ :: others : Tokens).length ≤ bound) (body : Block)
    (rest : Tokens) :
    Reads (statements stop opened (⟨.delimiter .closeBrace, span⟩ :: others) fits) body rest ↔
      body = [] ∧ rest = others := by
  simp only [statements, if_pos, reads_ok]

/-- A semicolon where a statement could stand is passed over. -/
theorem reads_statements_semicolon (stop opened span : Span) (others : Tokens)
    (fits : (⟨.delimiter .semicolon, span⟩ :: others : Tokens).length ≤ bound) (body : Block)
    (rest : Tokens) :
    Reads (statements stop opened (⟨.delimiter .semicolon, span⟩ :: others) fits) body rest ↔
      Reads (statements stop opened others (Nat.le_refl _)) body rest := by
  rw [statements]
  simp only [reduceCtorEq, if_false, if_pos, TokenKind.delimiter.injEq, reads_bind, reads_ok,
    Parsed.widen]
  constructor
  · rintro ⟨_, _, h, rfl, rfl⟩
    exact h
  · exact fun h => ⟨body, rest, h, rfl, rfl⟩

/-- Any other token has to begin a statement. -/
theorem reads_statements_cons (stop opened : Span) (token : Token Name) (others : Tokens)
    (fits : (token :: others).length ≤ bound) (hClose : token.kind ≠ .delimiter .closeBrace)
    (hSemicolon : token.kind ≠ .delimiter .semicolon) (body : Block) (rest : Tokens) :
    Reads (statements stop opened (token :: others) fits) body rest ↔
      ∃ first middle further, Reads (statement stop (token :: others) fits) first middle ∧
        Reads (statements stop opened middle (Nat.le_refl _)) further rest ∧
        body = first :: further := by
  rw [statements]
  simp only [if_neg hClose, if_neg hSemicolon, reads_bind, reads_ok]
  constructor
  · rintro ⟨first, middle, hFirst, further, _, hFurther, rfl, rfl⟩
    exact ⟨first, middle, further, hFirst, hFurther, rfl⟩
  · rintro ⟨first, middle, further, hFirst, hFurther, rfl⟩
    exact ⟨first, middle, hFirst, further, rest, hFurther, rfl, rfl⟩

theorem program_nil (stop : Span) : program stop [] = .ok [] := by
  rw [program]

theorem program_semicolon (stop span : Span) (others : Tokens) :
    program stop (⟨.delimiter .semicolon, span⟩ :: others) = program stop others := by
  rw [program]
  simp only [if_pos]

/-- The statements of a program are read as those of a block are, but up to the end of the tokens. -/
theorem program_cons_eq_ok_iff (stop : Span) (token : Token Name) (others : Tokens)
    (hSemicolon : token.kind ≠ .delimiter .semicolon) (body : Block) :
    program stop (token :: others) = .ok body ↔
      ∃ first middle further,
        Reads (statement stop (token :: others) (Nat.le_refl _)) first middle ∧
        program stop middle = .ok further ∧ body = first :: further := by
  rw [program, if_neg hSemicolon]
  cases hFirst : statement stop (token :: others) (Nat.le_refl _) with
  | error error =>
      constructor
      · intro h
        cases h
      · rintro ⟨_, _, _, h, _⟩
        exact (not_reads_error _ _ _ h).elim
  | ok parsed =>
      cases hOthers : program stop parsed.rest with
      | error error =>
          constructor
          · intro h
            simp [bind, Except.bind, hOthers] at h
          · rintro ⟨_, _, _, h, hFurther, _⟩
            obtain ⟨rfl, rfl⟩ := (reads_ok _ _ _).mp h
            rw [hOthers] at hFurther
            cases hFurther
      | ok further =>
          constructor
          · intro h
            simp only [bind, Except.bind, hOthers, Except.ok.injEq] at h
            exact ⟨parsed.value, parsed.rest, further, (reads_ok _ _ _).mpr ⟨rfl, rfl⟩, hOthers, h.symm⟩
          · rintro ⟨_, _, _, h, hFurther, rfl⟩
            obtain ⟨rfl, rfl⟩ := (reads_ok _ _ _).mp h
            rw [hOthers] at hFurther
            cases hFurther
            simp [bind, Except.bind, hOthers]

end IntScript.Parser
