import IntScript.Proofs.Grammar.Completeness
import IntScript.Proofs.Grammar.Greedy

/-! The grammar as it is written down, one rule for every symbol. It is ambiguous, since a variable may
end one statement and a parenthesis begin the next. Reading takes each choice at once and never goes
back, and still it finds a program in every row of tokens that the grammar derives. -/
namespace IntScript.Grammar

/-- The symbols that have rules. -/
inductive Symbol where
  | program
  | block
  | statement
  | function
  | declaration
  | loop
  | branch
  | assignment
  | yield
  | expression
  | or
  | and
  | equality
  | comparison
  | additive
  | term
  | primary

/-- The right side of a rule. -/
inductive Pattern where
  | token (kind : TokenKind Name)
  | integer
  | identifier
  /-- Any of several operators. -/
  | operator (among : List BinaryOp)
  | part (symbol : Symbol)
  | sequence (first second : Pattern)
  | either (first second : Pattern)
  | optional (inner : Pattern)
  | many (inner : Pattern)

namespace Pattern

instance : Append Pattern := ⟨sequence⟩

instance : OrElse Pattern := ⟨fun first second => either first (second ())⟩

def keyword (keyword : Keyword) : Pattern := token (.keyword keyword)

def delimiter (delimiter : Delimiter) : Pattern := token (.delimiter delimiter)

/-- `"(" inner ")"` -/
def enclosed (inner : Pattern) : Pattern :=
  delimiter .openParen ++ inner ++ delimiter .closeParen

/-- `(item ("," item)*)?` -/
def separated (item : Pattern) : Pattern :=
  optional (item ++ many (delimiter .comma ++ item))

/-- `operand (operator operand)*` -/
def joined (operand : Symbol) (among : List BinaryOp) : Pattern :=
  part operand ++ many (operator among ++ part operand)

end Pattern

open Pattern in
def rule : Symbol → Pattern
  | .program => many (part .statement)
  | .block => delimiter .openBrace ++ many (part .statement) ++ delimiter .closeBrace
  | .statement =>
      (part .function <|> part .declaration <|> part .loop <|> part .branch <|> part .assignment <|>
        part .yield <|> part .expression) ++ optional (delimiter .semicolon)
  | .function => keyword .function ++ identifier ++ enclosed (separated identifier) ++ part .block
  | .declaration => keyword .declare ++ identifier ++ delimiter .assign ++ part .expression
  | .loop => keyword .loop ++ enclosed (part .expression) ++ part .block
  | .branch =>
      keyword .branch ++ enclosed (part .expression) ++ part .block ++
        optional (keyword .otherwise ++ part .block)
  | .assignment => identifier ++ delimiter .assign ++ part .expression
  | .yield => keyword .yield ++ part .expression
  | .expression => part .or
  | .or => joined .and [.or]
  | .and => joined .equality [.and]
  | .equality => joined .comparison [.eq, .ne]
  | .comparison => joined .additive [.lt, .gt, .le, .ge]
  | .additive => joined .term [.add, .sub]
  | .term => joined .primary [.mul, .div, .mod]
  | .primary =>
      integer <|> identifier ++ enclosed (separated (part .expression)) <|> identifier <|>
        enclosed (part .expression)

/-- The rows of tokens that a pattern derives. -/
inductive Derives : Pattern → Kinds → Prop where
  | token (kind : TokenKind Name) : Derives (.token kind) [kind]
  | integer (value : Int32) : Derives .integer [.integer value]
  | identifier (name : Name) : Derives .identifier [.identifier name]
  | operator {op : BinaryOp} {among : List BinaryOp} (known : op ∈ among) :
      Derives (.operator among) [.operator op]
  | part (symbol : Symbol) {row : Kinds} (inner : Derives (rule symbol) row) :
      Derives (.part symbol) row
  | sequence {first second : Pattern} {front back : Kinds} (left : Derives first front)
      (right : Derives second back) : Derives (.sequence first second) (front ++ back)
  | first {first second : Pattern} {row : Kinds} (inner : Derives first row) :
      Derives (.either first second) row
  | second {first second : Pattern} {row : Kinds} (inner : Derives second row) :
      Derives (.either first second) row
  | absent (inner : Pattern) : Derives (.optional inner) []
  | present {inner : Pattern} {row : Kinds} (some : Derives inner row) : Derives (.optional inner) row
  | done (inner : Pattern) : Derives (.many inner) []
  | again {inner : Pattern} {front back : Kinds} (once : Derives inner front)
      (others : Derives (.many inner) back) : Derives (.many inner) (front ++ back)

/-- What a pattern matches if each symbol matches the rows given for it. -/
def Pattern.Matches (rows : Symbol → Kinds → Prop) : Pattern → Kinds → Prop
  | token kind, row => row = [kind]
  | integer, row => ∃ value, row = [.integer value]
  | identifier, row => ∃ name, row = [.identifier name]
  | operator among, row => ∃ op ∈ among, row = [.operator op]
  | part symbol, row => rows symbol row
  | sequence first second, row =>
      ∃ front back, row = front ++ back ∧ first.Matches rows front ∧ second.Matches rows back
  | either first second, row => first.Matches rows row ∨ second.Matches rows row
  | optional inner, row => row = [] ∨ inner.Matches rows row
  | many inner, row => ∃ parts : List Kinds, row = parts.flatten ∧ ∀ part ∈ parts, inner.Matches rows part

/-- The symbols derive no more than what satisfies the rules. -/
theorem Derives.matches {rows : Symbol → Kinds → Prop}
    (closed : ∀ symbol row, (rule symbol).Matches rows row → rows symbol row) {pattern : Pattern}
    {row : Kinds} (h : Derives pattern row) : pattern.Matches rows row := by
  induction h with
  | token kind => exact (rfl : [kind] = [kind])
  | integer value => exact ⟨value, rfl⟩
  | identifier name => exact ⟨name, rfl⟩
  | operator known => exact ⟨_, known, rfl⟩
  | part symbol inner ih => exact closed symbol _ ih
  | sequence left right ihLeft ihRight => exact ⟨_, _, rfl, ihLeft, ihRight⟩
  | first inner ih => exact Or.inl ih
  | second inner ih => exact Or.inr ih
  | absent inner => exact Or.inl rfl
  | present some ih => exact Or.inr ih
  | done inner => exact ⟨[], rfl, nofun⟩
  | again once others ihOnce ihOthers =>
      obtain ⟨parts, rfl, hParts⟩ := ihOthers
      exact ⟨_ :: parts, rfl, List.forall_mem_cons.mpr ⟨ihOnce, hParts⟩⟩

/-- The row is an expression of the level, whatever comes after it. -/
def StandsAt (level : Nat) (row : Kinds) : Prop :=
  ∃ expr, ∀ rest, Operand anything level (row ++ rest) expr rest

/-- The row is a statement without a semicolon, whatever comes after it. -/
def StandsBare (row : Kinds) : Prop :=
  ∃ stmt, ∀ rest, Statement anything (row ++ rest) stmt rest

/-- What the row of a symbol is, whatever comes after it. A statement may bring its semicolon, and so
is one more statement in front of others. -/
def Stands : Symbol → Kinds → Prop
  | .program, row => ∃ block, ∀ rest, Statements anything (row ++ rest) block rest
  | .block, row => ∃ block, ∀ rest, Braced anything (row ++ rest) block rest
  | .statement, row =>
      ∃ stmt, ∀ rest block last, Statements anything rest block last →
        Statements anything (row ++ rest) (stmt :: block) last
  | .function, row | .declaration, row | .loop, row | .branch, row | .assignment, row
  | .yield, row => StandsBare row
  | .expression, row | .or, row => StandsAt 6 row
  | .and, row => StandsAt 5 row
  | .equality, row => StandsAt 4 row
  | .comparison, row => StandsAt 3 row
  | .additive, row => StandsAt 2 row
  | .term, row => StandsAt 1 row
  | .primary, row => StandsAt 0 row

/-- One lemma for the six levels: the level above joins operands of the level below. -/
theorem standsAt_joined {level : Nat} {operand : Symbol} {among : List BinaryOp} {row : Kinds}
    (h : (Pattern.joined operand among).Matches Stands row)
    (hOperand : Stands operand = StandsAt level) (hAmong : ∀ op ∈ among, op ∈ operators (level + 1)) :
    StandsAt (level + 1) row := by
  obtain ⟨front, _, rfl, hFront, parts, rfl, hParts⟩ := h
  have hSteps : ∃ steps, ∀ rest, Steps anything level (parts.flatten ++ rest) steps rest := by
    induction parts with
    | nil => exact ⟨[], fun rest => .nil level rest⟩
    | cons part parts ih =>
        obtain ⟨hPart, hOthers⟩ := List.forall_mem_cons.mp hParts
        obtain ⟨_, right, rfl, ⟨op, hOp, rfl⟩, hRight⟩ := hPart
        obtain ⟨expr, hExpr⟩ : StandsAt level right := hOperand ▸ hRight
        obtain ⟨steps, hSteps⟩ := ih hOthers
        refine ⟨(op, expr) :: steps, fun rest => ?_⟩
        simp only [List.flatten_cons, List.append_assoc, List.cons_append, List.nil_append]
        exact .cons (hAmong op hOp) (hExpr _) (hSteps rest)
  obtain ⟨first, hFirst⟩ : StandsAt level front := hOperand ▸ hFront
  obtain ⟨steps, hSteps⟩ := hSteps
  refine ⟨steps.foldl join first, fun rest => ?_⟩
  rw [List.append_assoc]
  exact .joined (hFirst _) (hSteps rest)

/-- A row in parentheses is matched by what stands between them. -/
theorem matches_enclosed {rows : Symbol → Kinds → Prop} {inner : Pattern} {row : Kinds} :
    (Pattern.enclosed inner).Matches rows row ↔
      ∃ middle, row = .delimiter .openParen :: middle ++ [.delimiter .closeParen] ∧
        inner.Matches rows middle := by
  constructor
  · rintro ⟨_, _, rfl, ⟨_, middle, rfl, rfl, hMiddle⟩, rfl⟩
    exact ⟨middle, rfl, hMiddle⟩
  · rintro ⟨middle, rfl, hMiddle⟩
    exact ⟨_, _, rfl, ⟨_, middle, rfl, rfl, hMiddle⟩, rfl⟩

theorem standsCondition {row : Kinds}
    (h : (Pattern.enclosed (.part .expression)).Matches Stands row) :
    ∃ test, ∀ rest, Condition anything (row ++ rest) test rest := by
  obtain ⟨inner, rfl, test, hTest⟩ := matches_enclosed.mp h
  refine ⟨test, fun rest => ?_⟩
  simp only [List.cons_append, List.append_assoc, List.nil_append]
  exact .group (hTest _)

/-- An empty list and a list with commas come to the same relation, once the parenthesis is put
behind them. -/
theorem standsArguments {row : Kinds}
    (h : (Pattern.separated (.part .expression)).Matches Stands row) :
    ∃ values, ∀ rest, Arguments anything (row ++ .delimiter .closeParen :: rest) values rest := by
  obtain rfl | ⟨front, _, rfl, ⟨first, hFirst⟩, parts, rfl, hParts⟩ := h
  · exact ⟨[], fun rest => .none rest⟩
  suffices hValues : ∃ values, ∀ rest,
      Values anything (front ++ (parts.flatten ++ .delimiter .closeParen :: rest)) values rest by
    obtain ⟨values, hValues⟩ := hValues
    refine ⟨values, fun rest => .some ?_⟩
    rw [List.append_assoc]
    exact hValues rest
  induction parts generalizing front first with
  | nil => exact ⟨[first], fun rest => .last (hFirst _)⟩
  | cons part parts ih =>
      obtain ⟨⟨_, next, rfl, rfl, second, hSecond⟩, hOthers⟩ := List.forall_mem_cons.mp hParts
      obtain ⟨values, hValues⟩ := ih next second hSecond hOthers
      refine ⟨first :: values, fun rest => ?_⟩
      simp only [List.flatten_cons, List.append_assoc, List.cons_append, List.nil_append]
      exact .more (hFirst _) (hValues rest)

/-- Names need no condition on what follows, for nothing after them could go on with them. -/
theorem standsParameters {row : Kinds} (h : (Pattern.separated .identifier).Matches Stands row) :
    ∃ names, ∀ rest, Parameters (row ++ .delimiter .closeParen :: rest) names rest := by
  obtain rfl | ⟨_, _, rfl, ⟨first, rfl⟩, parts, rfl, hParts⟩ := h
  · exact ⟨[], fun rest => .none rest⟩
  suffices hNames : ∃ names, ∀ rest,
      Names (.identifier first :: (parts.flatten ++ .delimiter .closeParen :: rest)) names rest by
    obtain ⟨names, hNames⟩ := hNames
    exact ⟨names, fun rest => .some (hNames rest)⟩
  induction parts generalizing first with
  | nil => exact ⟨[first], fun rest => .last first rest⟩
  | cons part parts ih =>
      obtain ⟨⟨_, _, rfl, rfl, second, rfl⟩, hOthers⟩ := List.forall_mem_cons.mp hParts
      obtain ⟨names, hNames⟩ := ih second hOthers
      exact ⟨first :: names, fun rest => .more first (hNames rest)⟩

/-- Each statement stands whatever comes after it, so any number of them can be put in a row. -/
theorem standsStatements {parts : List Kinds} (h : ∀ part ∈ parts, Stands .statement part) :
    ∃ block, ∀ rest, Statements anything (parts.flatten ++ rest) block rest := by
  induction parts with
  | nil => exact ⟨[], fun rest => .nil rest⟩
  | cons part parts ih =>
      obtain ⟨⟨stmt, hStmt⟩, hOthers⟩ := List.forall_mem_cons.mp h
      obtain ⟨block, hBlock⟩ := ih hOthers
      refine ⟨stmt :: block, fun rest => ?_⟩
      rw [List.flatten_cons, List.append_assoc]
      exact hStmt _ _ _ (hBlock rest)

/-- A statement in front of others may bring a semicolon. -/
theorem stands_statement {row : Kinds} (h : (rule .statement).Matches Stands row) :
    Stands .statement row := by
  obtain ⟨front, back, rfl, hFront, hBack⟩ := h
  have hBare : StandsBare front := by
    rcases hFront with h | h | h | h | h | h | ⟨value, hValue⟩
    iterate 6 exact h
    exact ⟨.evaluate value, fun rest => .evaluate (hValue rest)⟩
  obtain ⟨stmt, hStmt⟩ := hBare
  refine ⟨stmt, fun rest block last hOthers => ?_⟩
  rw [List.append_assoc]
  rcases hBack with rfl | rfl
  · exact .cons (hStmt _) hOthers
  · exact .cons (hStmt _) (.semicolon hOthers)

theorem stands_function {row : Kinds} (h : (rule .function).Matches Stands row) : StandsBare row := by
  obtain ⟨_, back, rfl, ⟨_, middle, rfl, ⟨_, _, rfl, rfl, name, rfl⟩, hList⟩, body, hBody⟩ := h
  obtain ⟨inner, rfl, hInner⟩ := matches_enclosed.mp hList
  obtain ⟨names, hNames⟩ := standsParameters hInner
  refine ⟨.function name names body, fun rest => ?_⟩
  simp only [List.append_assoc, List.cons_append, List.nil_append]
  exact .function name (hNames _) (hBody rest)

/-- Without a second block the conditional stands as one whose second block is empty. -/
theorem stands_branch {row : Kinds} (h : (rule .branch).Matches Stands row) : StandsBare row := by
  obtain ⟨_, last, rfl, ⟨_, back, rfl, ⟨_, middle, rfl, rfl, hTest⟩, positive, hPositive⟩, hLast⟩ := h
  obtain ⟨test, hTest⟩ := standsCondition hTest
  rcases hLast with rfl | ⟨_, further, rfl, rfl, negative, hNegative⟩
  · refine ⟨.branch test positive [], fun rest => ?_⟩
    simp only [List.append_assoc, List.cons_append, List.nil_append]
    exact .branch (hTest _) (hPositive rest)
  · refine ⟨.branch test positive negative, fun rest => ?_⟩
    simp only [List.append_assoc, List.cons_append, List.nil_append]
    exact .otherwise (hTest _) (hPositive _) (hNegative rest)

theorem stands_primary {row : Kinds} (h : (rule .primary).Matches Stands row) : StandsAt 0 row := by
  rcases h with ⟨value, rfl⟩ | ⟨_, back, rfl, ⟨callee, rfl⟩, hList⟩ | ⟨name, rfl⟩ | hGroup
  · exact ⟨.literal value, fun rest => .primary (.literal value rest)⟩
  · obtain ⟨inner, rfl, hInner⟩ := matches_enclosed.mp hList
    obtain ⟨values, hValues⟩ := standsArguments hInner
    refine ⟨.call callee values, fun rest => .primary ?_⟩
    simp only [List.append_assoc, List.cons_append, List.nil_append]
    exact .call callee (hValues rest)
  · exact ⟨.reference name, fun rest => .primary (.reference name trivial)⟩
  · obtain ⟨inner, rfl, expr, hExpr⟩ := matches_enclosed.mp hGroup
    refine ⟨expr, fun rest => .primary ?_⟩
    simp only [List.append_assoc, List.cons_append, List.nil_append]
    exact .group (hExpr _)

/-- All the rules at once. What remains is an induction on derivations that knows nothing about any
rule. -/
theorem stands_closed (symbol : Symbol) (row : Kinds) (h : (rule symbol).Matches Stands row) :
    Stands symbol row := by
  cases symbol with
  | program =>
      obtain ⟨parts, rfl, hParts⟩ := h
      exact standsStatements hParts
  | block =>
      obtain ⟨_, _, rfl, ⟨_, _, rfl, rfl, parts, rfl, hParts⟩, rfl⟩ := h
      obtain ⟨block, hBlock⟩ := standsStatements hParts
      refine ⟨block, fun rest => ?_⟩
      simp only [List.append_assoc, List.cons_append, List.nil_append]
      exact .group (hBlock _)
  | statement => exact stands_statement h
  | function => exact stands_function h
  | declaration =>
      obtain ⟨_, _, rfl, ⟨_, _, rfl, ⟨_, _, rfl, rfl, name, rfl⟩, rfl⟩, value, hValue⟩ := h
      exact ⟨.declare name value, fun rest => .declare name (hValue rest)⟩
  | loop =>
      obtain ⟨_, back, rfl, ⟨_, middle, rfl, rfl, hTest⟩, body, hBody⟩ := h
      obtain ⟨test, hTest⟩ := standsCondition hTest
      refine ⟨.loop test body, fun rest => ?_⟩
      simp only [List.append_assoc, List.cons_append, List.nil_append]
      exact .loop (hTest _) (hBody rest)
  | branch => exact stands_branch h
  | assignment =>
      obtain ⟨_, _, rfl, ⟨_, _, rfl, ⟨name, rfl⟩, rfl⟩, value, hValue⟩ := h
      exact ⟨.assign name value, fun rest => .assign name (hValue rest)⟩
  | yield =>
      obtain ⟨_, _, rfl, rfl, value, hValue⟩ := h
      exact ⟨.yield value, fun rest => .yield (hValue rest)⟩
  | expression => exact h
  | or => exact standsAt_joined h rfl (by decide)
  | and => exact standsAt_joined h rfl (by decide)
  | equality => exact standsAt_joined h rfl (by decide)
  | comparison => exact standsAt_joined h rfl (by decide)
  | additive => exact standsAt_joined h rfl (by decide)
  | term => exact standsAt_joined h rfl (by decide)
  | primary => exact stands_primary h

/-- An operand without operators is one of the next level. -/
theorem Derives.joined {operand : Symbol} {row : Kinds} (h : Derives (.part operand) row)
    (among : List BinaryOp) : Derives (.joined operand among) row := by
  have hSequence := Derives.sequence h (.done (.operator among ++ .part operand))
  rwa [List.append_nil] at hSequence

/-- A term is derived through every level, each without an operator. -/
theorem Derives.expression {row : Kinds} (h : Derives (.part .term) row) :
    Derives (.part .expression) row :=
  let additive := Derives.part .additive (h.joined [.add, .sub])
  let comparison := Derives.part .comparison (additive.joined [.lt, .gt, .le, .ge])
  let equality := Derives.part .equality (comparison.joined [.eq, .ne])
  let and := Derives.part .and (equality.joined [.and])
  .part .expression (.part .or (and.joined [.or]))

/-- An expression is a statement, and needs no semicolon. -/
theorem Derives.statement {row : Kinds} (h : Derives (.part .expression) row) :
    Derives (.part .statement) row := by
  have hAny : Derives (.part .function <|> .part .declaration <|> .part .loop <|> .part .branch <|>
      .part .assignment <|> .part .yield <|> .part .expression) row :=
    .second (.second (.second (.second (.second (.second h)))))
  have hSequence := Derives.sequence hAny (.absent (.delimiter .semicolon))
  rw [List.append_nil] at hSequence
  exact .part .statement hSequence

/-- What the rules derive is a program of the plain grammar. -/
theorem Derives.program {row : Kinds} (h : Derives (.part .program) row) :
    ∃ block, Program anything row block := by
  obtain ⟨block, hBlock⟩ := h.matches stands_closed
  have hWhole := hBlock []
  rw [List.append_nil] at hWhole
  exact ⟨block, hWhole⟩

end IntScript.Grammar

namespace IntScript

open Grammar

/-- Every row of tokens that the grammar derives is read as a program. In it an identifier before a
parenthesis always calls, also where a derivation of the row ends a statement between the two. -/
theorem parse_of_derives (tokens : List (Token Name))
    (h : Derives (.part .program) (beforeEnd tokens)) :
    ∃ block, parse tokens = .ok block ∧ Program unopened (beforeEnd tokens) block := by
  obtain ⟨_, hPlain⟩ := h.program
  obtain ⟨block, hBlock⟩ := hPlain.greedy
  exact ⟨block, (parse_eq_ok_iff tokens block).mpr hBlock, hBlock⟩

/-- The row is derived as a variable and then a product, and read as one product of a call. -/
theorem parse_of_derives_touching :
    let tokens : List (Token Name) :=
      [⟨.identifier ⟨8⟩, ⟨0, 1⟩⟩, ⟨.delimiter .openParen, ⟨2, 3⟩⟩, ⟨.integer 1, ⟨3, 4⟩⟩,
        ⟨.delimiter .closeParen, ⟨4, 5⟩⟩, ⟨.operator .mul, ⟨6, 7⟩⟩, ⟨.integer 2, ⟨8, 9⟩⟩,
        ⟨.endOfFile, ⟨9, 9⟩⟩]
    Derives (.part .program) (beforeEnd tokens) ∧
      ∃ block, parse tokens = .ok block ∧ Program unopened (beforeEnd tokens) block := by
  have hOne : Derives (.part .expression) [.integer 1] :=
    .expression (.part .term (.joined (.part .primary (.first (.integer 1))) _))
  have hGroup : Derives (.part .primary)
      [.delimiter .openParen, .integer 1, .delimiter .closeParen] :=
    .part .primary (.second (.second (.second (.sequence (.sequence (.token _) hOne) (.token _)))))
  have hProduct : Derives (.part .term) [.delimiter .openParen, .integer 1, .delimiter .closeParen,
      .operator .mul, .integer 2] :=
    .part .term (.sequence hGroup (.again
      (.sequence (.operator (by decide)) (.part .primary (.first (.integer 2)))) (.done _)))
  have hName : Derives (.part .term) [.identifier ⟨8⟩] :=
    .part .term (.joined (.part .primary (.second (.second (.first (.identifier ⟨8⟩))))) _)
  have hDerives : Derives (.part .program) [.identifier ⟨8⟩, .delimiter .openParen, .integer 1,
      .delimiter .closeParen, .operator .mul, .integer 2] :=
    .part .program (.again hName.expression.statement (.again hProduct.expression.statement (.done _)))
  exact ⟨hDerives, parse_of_derives _ hDerives⟩

end IntScript
