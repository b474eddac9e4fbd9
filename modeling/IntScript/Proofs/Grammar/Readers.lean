import IntScript.Proofs.Renaming.Parsing

/-! Reading steps as functions of the tokens alone. The bounds that make the steps end change nothing
in what they find, so without them each step is put together from others by `andThen`. -/
namespace IntScript

/-- Kinds that agree up to the same names are the same. -/
theorem TokenKind.Like.eq {first second : TokenKind Name} (h : first.Like Eq second) :
    first = second := by
  cases h with
  | identifier paired => rw [paired]
  | keyword | delimiter | operator | integer | endOfFile => rfl

theorem Token.Like.eq {first second : Token Name} (h : first.Like Eq second) : first = second := by
  obtain ⟨hKind, span⟩ := h
  rw [hKind.eq]

theorem Token.Like.refl (token : Token Name) : token.Like Eq token := by
  obtain ⟨kind, span⟩ := token
  refine .mk ?_ span
  cases kind with
  | identifier name => exact .identifier rfl
  | keyword | delimiter | operator | integer | endOfFile => constructor

theorem Expr.Like.refl (expr : Expr) : expr.Like Eq expr := by
  cases expr with
  | literal value => exact .literal value
  | reference name => exact .reference rfl
  | call callee arguments =>
      exact .call rfl (List.forall₂_same.mpr fun argument _ => Expr.Like.refl argument)
  | binary op left right => exact .binary op (Expr.Like.refl left) (Expr.Like.refl right)

/-- Errors keep the tokens they were found at, which are the same by the above. -/
theorem ParseError.Like.eq {first second : ParseError} (h : first.Like Eq second) :
    first = second := by
  cases h with
  | expectedDelimiter expected sameFound => rw [sameFound.eq]
  | expectedExpression sameFound => rw [sameFound.eq]
  | unclosedDelimiter opener opened limit => rfl
  | expectedIdentifier role sameFound => rw [sameFound.eq]

mutual

/-- Trees that agree up to the same names are the same. So what is known of readers up to names
holds of two readings of the same tokens. -/
theorem Expr.Like.eq {first second : Expr} (h : first.Like Eq second) : first = second := by
  match h with
  | .literal value => rfl
  | .reference paired => rw [paired]
  | .call paired sameArguments => rw [paired, Expr.Like.eqList sameArguments]
  | .binary op sameLeft sameRight => rw [Expr.Like.eq sameLeft, Expr.Like.eq sameRight]

theorem Expr.Like.eqList {first second : List Expr} (h : List.Forall₂ (Expr.Like Eq) first second) :
    first = second := by
  match h with
  | .nil => rfl
  | .cons same others => rw [Expr.Like.eq same, Expr.Like.eqList others]

end

mutual

theorem Stmt.Like.eq {first second : Stmt} (h : first.Like Eq second) : first = second := by
  match h with
  | .function paired sameParameters sameBody =>
      rw [List.forall₂_eq_eq_eq] at sameParameters
      rw [paired, sameParameters, Block.Like.eq sameBody]
  | .declare paired sameValue => rw [paired, sameValue.eq]
  | .loop sameCondition sameBody => rw [sameCondition.eq, Block.Like.eq sameBody]
  | .branch sameCondition samePositive sameNegative =>
      rw [sameCondition.eq, Block.Like.eq samePositive, Block.Like.eq sameNegative]
  | .assign paired sameValue => rw [paired, sameValue.eq]
  | .yield sameValue => rw [sameValue.eq]
  | .evaluate sameValue => rw [sameValue.eq]

theorem Block.Like.eq {first second : Block} (h : List.Forall₂ (Stmt.Like Eq) first second) :
    first = second := by
  match h with
  | .nil => rfl
  | .cons same others => rw [Stmt.Like.eq same, Block.Like.eq others]

end

namespace Parser

abbrev Reader (α : Type) :=
  Span → Tokens → Except ParseError (α × Tokens)

variable {α β : Type} {bound larger : Nat}

/-- What a step comes to, without the bound on what it leaves. -/
def outcome (result : Except ParseError (Parsed α bound)) : Except ParseError (α × Tokens) :=
  result.map (fun parsed => (parsed.value, parsed.rest))

theorem outcome_error (error : ParseError) :
    outcome (.error error : Except ParseError (Parsed α bound)) = .error error :=
  rfl

theorem outcome_ok (parsed : Parsed α bound) : outcome (.ok parsed) = .ok (parsed.value, parsed.rest) :=
  rfl

/-- The bound that was left out is still known of the step. -/
theorem lt_of_outcome {result : Except ParseError (Parsed α bound)} {value : α} {rest : Tokens}
    (h : outcome result = .ok (value, rest)) : rest.length < bound := by
  cases result with
  | error error => cases h
  | ok parsed =>
      cases h
      exact parsed.shorter

/-- Steps that find the same and leave the same come to the same. -/
theorem ReadsLike.outcome_eq {like : α → α → Prop} {first : Except ParseError (Parsed α bound)}
    {second : Except ParseError (Parsed α larger)} (h : ReadsLike Eq like first second)
    (hLike : ∀ {value other : α}, like value other → value = other) :
    outcome first = outcome second := by
  cases h with
  | error same => rw [same.eq, outcome_error, outcome_error]
  | ok same =>
      have hRest := same.rest.imp (fun _ _ hToken => hToken.eq)
      rw [List.forall₂_eq_eq_eq] at hRest
      rw [outcome_ok, outcome_ok, hLike same.value, hRest]

theorem like_refl (tokens : Tokens) : List.Forall₂ (Token.Like Eq) tokens tokens :=
  List.forall₂_same.mpr (fun token _ => Token.Like.refl token)

/-- The row begins with a token of another kind, or it is at its end. -/
def OtherFront (kind : TokenKind Name) (tokens : Tokens) : Prop :=
  ∀ token ∈ tokens.head?, token.kind ≠ kind

theorem otherFront_nil (kind : TokenKind Name) : OtherFront kind [] :=
  nofun

/-- In a row that is not at its end only the token in front matters. -/
theorem otherFront_cons {kind : TokenKind Name} {token : Token Name} {rest : Tokens} :
    OtherFront kind (token :: rest) ↔ token.kind ≠ kind := by
  simp [OtherFront]

/-- The two cases of every look at the front: another token, or this one somewhere in the source. -/
theorem exists_of_front {kind : TokenKind Name} {tokens : Tokens} (h : ¬ OtherFront kind tokens) :
    ∃ span rest, tokens = ⟨kind, span⟩ :: rest := by
  cases tokens with
  | nil => exact (h (otherFront_nil kind)).elim
  | cons token rest =>
      rw [otherFront_cons, not_not] at h
      exact ⟨token.span, rest, by rw [← h]⟩

namespace Reader

/-- Read on from where the first reader stopped. -/
def andThen (first : Reader α) (next : α → Reader β) : Reader β :=
  fun stop tokens => first stop tokens >>= fun found => next found.1 stop found.2

def done (value : α) : Reader α :=
  fun _ tokens => .ok (value, tokens)

def map (f : α → β) (reader : Reader α) : Reader β :=
  reader.andThen (fun value => done (f value))

/-- Two steps in a row. What the second does depends on what the first found and left, but not on the
bound. -/
theorem outcome_bind {stop : Span} {tokens : Tokens} {first : Except ParseError (Parsed α bound)}
    {next : Parsed α bound → Except ParseError (Parsed β larger)} {reader : Reader α}
    {further : α → Reader β} (hFirst : outcome first = reader stop tokens)
    (hNext : ∀ parsed, outcome (next parsed) = further parsed.value stop parsed.rest) :
    outcome (first >>= next) = reader.andThen further stop tokens := by
  rw [andThen, ← hFirst]
  cases first with
  | error error => rfl
  | ok parsed => exact hNext parsed

/-- Reading nothing more changes nothing. -/
theorem andThen_done (reader : Reader α) : reader.andThen done = reader := by
  funext stop tokens
  rw [andThen]
  cases reader stop tokens with
  | error error => rfl
  | ok found => rfl

/-- What a changed reader finds comes from something that the reader found, with the same tokens
left. -/
theorem map_eq_ok {reader : Reader α} {f : α → β} {stop : Span} {tokens rest : Tokens}
    {value : β} (h : reader.map f stop tokens = .ok (value, rest)) :
    ∃ found, reader stop tokens = .ok (found, rest) ∧ f found = value := by
  rw [Reader.map, andThen] at h
  cases hFound : reader stop tokens with
  | error error =>
      rw [hFound] at h
      cases h
  | ok found =>
      rw [hFound] at h
      cases h
      exact ⟨found.1, rfl, rfl⟩

/-- A step under another bound. -/
theorem outcome_widen {result : Except ParseError (Parsed α bound)} (le : bound ≤ larger) :
    outcome (result >>= fun parsed => .ok (parsed.widen le)) = outcome result := by
  cases result with
  | error error => rfl
  | ok parsed => rfl

def delimiter (expected : Delimiter) : Reader Span :=
  fun stop tokens => outcome (expect stop expected tokens)

def closing (closer opener : Delimiter) (opened : Span) : Reader Span :=
  fun stop tokens => outcome (expectClosing stop closer opener opened tokens)

def identifier (role : IdentifierRole) : Reader Name :=
  fun stop tokens => outcome (expectIdentifier stop role tokens)

/-- A step may leave all of its tokens. -/
theorem fits_whole (tokens : Tokens) : tokens.length ≤ tokens.length :=
  Nat.le_refl _

def operand (level : Nat) : Reader Expr :=
  fun stop tokens => outcome (Parser.operand stop level tokens (fits_whole tokens))

def operations (level : Nat) (left : Expr) : Reader Expr :=
  fun stop tokens => outcome (Parser.operations stop level left tokens (Nat.lt_succ_self _))

def primary : Reader Expr :=
  fun stop tokens => outcome (Parser.primary stop tokens (fits_whole tokens))

def expression : Reader Expr :=
  operand BinaryOp.loosest

def arguments (opened : Span) : Reader (List Expr) :=
  fun stop tokens => outcome (Parser.arguments stop opened tokens (fits_whole tokens))

def furtherArguments (opened : Span) : Reader (List Expr) :=
  fun stop tokens => outcome (Parser.furtherArguments stop opened tokens (fits_whole tokens))

def condition : Reader Expr :=
  fun stop tokens => outcome (Parser.condition stop tokens)

def parameters (opened : Span) : Reader (List Name) :=
  fun stop tokens => outcome (Parser.parameters stop opened tokens (fits_whole tokens))

def furtherParameters (opened : Span) : Reader (List Name) :=
  fun stop tokens => outcome (Parser.furtherParameters stop opened tokens (fits_whole tokens))

def statement : Reader Stmt :=
  fun stop tokens => outcome (Parser.statement stop tokens (fits_whole tokens))

def bareStatement : Reader Stmt :=
  fun stop tokens => outcome (Parser.bareStatement stop tokens (fits_whole tokens))

def block : Reader Block :=
  fun stop tokens => outcome (Parser.block stop tokens (fits_whole tokens))

def statements (opened : Span) : Reader Block :=
  fun stop tokens => outcome (Parser.statements stop opened tokens (fits_whole tokens))

/-- A whole program. It leaves no token. -/
def program : Reader Block :=
  fun stop tokens => (Parser.program stop tokens).map (fun block => (block, []))

/-- The expression after the parenthesis at `opened`, with the one that closes it. -/
def enclosed (opened : Span) : Reader Expr :=
  expression.andThen (fun value => (closing .closeParen .openParen opened).map (fun _ => value))

/-- What follows the first element of a list in parentheses: a comma and further elements, or the
closing parenthesis. -/
def separated (opened : Span) (further : Reader (List α)) (first : α) : Reader (List α) :=
  fun stop tokens =>
    match tokens with
    | [] => .error (.unclosedDelimiter .openParen opened stop)
    | token :: rest =>
        if token.kind = .delimiter .comma then
          further.map (first :: ·) stop rest
        else
          (delimiter .closeParen).map (fun _ => [first]) stop (token :: rest)

def semicolon (stmt : Stmt) : Reader Stmt :=
  fun _ tokens => .ok (stmt, withoutSemicolon tokens)

def function : Reader Stmt :=
  (identifier .functionName).andThen fun name =>
    (delimiter .openParen).andThen fun opened =>
      (parameters opened).andThen fun names => block.map (.function name names)

def declaration : Reader Stmt :=
  (identifier .variableName).andThen fun name =>
    (delimiter .assign).andThen fun _ => expression.map (.declare name)

def loop : Reader Stmt :=
  condition.andThen fun test => block.map (.loop test)

/-- The second block of a conditional, if there is one. -/
def alternative (test : Expr) (positive : Block) : Reader Stmt :=
  fun stop tokens =>
    match tokens with
    | ⟨.keyword .otherwise, _⟩ :: rest => block.map (.branch test positive) stop rest
    | tokens => .ok (.branch test positive [], tokens)

/-- A conditional without a second block has an empty one. -/
theorem alternative_done {tokens : Tokens} (h : OtherFront (.keyword .otherwise) tokens) (test : Expr)
    (positive : Block) (stop : Span) :
    alternative test positive stop tokens = .ok (.branch test positive [], tokens) := by
  unfold alternative
  split
  next place rest => exact (h _ rfl rfl).elim
  next => rfl

def branch : Reader Stmt :=
  condition.andThen fun test => block.andThen (alternative test)

def simple : Reader Stmt :=
  fun stop tokens => outcome (assignmentOrExpression stop tokens)

section

variable (stop : Span) (tokens : Tokens)

/-- A reader gives the same within any bound; the four cases where this is not by definition follow
from agreement up to equal names. -/
theorem operations_bounded (level : Nat) (left : Expr) (shorter : tokens.length < bound) :
    outcome (Parser.operations stop level left tokens shorter) = operations level left stop tokens :=
  (operations_like stop level (Expr.Like.refl left) (like_refl tokens) shorter
    (Nat.lt_succ_self _)).outcome_eq Expr.Like.eq

theorem furtherArguments_bounded (opened : Span) (fits : tokens.length ≤ bound) :
    outcome (Parser.furtherArguments stop opened tokens fits) = furtherArguments opened stop tokens :=
  (furtherArguments_like stop opened (like_refl tokens) fits (Nat.le_refl _)).outcome_eq
    Expr.Like.eqList

theorem furtherParameters_bounded (opened : Span) (fits : tokens.length ≤ bound) :
    outcome (Parser.furtherParameters stop opened tokens fits) =
      furtherParameters opened stop tokens :=
  (furtherParameters_like stop opened (like_refl tokens) fits (Nat.le_refl _)).outcome_eq
    (fun h => List.forall₂_eq_eq_eq ▸ h)

theorem statement_bounded (fits : tokens.length ≤ bound) :
    outcome (Parser.statement stop tokens fits) = statement stop tokens :=
  (statement_like stop (like_refl tokens) fits (Nat.le_refl _)).outcome_eq Stmt.Like.eq

end

theorem operand_zero : operand 0 = primary := by
  funext stop tokens
  rw [operand, Parser.operand, primary]

theorem operand_succ (level : Nat) :
    operand (level + 1) = (operand level).andThen (operations level) := by
  funext stop tokens
  rw [operand, Parser.operand]
  exact outcome_bind rfl fun left => operations_bounded stop left.rest level left.value left.shorter

/-- Operators of other levels are not read. -/
theorem operations_done {level : Nat} {tokens : Tokens} (h : operatorAt (level + 1) tokens = none)
    (left : Expr) (stop : Span) : operations level left stop tokens = .ok (left, tokens) := by
  cases tokens with
  | nil => rw [operations, Parser.operations, outcome_ok]
  | cons token rest =>
      rw [operations, Parser.operations, h]
      rfl

/-- What was joined so far becomes the left operand, so operators of one level group to the left. -/
theorem operations_operator {level : Nat} {op : BinaryOp} {token : Token Name} {rest : Tokens}
    (h : operatorAt (level + 1) (token :: rest) = some op) (left : Expr) (stop : Span) :
    operations level left stop (token :: rest) =
      (operand level).andThen (fun right => operations level (.binary op left right)) stop rest := by
  rw [operations, Parser.operations, h]
  exact outcome_bind rfl fun right => operations_bounded stop right.rest level _ _

theorem primary_integer (stop span : Span) (value : Int32) (rest : Tokens) :
    primary stop (⟨.integer value, span⟩ :: rest) = .ok (.literal value, rest) := by
  rw [primary, Parser.primary]
  rfl

/-- A parenthesis right after an identifier makes it a call. -/
theorem primary_call (stop span opened : Span) (name : Name) (rest : Tokens) :
    primary stop (⟨.identifier name, span⟩ :: ⟨.delimiter .openParen, opened⟩ :: rest) =
      (arguments opened).map (.call name) stop rest := by
  rw [primary, Parser.primary]
  simp only [if_pos]
  exact outcome_bind rfl fun found => rfl

/-- At the end of the row an identifier is a variable too. -/
theorem primary_reference {rest : Tokens} (h : OtherFront (.delimiter .openParen) rest)
    (stop span : Span) (name : Name) :
    primary stop (⟨.identifier name, span⟩ :: rest) = .ok (.reference name, rest) := by
  rw [primary, Parser.primary]
  cases rest with
  | nil => rfl
  | cons next others =>
      simp only [if_neg (otherFront_cons.mp h)]
      rfl

/-- The parentheses themselves leave nothing in the tree. -/
theorem primary_group (stop span : Span) (rest : Tokens) :
    primary stop (⟨.delimiter .openParen, span⟩ :: rest) = enclosed span stop rest := by
  rw [primary, Parser.primary]
  simp only [if_pos]
  exact outcome_bind rfl fun inner => outcome_bind rfl fun close => rfl

def beginsExpression : TokenKind Name → Bool
  | .integer _ | .identifier _ | .delimiter .openParen => true
  | _ => false

/-- The error names the token that stands where an expression should begin, or the end. -/
theorem primary_error {tokens : Tokens} (h : ∀ token ∈ tokens.head?, beginsExpression token.kind = false)
    (stop : Span) : primary stop tokens = .error (.expectedExpression (current stop tokens)) := by
  cases tokens with
  | nil =>
      rw [primary, Parser.primary]
      rfl
  | cons token rest =>
      obtain ⟨kind, span⟩ := token
      have hKind : beginsExpression kind = false := h ⟨kind, span⟩ rfl
      rw [primary, Parser.primary]
      cases kind with
      | integer | identifier => cases hKind
      | delimiter delimiter =>
          have hOther : delimiter ≠ .openParen := by
            rintro rfl
            cases hKind
          simp only [if_neg hOther]
          rfl
      | keyword | operator | endOfFile => rfl

/-- A primary that no operator follows is a whole operand. -/
theorem operand_of_primary {stop : Span} {tokens rest : Tokens} {expr : Expr}
    (h : primary stop tokens = .ok (expr, rest)) (hNone : ∀ level, operatorAt level rest = none)
    (level : Nat) : operand level stop tokens = .ok (expr, rest) := by
  induction level with
  | zero =>
      rw [operand_zero]
      exact h
  | succ level ih =>
      rw [operand_succ, andThen, ih]
      exact operations_done (hNone (level + 1)) expr stop

theorem delimiter_same (expected : Delimiter) (stop span : Span) (rest : Tokens) :
    delimiter expected stop (⟨.delimiter expected, span⟩ :: rest) = .ok (span, rest) := by
  rw [delimiter, expect, if_pos rfl]
  rfl

theorem delimiter_other {expected : Delimiter} {tokens : Tokens}
    (h : OtherFront (.delimiter expected) tokens) (stop : Span) :
    delimiter expected stop tokens = .error (.expectedDelimiter expected (current stop tokens)) := by
  cases tokens with
  | nil => rfl
  | cons token rest =>
      rw [delimiter, expect, if_neg (otherFront_cons.mp h)]
      rfl

/-- Only at the end of the row is the opening delimiter what the error is about. -/
theorem closing_nil (closer opener : Delimiter) (opened stop : Span) :
    closing closer opener opened stop [] = .error (.unclosedDelimiter opener opened stop) :=
  rfl

/-- Anywhere else a missing closing delimiter is an error like any other. -/
theorem closing_cons (closer opener : Delimiter) (opened stop : Span) (token : Token Name)
    (rest : Tokens) :
    closing closer opener opened stop (token :: rest) = delimiter closer stop (token :: rest) :=
  rfl

theorem identifier_same (role : IdentifierRole) (stop span : Span) (name : Name) (rest : Tokens) :
    identifier role stop (⟨.identifier name, span⟩ :: rest) = .ok (name, rest) :=
  rfl

theorem identifier_other {tokens : Tokens} (h : ∀ name, OtherFront (.identifier name) tokens)
    (role : IdentifierRole) (stop : Span) :
    identifier role stop tokens = .error (.expectedIdentifier role (current stop tokens)) := by
  cases tokens with
  | nil => rfl
  | cons token rest =>
      obtain ⟨kind, span⟩ := token
      cases kind with
      | identifier name => exact (h name _ rfl rfl).elim
      | keyword | delimiter | operator | integer | endOfFile => rfl

theorem separated_nil (opened stop : Span) (further : Reader (List α)) (first : α) :
    separated opened further first stop [] = .error (.unclosedDelimiter .openParen opened stop) :=
  rfl

theorem separated_other {token : Token Name} (h : token.kind ≠ .delimiter .comma) (opened stop : Span)
    (further : Reader (List α)) (first : α) (rest : Tokens) :
    separated opened further first stop (token :: rest) =
      (delimiter .closeParen).map (fun _ => [first]) stop (token :: rest) := by
  rw [separated, if_neg h]

theorem separated_close (opened stop span : Span) (further : Reader (List α)) (first : α)
    (rest : Tokens) :
    separated opened further first stop (⟨.delimiter .closeParen, span⟩ :: rest) =
      .ok ([first], rest) := by
  have hKind : (⟨.delimiter .closeParen, span⟩ : Token Name).kind ≠ .delimiter .comma := nofun
  rw [separated_other hKind, Reader.map, andThen, delimiter_same]
  rfl

theorem arguments_close (stop opened span : Span) (rest : Tokens) :
    arguments opened stop (⟨.delimiter .closeParen, span⟩ :: rest) = .ok ([], rest) := by
  rw [arguments, Parser.arguments, if_pos rfl]
  rfl

theorem arguments_further {tokens : Tokens} (h : OtherFront (.delimiter .closeParen) tokens)
    (stop opened : Span) :
    arguments opened stop tokens = furtherArguments opened stop tokens := by
  cases tokens with
  | nil => rw [arguments, Parser.arguments, furtherArguments_bounded]
  | cons token rest => rw [arguments, Parser.arguments, if_neg (h token rfl), furtherArguments_bounded]

/-- The loop as one step of itself. The parser goes round with fewer tokens each time, which the
relation of readers has no need to say. -/
theorem furtherArguments_eq (opened : Span) :
    furtherArguments opened = expression.andThen (separated opened (furtherArguments opened)) := by
  funext stop tokens
  rw [furtherArguments, Parser.furtherArguments]
  refine outcome_bind rfl fun argument => ?_
  obtain ⟨value, rest, shorter⟩ := argument
  cases rest with
  | nil => rfl
  | cons token rest =>
      simp only [separated]
      split
      next => exact outcome_bind rfl fun others => rfl
      next => exact outcome_bind rfl fun close => rfl

theorem condition_eq : condition = (delimiter .openParen).andThen enclosed := by
  funext stop tokens
  rw [condition, Parser.condition]
  exact outcome_bind rfl fun opening => outcome_bind rfl fun value => outcome_bind rfl fun close => rfl

theorem parameters_close (stop opened span : Span) (rest : Tokens) :
    parameters opened stop (⟨.delimiter .closeParen, span⟩ :: rest) = .ok ([], rest) := by
  rw [parameters, Parser.parameters, if_pos rfl]
  rfl

theorem parameters_further {tokens : Tokens} (h : OtherFront (.delimiter .closeParen) tokens)
    (stop opened : Span) :
    parameters opened stop tokens = furtherParameters opened stop tokens := by
  cases tokens with
  | nil => rw [parameters, Parser.parameters, furtherParameters_bounded]
  | cons token rest => rw [parameters, Parser.parameters, if_neg (h token rfl), furtherParameters_bounded]

theorem furtherParameters_eq (opened : Span) :
    furtherParameters opened =
      (identifier .parameterName).andThen (separated opened (furtherParameters opened)) := by
  funext stop tokens
  rw [furtherParameters, Parser.furtherParameters]
  refine outcome_bind rfl fun parameter => ?_
  obtain ⟨name, rest, shorter⟩ := parameter
  cases rest with
  | nil => rfl
  | cons token rest =>
      simp only [separated]
      split
      next => exact outcome_bind rfl fun others => rfl
      next => exact outcome_bind rfl fun close => rfl

theorem semicolon_same (stmt : Stmt) (stop span : Span) (rest : Tokens) :
    semicolon stmt stop (⟨.delimiter .semicolon, span⟩ :: rest) = .ok (stmt, rest) :=
  rfl

theorem semicolon_other {tokens : Tokens} (h : OtherFront (.delimiter .semicolon) tokens) (stmt : Stmt)
    (stop : Span) : semicolon stmt stop tokens = .ok (stmt, tokens) := by
  rw [semicolon]
  unfold withoutSemicolon
  split
  next span rest => exact (h _ rfl rfl).elim
  next => rfl

theorem statement_eq : statement = bareStatement.andThen semicolon := by
  funext stop tokens
  rw [statement, Parser.statement, map_eq_pure_bind]
  refine outcome_bind rfl fun parsed => ?_
  simp only [pure, Except.pure, outcome_ok, dropSemicolon_value, dropSemicolon_rest, semicolon]

theorem bareStatement_function (stop span : Span) (rest : Tokens) :
    bareStatement stop (⟨.keyword .function, span⟩ :: rest) = function stop rest := by
  rw [bareStatement, Parser.bareStatement]
  exact outcome_bind rfl fun name => outcome_bind rfl fun opening => outcome_bind rfl fun names =>
    outcome_bind rfl fun body => rfl

theorem bareStatement_declare (stop span : Span) (rest : Tokens) :
    bareStatement stop (⟨.keyword .declare, span⟩ :: rest) = declaration stop rest := by
  rw [bareStatement, Parser.bareStatement]
  refine (outcome_widen _).trans (outcome_bind rfl fun name => outcome_bind rfl fun sign => ?_)
  exact outcome_bind rfl fun value => rfl

theorem bareStatement_loop (stop span : Span) (rest : Tokens) :
    bareStatement stop (⟨.keyword .loop, span⟩ :: rest) = loop stop rest := by
  rw [bareStatement, Parser.bareStatement]
  exact outcome_bind rfl fun test => outcome_bind rfl fun body => rfl

theorem bareStatement_branch (stop span : Span) (rest : Tokens) :
    bareStatement stop (⟨.keyword .branch, span⟩ :: rest) = branch stop rest := by
  rw [bareStatement, Parser.bareStatement]
  refine outcome_bind rfl fun test => outcome_bind rfl fun positive => ?_
  obtain ⟨block, left, shorter⟩ := positive
  cases left with
  | nil => rfl
  | cons next others =>
      obtain ⟨kind, place⟩ := next
      by_cases hKind : kind = .keyword .otherwise
      · subst hKind
        have hSame : alternative test.value block stop (⟨.keyword .otherwise, place⟩ :: others) =
            Reader.block.map (.branch test.value block) stop others := rfl
        rw [hSame]
        exact outcome_bind rfl fun negative => rfl
      · rw [alternative_done (otherFront_cons.mpr hKind)]
        simp only [if_neg hKind]
        rfl

theorem bareStatement_yield (stop span : Span) (rest : Tokens) :
    bareStatement stop (⟨.keyword .yield, span⟩ :: rest) = expression.map .yield stop rest := by
  rw [bareStatement, Parser.bareStatement]
  exact outcome_bind rfl fun value => rfl

/-- Whether a statement of its own begins with a token: these keywords do it, and no other token. -/
def introduces : TokenKind Name → Bool
  | .keyword .otherwise => false
  | .keyword _ => true
  | _ => false

/-- Any other token begins an assignment or an expression, if it begins a statement at all. -/
theorem bareStatement_simple {tokens : Tokens}
    (h : ∀ token ∈ tokens.head?, introduces token.kind = false) (stop : Span) :
    bareStatement stop tokens = simple stop tokens := by
  have hWiden (tokens : Tokens) (le : tokens.length ≤ tokens.length) :
      outcome ((·.widen le) <$> assignmentOrExpression stop tokens) = simple stop tokens := by
    rw [map_eq_pure_bind]
    exact outcome_widen le
  cases tokens with
  | nil => rw [bareStatement, Parser.bareStatement, hWiden]
  | cons token rest =>
      obtain ⟨kind, span⟩ := token
      have hKind : introduces kind = false := h ⟨kind, span⟩ rfl
      rw [bareStatement, Parser.bareStatement]
      cases kind with
      | keyword keyword =>
          cases keyword with
          | otherwise => exact hWiden _ _
          | function | declare | loop | branch | yield => cases hKind
      | delimiter | operator | integer | identifier | endOfFile => exact hWiden _ _

def Assigns (tokens : Tokens) : Prop :=
  ∃ name span place rest, tokens = ⟨.identifier name, span⟩ :: ⟨.delimiter .assign, place⟩ :: rest

/-- A name and the sign of assignment decide at once, so no other reading is tried. -/
theorem simple_assign (stop span place : Span) (name : Name) (rest : Tokens) :
    simple stop (⟨.identifier name, span⟩ :: ⟨.delimiter .assign, place⟩ :: rest) =
      expression.map (.assign name) stop rest := by
  rw [simple, assignmentOrExpression]
  exact outcome_bind rfl fun value => rfl

/-- Everything else is an expression, also a name followed by anything but the sign. -/
theorem simple_evaluate {tokens : Tokens} (h : ¬ Assigns tokens) (stop : Span) :
    simple stop tokens = expression.map .evaluate stop tokens := by
  rw [simple]
  unfold assignmentOrExpression
  split
  next name span place rest => exact (h ⟨name, span, place, rest, rfl⟩).elim
  next => exact outcome_bind rfl fun value => rfl

theorem block_eq : block = (delimiter .openBrace).andThen statements := by
  funext stop tokens
  rw [block, Parser.block]
  refine outcome_bind rfl fun opening => ?_
  dsimp only
  exact (outcome_bind rfl fun body => rfl).trans (congrFun (congrFun (andThen_done _) stop) _)

/-- A block that the row ends in is an error about its opening brace. -/
theorem statements_nil (stop opened : Span) :
    statements opened stop [] = .error (.unclosedDelimiter .openBrace opened stop) := by
  rw [statements, Parser.statements]
  rfl

theorem statements_close (stop opened span : Span) (rest : Tokens) :
    statements opened stop (⟨.delimiter .closeBrace, span⟩ :: rest) = .ok ([], rest) := by
  rw [statements, Parser.statements, if_pos rfl]
  rfl

theorem statements_semicolon (stop opened span : Span) (rest : Tokens) :
    statements opened stop (⟨.delimiter .semicolon, span⟩ :: rest) = statements opened stop rest := by
  rw [statements, Parser.statements, if_neg nofun, if_pos rfl]
  exact outcome_widen _

theorem statements_cons {token : Token Name} (hClose : token.kind ≠ .delimiter .closeBrace)
    (hSemicolon : token.kind ≠ .delimiter .semicolon) (stop opened : Span) (rest : Tokens) :
    statements opened stop (token :: rest) =
      statement.andThen (fun first => (statements opened).map (first :: ·)) stop (token :: rest) := by
  rw [statements, Parser.statements, if_neg hClose, if_neg hSemicolon]
  exact outcome_bind (statement_bounded _ _ _) fun first => outcome_bind rfl fun others => rfl

theorem program_nil (stop : Span) : program stop [] = .ok ([], []) := by
  rw [program, Parser.program_nil]
  rfl

/-- Stray semicolons are passed over. -/
theorem program_semicolon (stop span : Span) (rest : Tokens) :
    program stop (⟨.delimiter .semicolon, span⟩ :: rest) = program stop rest := by
  rw [program, Parser.program_semicolon, program]

/-- A brace that closes nothing is no exception here: it has to begin a statement and does not. -/
theorem program_cons {token : Token Name} (hSemicolon : token.kind ≠ .delimiter .semicolon)
    (stop : Span) (rest : Tokens) :
    program stop (token :: rest) =
      statement.andThen (fun first => program.map (first :: ·)) stop (token :: rest) := by
  rw [program, Parser.program, if_neg hSemicolon, andThen, statement]
  cases Parser.statement stop (token :: rest) (Nat.le_refl _) with
  | error error => rfl
  | ok first =>
      simp only [outcome_ok, bind, Except.bind, map, andThen, program]
      cases Parser.program stop first.rest <;> rfl

end Reader

end Parser

end IntScript
