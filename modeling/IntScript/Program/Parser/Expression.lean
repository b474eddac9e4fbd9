import IntScript.Program
import IntScript.Program.ParseError

/-!
Reading expressions from tokens.

A reading step takes a row of tokens and gives back what it read together with the rest of the row,
which is shorter than it was. The row holds no token for the end of the text: it simply ends, and
`stop` is the span that an error at its end is reported at.
-/

namespace IntScript.Parser

abbrev Tokens := List (Token Name)

/-- What a reading step found, and the tokens after it, fewer than `bound`. -/
structure Parsed (α : Type) (bound : Nat) where
  value : α
  rest : Tokens
  shorter : rest.length < bound

namespace Parsed

/-- A step that read `value` and left fewer than `bound` tokens also left fewer than any larger
number. -/
def widen {α : Type} {bound larger : Nat} (parsed : Parsed α bound) (le : bound ≤ larger) :
    Parsed α larger :=
  ⟨parsed.value, parsed.rest, Nat.lt_of_lt_of_le parsed.shorter le⟩

end Parsed

/-- The token in front, which at the end of the row is the one for the end of the text. -/
def current (stop : Span) : Tokens → Token Name
  | [] => ⟨.endOfFile, stop⟩
  | token :: _ => token

def expect (stop : Span) (delimiter : Delimiter) (tokens : Tokens) :
    Except ParseError (Parsed Span tokens.length) :=
  match tokens with
  | [] => .error (.expectedDelimiter delimiter (current stop []))
  | token :: rest =>
      if token.kind = .delimiter delimiter then
        .ok ⟨token.span, rest, Nat.lt_succ_self _⟩
      else
        .error (.expectedDelimiter delimiter token)

/-- Read the delimiter that closes the one at `opened`. If the tokens end before, the error is about
the opening one. -/
def expectClosing (stop : Span) (closer opener : Delimiter) (opened : Span) (tokens : Tokens) :
    Except ParseError (Parsed Span tokens.length) :=
  match tokens with
  | [] => .error (.unclosedDelimiter opener opened stop)
  | token :: rest => expect stop closer (token :: rest)

def expectIdentifier (stop : Span) (role : IdentifierRole) (tokens : Tokens) :
    Except ParseError (Parsed Name tokens.length) :=
  match tokens with
  | [] => .error (.expectedIdentifier role (current stop []))
  | token :: rest =>
      match token.kind with
      | .identifier name => .ok ⟨name, rest, Nat.lt_succ_self _⟩
      | _ => .error (.expectedIdentifier role token)

/-- The operator in front, if it is of the given precedence level. -/
def operatorAt (level : Nat) : Tokens → Option BinaryOp
  | [] => none
  | token :: _ => token.kind.operator?.filter (fun op => op.precedence = level)

mutual

/-- Read an expression whose outermost operators are of the given level or bind tighter. Operands of
a level are expressions of the level below it, and level 0 has no operators. -/
def operand (stop : Span) (level : Nat) (tokens : Tokens) {bound : Nat}
    (fits : tokens.length ≤ bound) : Except ParseError (Parsed Expr bound) :=
  match level with
  | 0 => primary stop tokens fits
  | level + 1 => do
      let left ← operand stop level tokens fits
      operations stop level left.value left.rest left.shorter
termination_by (bound, level + 1)
decreasing_by
  · exact Prod.Lex.right _ (Nat.succ_pos _)
  · exact Prod.Lex.right _ (Nat.lt_succ_self _)
  · exact Prod.Lex.left _ _ left.shorter

/-- Go on reading operators of level `level + 1`, each with its right operand, and join them to what
was read so far from the left. -/
def operations (stop : Span) (level : Nat) (left : Expr) (tokens : Tokens) {bound : Nat}
    (shorter : tokens.length < bound) : Except ParseError (Parsed Expr bound) :=
  match tokens with
  | [] => .ok ⟨left, [], shorter⟩
  | token :: rest =>
      match operatorAt (level + 1) (token :: rest) with
      | some op => do
          let right ← operand stop level rest (Nat.le_refl _)
          operations stop level (.binary op left right.value) right.rest
            (Nat.lt_trans right.shorter (Nat.lt_of_succ_lt shorter))
      | none => .ok ⟨left, token :: rest, shorter⟩
termination_by (tokens.length, 0)
decreasing_by
  · exact Prod.Lex.left _ _ (Nat.lt_succ_self _)
  · exact Prod.Lex.left _ _ (Nat.lt_succ_of_lt right.shorter)

/-- Read an operand without operators: an integer, a variable, a call, or an expression in
parentheses. A parenthesis right after an identifier always makes it a call. -/
def primary (stop : Span) (tokens : Tokens) {bound : Nat} (fits : tokens.length ≤ bound) :
    Except ParseError (Parsed Expr bound) :=
  match tokens with
  | [] => .error (.expectedExpression (current stop []))
  | token :: rest =>
      match token.kind with
      | .integer value => .ok ⟨.literal value, rest, fits⟩
      | .identifier name =>
          match rest with
          | [] => .ok ⟨.reference name, [], fits⟩
          | next :: others =>
              if next.kind = .delimiter .openParen then do
                let arguments ← arguments stop next.span others (Nat.le_refl _)
                .ok ⟨.call name arguments.value, arguments.rest,
                  Nat.lt_trans arguments.shorter (Nat.lt_of_succ_lt fits)⟩
              else
                .ok ⟨.reference name, next :: others, fits⟩
      | .delimiter delimiter =>
          if delimiter = .openParen then do
            let inner ← operand stop BinaryOp.loosest rest (Nat.le_refl _)
            let close ← expectClosing stop .closeParen .openParen token.span inner.rest
            .ok ⟨inner.value, close.rest,
              Nat.lt_trans close.shorter (Nat.lt_trans inner.shorter fits)⟩
          else
            .error (.expectedExpression token)
      | .keyword _ | .operator _ | .endOfFile => .error (.expectedExpression token)
termination_by (bound, 0)
decreasing_by
  · exact Prod.Lex.left _ _ (Nat.lt_of_succ_lt fits)
  · exact Prod.Lex.left _ _ fits

/-- Read the arguments of a call and the parenthesis after them; the one at `opened` has been
read. -/
def arguments (stop : Span) (opened : Span) (tokens : Tokens) {bound : Nat}
    (fits : tokens.length ≤ bound) : Except ParseError (Parsed (List Expr) bound) :=
  match tokens with
  | [] => furtherArguments stop opened [] fits
  | token :: rest =>
      if token.kind = .delimiter .closeParen then
        .ok ⟨[], rest, fits⟩
      else
        furtherArguments stop opened (token :: rest) fits
termination_by (bound, BinaryOp.loosest + 3)
decreasing_by
  · exact Prod.Lex.right _ (Nat.lt_succ_self _)
  · exact Prod.Lex.right _ (Nat.lt_succ_self _)

/-- Read one or more arguments and the closing parenthesis. -/
def furtherArguments (stop : Span) (opened : Span) (tokens : Tokens) {bound : Nat}
    (fits : tokens.length ≤ bound) : Except ParseError (Parsed (List Expr) bound) := do
  let argument ← operand stop BinaryOp.loosest tokens fits
  match h : argument.rest with
  | [] => .error (.unclosedDelimiter .openParen opened stop)
  | token :: rest =>
      have whole : (token :: rest).length < bound := h ▸ argument.shorter
      have shorter : rest.length < bound := Nat.lt_of_succ_lt whole
      if token.kind = .delimiter .comma then do
        let others ← furtherArguments stop opened rest (Nat.le_refl _)
        .ok ⟨argument.value :: others.value, others.rest, Nat.lt_trans others.shorter shorter⟩
      else do
        let close ← expect stop .closeParen (token :: rest)
        .ok ⟨[argument.value], close.rest, Nat.lt_trans close.shorter whole⟩
termination_by (bound, BinaryOp.loosest + 2)
decreasing_by
  · exact Prod.Lex.right _ (Nat.lt_succ_self _)
  · exact Prod.Lex.left _ _ shorter

end

def expression (stop : Span) (tokens : Tokens) : Except ParseError (Parsed Expr tokens.length) :=
  operand stop BinaryOp.loosest tokens (Nat.le_refl _)

end IntScript.Parser
