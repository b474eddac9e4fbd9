import IntScript.Program.Parser.Expression

/-!
Reading statements and blocks from tokens.

Statements need no separator. One semicolon after a statement belongs to it, and further ones may
stand wherever a statement may.
-/

namespace IntScript.Parser

/-- Read an expression in parentheses, as `while` and `if` have it. -/
def condition (stop : Span) (tokens : Tokens) : Except ParseError (Parsed Expr tokens.length) := do
  let opening ← expect stop .openParen tokens
  let value ← expression stop opening.rest
  let close ← expectClosing stop .closeParen .openParen opening.value value.rest
  .ok ⟨value.value, close.rest,
    Nat.lt_trans close.shorter (Nat.lt_trans value.shorter opening.shorter)⟩

/-- Read one or more parameters and the closing parenthesis. -/
def furtherParameters (stop : Span) (opened : Span) (tokens : Tokens) {bound : Nat}
    (fits : tokens.length ≤ bound) : Except ParseError (Parsed (List Name) bound) := do
  let parameter ← expectIdentifier stop .parameterName tokens
  match h : parameter.rest with
  | [] => .error (.unclosedDelimiter .openParen opened stop)
  | token :: rest =>
      have whole : (token :: rest).length < bound :=
        h ▸ Nat.lt_of_lt_of_le parameter.shorter fits
      have shorter : rest.length < bound := Nat.lt_of_succ_lt whole
      if token.kind = .delimiter .comma then do
        let others ← furtherParameters stop opened rest (Nat.le_refl _)
        .ok ⟨parameter.value :: others.value, others.rest, Nat.lt_trans others.shorter shorter⟩
      else do
        let close ← expect stop .closeParen (token :: rest)
        .ok ⟨[parameter.value], close.rest, Nat.lt_trans close.shorter whole⟩
termination_by bound
decreasing_by exact shorter

/-- Read the parameters of a function and the parenthesis after them; the one at `opened` has been
read. -/
def parameters (stop : Span) (opened : Span) (tokens : Tokens) {bound : Nat}
    (fits : tokens.length ≤ bound) : Except ParseError (Parsed (List Name) bound) :=
  match tokens with
  | [] => furtherParameters stop opened [] fits
  | token :: rest =>
      if token.kind = .delimiter .closeParen then
        .ok ⟨[], rest, fits⟩
      else
        furtherParameters stop opened (token :: rest) fits

def dropSemicolon {α : Type} {bound : Nat} (parsed : Parsed α bound) : Parsed α bound :=
  match h : parsed.rest with
  | [] => parsed
  | token :: rest =>
      have whole : (token :: rest).length < bound := h ▸ parsed.shorter
      if token.kind = .delimiter .semicolon then
        ⟨parsed.value, rest, Nat.lt_of_succ_lt whole⟩
      else
        parsed

/-- Read the name, the sign and the value of `var name = value`; the keyword has been read. -/
def declaration (stop : Span) (tokens : Tokens) : Except ParseError (Parsed Stmt tokens.length) := do
  let name ← expectIdentifier stop .variableName tokens
  let sign ← expect stop .assign name.rest
  let value ← expression stop sign.rest
  .ok ⟨.declare name.value value.value, value.rest,
    Nat.lt_trans value.shorter (Nat.lt_trans sign.shorter name.shorter)⟩

/-- Read `name = value` if the tokens start like it, else an expression for its effects. -/
def assignmentOrExpression (stop : Span) (tokens : Tokens) :
    Except ParseError (Parsed Stmt tokens.length) :=
  match tokens with
  | ⟨.identifier name, _⟩ :: ⟨.delimiter .assign, _⟩ :: rest => do
      let value ← expression stop rest
      .ok ⟨.assign name value.value, value.rest,
        Nat.lt_trans value.shorter (Nat.lt_succ_of_lt (Nat.lt_succ_self _))⟩
  | tokens => do
      let value ← expression stop tokens
      .ok ⟨.evaluate value.value, value.rest, value.shorter⟩

mutual

/-- Read a statement, with the semicolon after it if there is one. -/
def statement (stop : Span) (tokens : Tokens) {bound : Nat} (fits : tokens.length ≤ bound) :
    Except ParseError (Parsed Stmt bound) :=
  dropSemicolon <$> bareStatement stop tokens fits
termination_by (bound, 3)
decreasing_by exact Prod.Lex.right _ (Nat.lt_succ_self _)

/-- Read a statement up to its last token proper. -/
def bareStatement (stop : Span) (tokens : Tokens) {bound : Nat} (fits : tokens.length ≤ bound) :
    Except ParseError (Parsed Stmt bound) :=
  match tokens with
  | [] => (·.widen fits) <$> assignmentOrExpression stop []
  | token :: rest =>
      match token.kind with
      | .keyword .function => do
          let name ← expectIdentifier stop .functionName rest
          let opening ← expect stop .openParen name.rest
          let parameters ← parameters stop opening.value opening.rest (Nat.le_refl _)
          have shorter : parameters.rest.length < bound :=
            Nat.lt_trans (Nat.lt_trans parameters.shorter opening.shorter)
              (Nat.lt_trans name.shorter fits)
          let body ← block stop parameters.rest (Nat.le_refl _)
          .ok ⟨.function name.value parameters.value body.value, body.rest,
            Nat.lt_trans body.shorter shorter⟩
      | .keyword .declare => do
          let declaration ← declaration stop rest
          .ok (declaration.widen (Nat.le_of_lt fits))
      | .keyword .loop => do
          let test ← condition stop rest
          have shorter : test.rest.length < bound := Nat.lt_trans test.shorter fits
          let body ← block stop test.rest (Nat.le_refl _)
          .ok ⟨.loop test.value body.value, body.rest, Nat.lt_trans body.shorter shorter⟩
      | .keyword .branch => do
          let test ← condition stop rest
          have shorter : test.rest.length < bound := Nat.lt_trans test.shorter fits
          let positive ← block stop test.rest (Nat.le_refl _)
          match h : positive.rest with
          | [] =>
              .ok ⟨.branch test.value positive.value [], positive.rest,
                Nat.lt_trans positive.shorter shorter⟩
          | next :: others =>
              have whole : (next :: others).length < bound :=
                h ▸ Nat.lt_trans positive.shorter shorter
              have fewer : others.length < bound := Nat.lt_of_succ_lt whole
              if next.kind = .keyword .otherwise then do
                let negative ← block stop others (Nat.le_refl _)
                .ok ⟨.branch test.value positive.value negative.value, negative.rest,
                  Nat.lt_trans negative.shorter fewer⟩
              else
                .ok ⟨.branch test.value positive.value [], next :: others, whole⟩
      | .keyword .yield => do
          let value ← expression stop rest
          .ok ⟨.yield value.value, value.rest, Nat.lt_trans value.shorter fits⟩
      | _ => (·.widen fits) <$> assignmentOrExpression stop (token :: rest)
termination_by (bound, 2)
decreasing_by
  · exact Prod.Lex.left _ _ shorter
  · exact Prod.Lex.left _ _ shorter
  · exact Prod.Lex.left _ _ shorter
  · exact Prod.Lex.left _ _ fewer

def block (stop : Span) (tokens : Tokens) {bound : Nat} (fits : tokens.length ≤ bound) :
    Except ParseError (Parsed Block bound) := do
  let opening ← expect stop .openBrace tokens
  have shorter : opening.rest.length < bound := Nat.lt_of_lt_of_le opening.shorter fits
  let body ← statements stop opening.value opening.rest (Nat.le_refl _)
  .ok ⟨body.value, body.rest, Nat.lt_trans body.shorter shorter⟩
termination_by (bound, 1)
decreasing_by exact Prod.Lex.left _ _ shorter

/-- Read statements up to the brace that closes the one at `opened`. -/
def statements (stop : Span) (opened : Span) (tokens : Tokens) {bound : Nat}
    (fits : tokens.length ≤ bound) : Except ParseError (Parsed Block bound) :=
  match tokens with
  | [] => .error (.unclosedDelimiter .openBrace opened stop)
  | token :: rest =>
      if token.kind = .delimiter .closeBrace then
        .ok ⟨[], rest, fits⟩
      else if token.kind = .delimiter .semicolon then do
        let others ← statements stop opened rest (Nat.le_refl _)
        .ok (others.widen (Nat.le_of_lt fits))
      else do
        let first ← statement stop (token :: rest) fits
        let others ← statements stop opened first.rest (Nat.le_refl _)
        .ok ⟨first.value :: others.value, others.rest, Nat.lt_trans others.shorter first.shorter⟩
termination_by (bound, 4)
decreasing_by
  · exact Prod.Lex.left _ _ fits
  · exact Prod.Lex.right _ (Nat.lt_succ_self _)
  · exact Prod.Lex.left _ _ first.shorter

end

/-- Read statements up to the end of the tokens. -/
def program (stop : Span) (tokens : Tokens) : Except ParseError Block :=
  match tokens with
  | [] => .ok []
  | token :: rest =>
      if token.kind = .delimiter .semicolon then
        program stop rest
      else do
        let first ← statement stop (token :: rest) (Nat.le_refl _)
        let others ← program stop first.rest
        .ok (first.value :: others)
termination_by tokens.length
decreasing_by
  · exact Nat.lt_succ_self _
  · exact first.shorter

end IntScript.Parser
