import IntScript.Proofs.Grammar.Completions
import Mathlib.Data.List.TakeWhile

/-! Errors are found as early as possible: the tokens before the one an error is found at begin some
program, and no row that goes on with that token is one. -/
namespace IntScript.Parser

namespace Reader

variable {α : Type} {ends : Rest}

section

variable (before : List (Token Name)) (stop : Span) (tokens : Tokens)

/-- If the delimiter is there it is noted as open, or the innermost open one as closed. -/
theorem foresees_delimiter (expected : Delimiter) :
    Foresees before (delimiter expected) (fun span => nest before (opening expected span)) ends stop
      tokens := by
  by_cases hOther : OtherFront (.delimiter expected) tokens
  · refine .refuse (.expectedDelimiter expected (current stop tokens)) rfl nofun
      (fun stop' tokens' hFront => ?_)
    rw [delimiter_other (hFront.otherFront hOther), hFront.current_eq]
  · obtain ⟨span, rest, rfl⟩ := exists_of_front hOther
    exact .take [opening expected span] rfl (fun stop' rest' _ =>
      delimiter_same expected stop' span rest')

theorem foresees_identifier (role : IdentifierRole) :
    Foresees before (identifier role) (fun _ => before) ends stop tokens := by
  by_cases hOther : ∀ name, OtherFront (.identifier name) tokens
  · refine .refuse (.expectedIdentifier role (current stop tokens)) rfl nofun
      (fun stop' tokens' hFront => ?_)
    rw [identifier_other (fun name => hFront.otherFront (hOther name)), hFront.current_eq]
  · obtain ⟨name, hName⟩ := not_forall.mp hOther
    obtain ⟨span, rest, rfl⟩ := exists_of_front hName
    exact .take [⟨.identifier name, span⟩] rfl (fun stop' rest' _ =>
      identifier_same role stop' span name rest')

/-- An error at the end of the row is about the delimiter on top of those still open. -/
theorem foresees_closing (opened : Span) :
    Foresees (opening .openParen opened :: before) (closing .closeParen .openParen opened)
      (fun _ => before) ends stop tokens := by
  match tokens with
  | [] => exact .refuse_unclosed (closing_nil .closeParen .openParen opened stop)
  | token :: rest =>
      refine (foresees_delimiter _ stop (token :: rest) .closeParen).of_front ?_ ?_
      · rintro stop' tokens' ⟨⟩
        exact closing_cons .closeParen .openParen opened stop' token _
      · exact fun _ _ h => lt_of_outcome h

/-- After the first element of a list in parentheses. -/
theorem foresees_separated (opened : Span) {further : Reader (List α)} (first : α)
    (hFurther : ∀ span rest, tokens = ⟨.delimiter .comma, span⟩ :: rest →
      Foresees (opening .openParen opened :: before) further (fun _ => before) ends stop rest)
    (hDone : Completes Anything ends further) :
    Foresees (opening .openParen opened :: before) (separated opened further first) (fun _ => before)
      ends stop tokens := by
  match tokens with
  | [] => exact .refuse_unclosed (separated_nil opened stop further first)
  | ⟨kind, span⟩ :: rest =>
      by_cases hComma : kind = .delimiter .comma
      · subst hComma
        exact .advance [⟨.delimiter .comma, span⟩] rfl (hFurther span rest rfl).map (hDone.map _)
      · have hClose : Foresees (opening .openParen opened :: before)
            ((delimiter .closeParen).map (fun _ => [first])) (fun _ => before) ends stop
            (⟨kind, span⟩ :: rest) :=
          (foresees_delimiter _ stop (⟨kind, span⟩ :: rest) .closeParen).map
        refine hClose.of_front ?_ (fun value others h => ?_)
        · rintro stop' tokens' ⟨⟩
          exact separated_other hComma opened stop' further first _
        · obtain ⟨found, hFound, hDone⟩ := map_eq_ok h
          cases hDone
          exact lt_of_outcome hFound

end

mutual

/-- Level 0 has no operators; an operand of any other level is one of the level below it with steps
after it. -/
theorem foresees_operand (before : List (Token Name)) (level : Nat) (stop : Span) (tokens : Tokens) :
    Foresees before (operand level) (fun _ => before) Settled stop tokens := by
  match level with
  | 0 =>
      rw [operand_zero]
      exact foresees_primary before stop tokens
  | level + 1 =>
      rw [operand_succ]
      exact (foresees_operand before level stop tokens).andThen
        (fun left rest h => foresees_operations before level left stop rest)
        (completes_operations level) (fun _ => id)
termination_by (tokens.length, level + 1)
decreasing_by
  · exact Prod.Lex.right _ (Nat.succ_pos _)
  · exact Prod.Lex.right _ (Nat.lt_succ_self _)
  · exact Prod.Lex.left _ _ (lt_of_outcome h)

/-- Where no operator of the level stands nothing is read, so an error can only be in an operand. -/
theorem foresees_operations (before : List (Token Name)) (level : Nat) (left : Expr) (stop : Span)
    (tokens : Tokens) :
    Foresees before (operations level left) (fun _ => before) Settled stop tokens := by
  match tokens with
  | [] =>
      refine .take [] rfl (fun stop' rest' hRest => operations_done ?_ left stop')
      exact operatorAt_again hRest rfl
  | token :: rest =>
      cases hAt : operatorAt (level + 1) (token :: rest) with
      | none =>
          refine .take [] rfl (fun stop' rest' hRest => operations_done ?_ left stop')
          exact operatorAt_again hRest hAt
      | some op =>
          have hInner : Foresees (unclosed before [token])
              ((operand level).andThen (fun right => operations level (.binary op left right)))
              (fun _ => before) Settled stop rest := by
            rw [unclosed_operator hAt]
            exact (foresees_operand before level stop rest).andThen
              (fun right others h => foresees_operations before level (.binary op left right) stop others)
              (fun right => completes_operations level (.binary op left right)) (fun _ => id)
          refine .advance [token] ?_ hInner ?_
          · funext stop' rest'
            have hSame : operatorAt (level + 1) (token :: rest') = some op := hAt
            exact operations_operator hSame left stop'
          · exact ((completes_operand level).andThen (fun right =>
              completes_operations level (.binary op left right))).anywhere
termination_by (tokens.length, 0)
decreasing_by
  · exact Prod.Lex.left _ _ (Nat.lt_succ_self _)
  · exact Prod.Lex.left _ _ (Nat.lt_succ_of_lt (lt_of_outcome h))

/-- After an identifier the parenthesis decides, and both ways have been foreseen. -/
theorem foresees_primary (before : List (Token Name)) (stop : Span) (tokens : Tokens) :
    Foresees before primary (fun _ => before) Settled stop tokens := by
  match tokens with
  | [] =>
      refine .refuse (.expectedExpression (current stop [])) rfl nofun ?_
      rintro stop' tokens' ⟨⟩
      refine primary_error ?_ stop
      exact nofun
  | ⟨kind, span⟩ :: rest =>
      have hRefuse (hOther : beginsExpression kind = false) :
          Foresees before primary (fun _ => before) Settled stop (⟨kind, span⟩ :: rest) := by
        refine .refuse (.expectedExpression ⟨kind, span⟩) rfl nofun ?_
        rintro stop' tokens' ⟨⟩
        refine primary_error ?_ stop'
        rintro token ⟨⟩
        exact hOther
      cases kind with
      | integer value =>
          exact .take [⟨.integer value, span⟩] rfl (fun stop' rest' _ =>
            primary_integer stop' span value rest')
      | identifier name =>
          by_cases hFree : OtherFront (.delimiter .openParen) rest
          · exact .take [⟨.identifier name, span⟩] rfl (fun stop' rest' hRest =>
              primary_reference (otherFront_again rfl hRest hFree) stop' span name)
          · obtain ⟨opened, input, hInput⟩ := exists_of_front hFree
            have hInner : Foresees (opening .openParen opened :: before)
                ((arguments opened).map (Expr.call name)) (fun _ => before) Settled stop input :=
              (foresees_arguments before opened stop input).map
            subst hInput
            refine .advance [⟨.identifier name, span⟩, ⟨.delimiter .openParen, opened⟩] ?_ hInner
              ((completes_arguments opened).map (Expr.call name))
            funext stop' rest'
            exact primary_call stop' span opened name rest'
      | delimiter delimiter =>
          by_cases hOpen : delimiter = .openParen
          · subst hOpen
            refine .advance [⟨.delimiter .openParen, span⟩] ?_ (foresees_enclosed before span stop rest)
              (completes_enclosed span).anywhere
            funext stop' rest'
            exact primary_group stop' span rest'
          · refine hRefuse ?_
            cases delimiter with
            | openParen => exact (hOpen rfl).elim
            | closeParen | openBrace | closeBrace | comma | semicolon | assign => rfl
      | keyword | operator | endOfFile => exact hRefuse rfl
termination_by (tokens.length, 0)
decreasing_by
  · exact Prod.Lex.left _ _ (Nat.lt_succ_self _)
  · subst hInput
    exact Prod.Lex.left _ _ (Nat.lt_succ_of_lt (Nat.lt_succ_self _))

theorem foresees_enclosed (before : List (Token Name)) (opened stop : Span) (tokens : Tokens) :
    Foresees (opening .openParen opened :: before) (enclosed opened) (fun _ => before) Settled stop
      tokens :=
  (foresees_operand _ BinaryOp.loosest stop tokens).andThen
    (fun value rest _ => (foresees_closing before stop rest opened).map)
    (fun value => (completes_closing opened).map _) (fun _ => id)
termination_by (tokens.length, BinaryOp.loosest + 2)
decreasing_by exact Prod.Lex.right _ (Nat.lt_succ_self _)

theorem foresees_arguments (before : List (Token Name)) (opened stop : Span) (tokens : Tokens) :
    Foresees (opening .openParen opened :: before) (arguments opened) (fun _ => before) Settled stop
      tokens := by
  by_cases hClose : OtherFront (.delimiter .closeParen) tokens
  · refine (foresees_furtherArguments before opened stop tokens).of_front ?_ (fun _ _ h => lt_of_outcome h)
    exact fun stop' tokens' hFront => arguments_further (hFront.otherFront hClose) stop' opened
  · obtain ⟨span, rest, rfl⟩ := exists_of_front hClose
    exact .take [⟨.delimiter .closeParen, span⟩] rfl (fun stop' rest' _ =>
      arguments_close stop' opened span rest')
termination_by (tokens.length, BinaryOp.loosest + 3)
decreasing_by exact Prod.Lex.right _ (Nat.lt_succ_self _)

theorem foresees_furtherArguments (before : List (Token Name)) (opened stop : Span)
    (tokens : Tokens) :
    Foresees (opening .openParen opened :: before) (furtherArguments opened) (fun _ => before) Settled
      stop tokens := by
  rw [furtherArguments_eq]
  refine (foresees_operand _ BinaryOp.loosest stop tokens).andThen (fun value rest h => ?_)
    (completes_separated opened _) (fun _ => id)
  refine foresees_separated before stop rest opened value (fun span others hRest => ?_)
    (completes_furtherArguments opened).anywhere
  exact foresees_furtherArguments before opened stop others
termination_by (tokens.length, BinaryOp.loosest + 2)
decreasing_by
  · exact Prod.Lex.right _ (Nat.lt_succ_self _)
  · subst hRest
    exact Prod.Lex.left _ _ (Nat.lt_of_succ_lt (lt_of_outcome h))

end

theorem foresees_furtherParameters (before : List (Token Name)) (opened stop : Span)
    (tokens : Tokens) :
    Foresees (opening .openParen opened :: before) (furtherParameters opened) (fun _ => before) Settled
      stop tokens := by
  rw [furtherParameters_eq]
  refine (foresees_identifier _ stop tokens .parameterName).andThen (fun name rest h => ?_)
    (fun name => (completes_separated opened _ name).anywhere) (fun _ _ => trivial)
  refine foresees_separated before stop rest opened name (fun span others hRest => ?_)
    (completes_furtherParameters opened)
  exact foresees_furtherParameters before opened stop others
termination_by tokens.length
decreasing_by
  subst hRest
  exact Nat.lt_of_succ_lt (lt_of_outcome h)

section

variable (before : List (Token Name)) (stop : Span) (tokens : Tokens)

theorem foresees_parameters (opened : Span) :
    Foresees (opening .openParen opened :: before) (parameters opened) (fun _ => before) Settled stop
      tokens := by
  by_cases hClose : OtherFront (.delimiter .closeParen) tokens
  · refine (foresees_furtherParameters before opened stop tokens).of_front ?_
      (fun _ _ h => lt_of_outcome h)
    exact fun stop' tokens' hFront => parameters_further (hFront.otherFront hClose) stop' opened
  · obtain ⟨span, rest, rfl⟩ := exists_of_front hClose
    exact .take [⟨.delimiter .closeParen, span⟩] rfl (fun stop' rest' _ =>
      parameters_close stop' opened span rest')

theorem foresees_expression : Foresees before expression (fun _ => before) Settled stop tokens :=
  foresees_operand before BinaryOp.loosest stop tokens

theorem foresees_condition : Foresees before condition (fun _ => before) Settled stop tokens := by
  rw [condition_eq]
  exact (foresees_delimiter before stop tokens .openParen).andThen
    (fun opened rest _ => foresees_enclosed before opened stop rest)
    (fun opened => (completes_enclosed opened).anywhere) (fun _ _ => trivial)

/-- A missing semicolon is no error. -/
theorem foresees_semicolon (stmt : Stmt) :
    Foresees before (semicolon stmt) (fun _ => before) Settled stop tokens := by
  by_cases hOther : OtherFront (.delimiter .semicolon) tokens
  · exact .take [] rfl (fun stop' rest' hRest =>
      semicolon_other (otherFront_again rfl hRest hOther) stmt stop')
  · obtain ⟨span, rest, rfl⟩ := exists_of_front hOther
    exact .take [⟨.delimiter .semicolon, span⟩] rfl (fun stop' rest' _ =>
      semicolon_same stmt stop' span rest')

theorem foresees_declaration : Foresees before declaration (fun _ => before) Settled stop tokens := by
  refine (foresees_identifier before stop tokens .variableName).andThen (fun name rest _ => ?_)
    (fun name => ?_) (fun _ _ => trivial)
  · exact (foresees_delimiter before stop rest .assign).andThen
      (fun _ others _ => (foresees_expression before stop others).map)
      (fun _ => (completes_expression.map _).anywhere) (fun _ _ => trivial)
  · exact (completes_delimiter .assign).andThen fun _ => (completes_expression.map _).anywhere

/-- An expression that begins like an assignment ends before the sign. -/
theorem evaluate_of_assigns {tokens : Tokens} (h : Assigns tokens) (stop : Span) :
    ∃ name span place rest, tokens = ⟨.identifier name, span⟩ :: ⟨.delimiter .assign, place⟩ :: rest ∧
      expression.map Stmt.evaluate stop tokens =
        .ok (.evaluate (.reference name), ⟨.delimiter .assign, place⟩ :: rest) := by
  obtain ⟨name, span, place, rest, rfl⟩ := h
  have hOther : OtherFront (.delimiter .openParen) (⟨.delimiter .assign, place⟩ :: rest) :=
    otherFront_cons.mpr nofun
  have hPrimary := primary_reference hOther stop span name
  have hExpression := operand_of_primary hPrimary (fun level => rfl) BinaryOp.loosest
  refine ⟨name, span, place, rest, rfl, ?_⟩
  rw [Reader.map, andThen, expression, hExpression]
  rfl

/-- What is read as an expression is not read as an assignment, if no sign of one stands behind it. -/
theorem simple_of_evaluate {stop : Span} {tokens : Tokens} {result : Except ParseError (Stmt × Tokens)}
    (h : expression.map Stmt.evaluate stop tokens = result)
    (hSign : ∀ value place rest, result ≠ .ok (value, ⟨.delimiter .assign, place⟩ :: rest)) :
    simple stop tokens = result := by
  rw [simple_evaluate ?_, h]
  intro hAssigns
  obtain ⟨name, span, place, rest, -, hEvaluate⟩ := evaluate_of_assigns hAssigns stop
  exact hSign _ place rest (h.symm.trans hEvaluate)

/-- Two tokens tell an assignment from an expression. -/
theorem foresees_simple : Foresees before simple (fun _ => before) Settled stop tokens := by
  by_cases hAssign : Assigns tokens
  · obtain ⟨name, span, place, rest, rfl⟩ := hAssign
    refine .advance [⟨.identifier name, span⟩, ⟨.delimiter .assign, place⟩] ?_
      (foresees_expression before stop rest).map (completes_expression.map (Stmt.assign name)).anywhere
    funext stop' rest'
    exact simple_assign stop' span place name rest'
  · have hInner : Foresees before (expression.map Stmt.evaluate) (fun _ => before) Settled stop tokens :=
      (foresees_expression before stop tokens).map
    have hHere := simple_evaluate hAssign stop
    -- Where the expression ends or gives up, other tokens after it do not make it an assignment.
    constructor
    · intro value rest hValue
      rw [hHere] at hValue
      obtain ⟨read, rfl, hLeft, hAgain⟩ := hInner.found value rest hValue
      refine ⟨read, rfl, hLeft, fun stop' rest' hRest => ?_⟩
      have hResult := hAgain stop' rest' hRest
      rw [simple_evaluate ?_, hResult]
      intro hOther
      obtain ⟨name, span, place, others, hTokens, hEvaluate⟩ := evaluate_of_assigns hOther stop'
      rw [hResult] at hEvaluate
      obtain ⟨-, rfl⟩ := Prod.mk.inj (Except.ok.inj hEvaluate)
      have hRead : read = [⟨.identifier name, span⟩] := List.append_cancel_right hTokens
      subst hRead
      rcases hRest with hFront | hSettled
      · cases hFront
        exact hAssign ⟨name, span, place, _, rfl⟩
      · cases hSettled _ rfl
    · intro error hError
      rw [hHere] at hError
      obtain ⟨read, ahead, rfl, hFound, hOpener, hMore, hSame⟩ := hInner.refused error hError
      refine ⟨read, ahead, rfl, hFound, hOpener, fun hRead => ?_, fun stop' ahead' hFront => ?_⟩
      · obtain ⟨more, value, hSupplied, hReads⟩ := hMore hRead
        refine ⟨more, value, hSupplied, fun stop' after hAfter => ⟨trivial, ?_⟩⟩
        refine simple_of_evaluate (hReads stop' after hAfter).2 (fun found place rest hEnd => ?_)
        cases hEnd
        cases hAfter _ rfl
      · exact simple_of_evaluate (hSame stop' ahead' hFront) nofun

section

variable {before stop tokens} (hBlock : ∀ rest, rest.length < tokens.length →
  Foresees before block (fun _ => before) Settled stop rest)

include hBlock

theorem foresees_function : Foresees before function (fun _ => before) Settled stop tokens := by
  have hBody (name : Name) (opened : Span) :
      Completes Anything Settled
        ((parameters opened).andThen (fun names => block.map (Stmt.function name names))) :=
    (completes_parameters opened).andThen (fun names => completes_block.map _)
  refine (foresees_identifier before stop tokens .functionName).andThen (fun name rest hName => ?_)
    (fun name => (completes_delimiter .openParen).andThen (hBody name)) (fun _ _ => trivial)
  refine (foresees_delimiter before stop rest .openParen).andThen (fun opened others hOpened => ?_)
    (hBody name) (fun _ _ => trivial)
  refine (foresees_parameters before stop others opened).andThen (fun names last hNames => ?_)
    (fun names => completes_block.map _) (fun _ => id)
  have hOthers : others.length < tokens.length :=
    Nat.lt_trans (lt_of_outcome hOpened) (lt_of_outcome hName)
  exact (hBlock last (Nat.lt_trans (lt_of_outcome hNames) hOthers)).map

theorem foresees_loop : Foresees before loop (fun _ => before) Settled stop tokens := by
  refine (foresees_condition before stop tokens).andThen (fun test rest hTest => ?_)
    (fun test => completes_block.map _) (fun _ => id)
  exact (hBlock rest (lt_of_outcome hTest)).map

/-- After a block `else` is optional, so that no error is found where it is looked for. -/
theorem foresees_alternative (test : Expr) (positive : Block) :
    Foresees before (alternative test positive) (fun _ => before) Settled stop tokens := by
  by_cases hOther : OtherFront (.keyword .otherwise) tokens
  · exact .take [] rfl (fun stop' rest' hRest =>
      alternative_done (otherFront_again rfl hRest hOther) test positive stop')
  · obtain ⟨span, rest, rfl⟩ := exists_of_front hOther
    exact .advance [⟨.keyword .otherwise, span⟩] rfl (hBlock rest (Nat.lt_succ_self _)).map
      (completes_block.map (Stmt.branch test positive)).anywhere

theorem foresees_branch : Foresees before branch (fun _ => before) Settled stop tokens := by
  refine (foresees_condition before stop tokens).andThen (fun test rest hTest => ?_)
    (fun test => completes_block.andThen (completes_alternative test)) (fun _ => id)
  have hRest : rest.length < tokens.length := lt_of_outcome hTest
  refine (hBlock rest hRest).andThen (fun positive others hPositive => ?_)
    (completes_alternative test) (fun _ => id)
  have hOthers : others.length < tokens.length := Nat.lt_trans (lt_of_outcome hPositive) hRest
  exact foresees_alternative (fun last hLast => hBlock last (Nat.lt_trans hLast hOthers)) test positive

end

end

mutual

/-- The optional semicolon behind a statement leaves everything as it was. -/
theorem foresees_statement (before : List (Token Name)) (stop : Span) (tokens : Tokens) :
    Foresees before statement (fun _ => before) Settled stop tokens := by
  rw [statement_eq]
  exact (foresees_bareStatement before stop tokens).andThen
    (fun stmt rest _ => foresees_semicolon before stop rest stmt) completes_semicolon (fun _ => id)
termination_by (tokens.length, 2)
decreasing_by exact Prod.Lex.right _ (Nat.lt_succ_self _)

/-- Each keyword has its own reader, and any other token begins an expression or an assignment. -/
theorem foresees_bareStatement (before : List (Token Name)) (stop : Span) (tokens : Tokens) :
    Foresees before bareStatement (fun _ => before) Settled stop tokens := by
  have hSimple (h : ∀ token ∈ tokens.head?, introduces token.kind = false) :
      Foresees before bareStatement (fun _ => before) Settled stop tokens := by
    refine (foresees_simple before stop tokens).of_front (fun stop' tokens' hFront => ?_)
      (fun _ _ h => lt_of_outcome h)
    refine bareStatement_simple ?_ stop'
    cases hFront <;> exact h
  match tokens with
  | [] => exact hSimple nofun
  | ⟨kind, span⟩ :: rest =>
      have hBlock (others : Tokens) (h : others.length < rest.length) :
          Foresees before block (fun _ => before) Settled stop others :=
        foresees_block before stop others
      have hOther (h : introduces kind = false) :
          Foresees before bareStatement (fun _ => before) Settled stop (⟨kind, span⟩ :: rest) := by
        refine hSimple ?_
        rintro token ⟨⟩
        exact h
      cases kind with
      | keyword keyword =>
          cases keyword with
          | otherwise => exact hOther rfl
          | function =>
              refine .advance [⟨.keyword .function, span⟩] ?_ (foresees_function hBlock)
                completes_function
              funext stop' rest'
              exact bareStatement_function stop' span rest'
          | declare =>
              refine .advance [⟨.keyword .declare, span⟩] ?_ (foresees_declaration before stop rest)
                completes_declaration
              funext stop' rest'
              exact bareStatement_declare stop' span rest'
          | loop =>
              refine .advance [⟨.keyword .loop, span⟩] ?_ (foresees_loop hBlock) completes_loop
              funext stop' rest'
              exact bareStatement_loop stop' span rest'
          | branch =>
              refine .advance [⟨.keyword .branch, span⟩] ?_ (foresees_branch hBlock) completes_branch
              funext stop' rest'
              exact bareStatement_branch stop' span rest'
          | yield =>
              refine .advance [⟨.keyword .yield, span⟩] ?_ (foresees_expression before stop rest).map
                (completes_expression.map Stmt.yield).anywhere
              funext stop' rest'
              exact bareStatement_yield stop' span rest'
      | delimiter | operator | integer | identifier | endOfFile => exact hOther rfl
termination_by (tokens.length, 1)
decreasing_by exact Prod.Lex.left _ _ (Nat.lt_succ_of_lt h)

/-- The brace is noted as open while the statements in it are read. -/
theorem foresees_block (before : List (Token Name)) (stop : Span) (tokens : Tokens) :
    Foresees before block (fun _ => before) Settled stop tokens := by
  rw [block_eq]
  exact (foresees_delimiter before stop tokens .openBrace).andThen
    (fun opened rest h => foresees_statements before opened stop rest)
    (fun opened => (completes_statements opened).anywhere) (fun _ _ => trivial)
termination_by (tokens.length, 0)
decreasing_by exact Prod.Lex.left _ _ (lt_of_outcome h)

/-- Either the brace comes, or the row ends, or another statement has to begin. -/
theorem foresees_statements (before : List (Token Name)) (opened stop : Span) (tokens : Tokens) :
    Foresees (opening .openBrace opened :: before) (statements opened) (fun _ => before) Settled stop
      tokens := by
  match tokens with
  | [] => exact .refuse_unclosed (statements_nil stop opened)
  | ⟨kind, span⟩ :: rest =>
      by_cases hClose : kind = .delimiter .closeBrace
      · subst hClose
        exact .take [⟨.delimiter .closeBrace, span⟩] rfl (fun stop' rest' _ =>
          statements_close stop' opened span rest')
      by_cases hSemicolon : kind = .delimiter .semicolon
      · subst hSemicolon
        refine .advance [⟨.delimiter .semicolon, span⟩] ?_ (foresees_statements before opened stop rest)
          (completes_statements opened).anywhere
        funext stop' rest'
        exact statements_semicolon stop' opened span rest'
      · have hInner : Foresees (opening .openBrace opened :: before)
            (statement.andThen (fun first => (statements opened).map (first :: ·))) (fun _ => before)
            Settled stop (⟨kind, span⟩ :: rest) :=
          (foresees_statement _ stop (⟨kind, span⟩ :: rest)).andThen
            (fun first others h => (foresees_statements before opened stop others).map)
            (fun first => (completes_statements opened).map _) (fun _ => id)
        refine hInner.of_front ?_ (fun value others h => ?_)
        · rintro stop' tokens' ⟨⟩
          exact statements_cons hClose hSemicolon stop' opened _
        · rw [← statements_cons hClose hSemicolon] at h
          exact lt_of_outcome h
termination_by (tokens.length, 3)
decreasing_by
  · exact Prod.Lex.left _ _ (Nat.lt_succ_self _)
  · exact Prod.Lex.right _ (Nat.lt_succ_self _)
  · exact Prod.Lex.left _ _ (lt_of_outcome h)

end

/-- A program that was read is all of the row. -/
theorem program_rest {stop : Span} {tokens rest : Tokens} {block : Block}
    (h : program stop tokens = .ok (block, rest)) : rest = [] := by
  rw [program] at h
  cases hProgram : Parser.program stop tokens with
  | error error =>
      rw [hProgram] at h
      cases h
  | ok found =>
      rw [hProgram] at h
      cases h
      rfl

/-- At the end of a program no delimiter is open. -/
theorem foresees_program (stop : Span) (tokens : Tokens) :
    Foresees [] program (fun _ => []) (· = []) stop tokens := by
  match tokens with
  | [] =>
      have hNil (stop' : Span) (rest' : Tokens) (h : Again (· = []) stop [] stop' rest') :
          program stop' rest' = .ok ([], rest') := by
        rcases h with hFront | hEnd
        · cases hFront
          exact program_nil stop
        · rw [hEnd]
          exact program_nil stop'
      exact .take [] rfl hNil
  | ⟨kind, span⟩ :: rest =>
      by_cases hSemicolon : kind = .delimiter .semicolon
      · subst hSemicolon
        refine .advance [⟨.delimiter .semicolon, span⟩] ?_ (foresees_program stop rest)
          completes_program.anywhere
        funext stop' rest'
        exact program_semicolon stop' span rest'
      · have hInner : Foresees [] (statement.andThen (fun first => program.map (first :: ·)))
            (fun _ => []) (· = []) stop (⟨kind, span⟩ :: rest) :=
          (foresees_statement [] stop (⟨kind, span⟩ :: rest)).andThen
            (fun first others h => (foresees_program stop others).map)
            (fun first => completes_program.map _) (fun after hAfter => hAfter ▸ nofun)
        refine hInner.of_front ?_ (fun value others h => ?_)
        · rintro stop' tokens' ⟨⟩
          exact program_cons hSemicolon stop' _
        · rw [← program_cons hSemicolon] at h
          rw [program_rest h]
          exact Nat.succ_pos _
termination_by tokens.length
decreasing_by
  · exact Nat.lt_succ_self _
  · exact lt_of_outcome h

end Reader

/-- The tokens that count: those before the end of the text, and one for the end. -/
def counted (tokens : List (Token Name)) : Tokens :=
  relevant tokens ++ [⟨.endOfFile, stopSpan tokens⟩]

theorem kind_of_mem_relevant {tokens : List (Token Name)} {token : Token Name}
    (h : token ∈ relevant tokens) : token.kind ≠ .endOfFile := by
  simpa using List.mem_takeWhile_imp h

theorem relevant_of_supplied {tokens : List (Token Name)} (h : ∀ token ∈ tokens, token.kind ≠ .endOfFile) :
    relevant tokens = tokens :=
  List.takeWhile_eq_self_iff.mpr (by simpa using h)

/-- What was read of a row is what parsing it gives, as long as no end of the text stands in it. -/
theorem parse_of_program {tokens rest : Tokens} {block : Block}
    (hSupplied : ∀ token ∈ tokens, token.kind ≠ .endOfFile)
    (h : Reader.program (stopSpan tokens) tokens = .ok (block, rest)) : parse tokens = .ok block := by
  rw [parse, relevant_of_supplied hSupplied]
  rw [Reader.program] at h
  cases hProgram : program (stopSpan tokens) tokens with
  | error error =>
      rw [hProgram] at h
      cases h
  | ok found =>
      rw [hProgram] at h
      cases h
      rfl

/-- Parsing fails just where reading the tokens before the end of the text fails. -/
theorem parse_eq_error_iff {tokens : List (Token Name)} {error : ParseError} :
    parse tokens = .error error ↔
      Reader.program (stopSpan tokens) (relevant tokens) = .error error := by
  rw [parse, Reader.program]
  cases program (stopSpan tokens) (relevant tokens) with
  | error other => simp [Except.map]
  | ok block => simp [Except.map]

/-- The token at which reading stops counts too, also when it is the end of the text. -/
theorem take_counted {tokens : List (Token Name)} {read ahead : Tokens}
    (h : relevant tokens = read ++ ahead) :
    ∃ rest, counted tokens = read ++ current (stopSpan tokens) ahead :: rest := by
  rw [counted, h]
  cases ahead with
  | nil => exact ⟨[], by rw [List.append_nil]; rfl⟩
  | cons token ahead => exact ⟨_, List.append_assoc _ _ _⟩

theorem relevant_append {read rest : Tokens} (h : ∀ token ∈ read, token.kind ≠ .endOfFile) :
    relevant (read ++ rest) = read ++ relevant rest := by
  rw [relevant, List.takeWhile_append_of_pos (fun token hToken => by simpa using h token hToken)]
  rfl

/-- The tokens that count hold all that is read. -/
theorem relevant_counted (tokens : List (Token Name)) : relevant (counted tokens) = relevant tokens := by
  rw [counted, relevant_append (fun token => kind_of_mem_relevant)]
  exact List.append_nil _

/-- Rows that agree up to a token, the end counting as one, begin alike there. -/
theorem sameFront_of_counted {tokens others : List (Token Name)} {read ahead : Tokens}
    (h : relevant tokens = read ++ ahead)
    (hTake : (counted others).take (read.length + 1) = (counted tokens).take (read.length + 1)) :
    ∃ ahead', relevant others = read ++ ahead' ∧
      SameFront (stopSpan tokens) ahead (stopSpan others) ahead' := by
  have hKind (token : Token Name) (hToken : token ∈ read ++ ahead) : token.kind ≠ .endOfFile :=
    kind_of_mem_relevant (h ▸ hToken)
  obtain ⟨rest, hCounted⟩ := take_counted h
  obtain ⟨rest', hOthers⟩ : ∃ rest', counted others = read ++ current (stopSpan tokens) ahead :: rest' := by
    have hSplit := List.take_append_drop (read.length + 1) (counted others)
    rw [hTake, hCounted, List.take_length_add_append] at hSplit
    exact ⟨(counted others).drop (read.length + 1), by simpa using hSplit.symm⟩
  have hRelevant : relevant others = read ++ relevant (current (stopSpan tokens) ahead :: rest') := by
    rw [← relevant_counted, hOthers]
    exact relevant_append (fun token hToken => hKind token (List.mem_append_left ahead hToken))
  refine ⟨_, hRelevant, ?_⟩
  cases ahead with
  | nil =>
      have hEnd : relevant others = read := hRelevant.trans (List.append_nil read)
      rw [counted, hEnd] at hOthers
      have hSame := (List.cons.inj (List.append_cancel_left hOthers)).1
      rw [(Token.mk.inj hSame).2]
      exact .nil _
  | cons token ahead =>
      have hToken : token.kind ≠ .endOfFile :=
        hKind token (List.mem_append_right read List.mem_cons_self)
      have hFront : relevant (token :: rest') = token :: relevant rest' := by
        rw [relevant, List.takeWhile_cons_of_pos (by simpa using hToken)]
        rfl
      rw [current, hFront]
      exact .cons _ _ token ahead _

/-- Errors are found at the earliest token possible, the end of the text counting as a token. What
stands before the token is the beginning of a program, and whatever goes on with that token has the same
error. -/
theorem parse_error_earliest {tokens : List (Token Name)} {error : ParseError}
    (h : parse tokens = .error error) :
    ∃ (index : Nat) (hIndex : index < (counted tokens).length),
      error.found = (counted tokens)[index] ∧
      (∃ more block, parse (tokens.take index ++ more) = .ok block) ∧
      ∀ others, (counted others).take (index + 1) = (counted tokens).take (index + 1) →
        parse others = .error error := by
  rw [parse_eq_error_iff] at h
  obtain ⟨read, ahead, hRelevant, hFound, -, hMore, hSame⟩ :=
    (Reader.foresees_program (stopSpan tokens) (relevant tokens)).refused error h
  obtain ⟨rest, hCounted⟩ := take_counted hRelevant
  refine ⟨read.length, by simp [hCounted], by simp [hCounted, hFound], ?_, fun others hOthers => ?_⟩
  · have hPrefix : read <+: tokens :=
      (hRelevant ▸ List.prefix_append read ahead).trans (List.takeWhile_prefix _)
    rw [← List.prefix_iff_eq_take.mp hPrefix]
    by_cases hRead : read = []
    · subst hRead
      exact ⟨[], [], program_nil _⟩
    · obtain ⟨more, block, hSupplied, hReads⟩ := hMore hRead
      have hBlock := (hReads (stopSpan (read ++ more)) [] rfl).2
      rw [List.append_nil] at hBlock
      refine ⟨more, block, parse_of_program (fun token hToken => ?_) hBlock⟩
      rcases List.mem_append.mp hToken with hMem | hMem
      · exact kind_of_mem_relevant (hRelevant ▸ List.mem_append_left ahead hMem)
      · exact hSupplied token hMem
  · obtain ⟨ahead', hAhead, hFront⟩ := sameFront_of_counted hRelevant hOthers
    rw [parse_eq_error_iff, hAhead]
    exact hSame _ ahead' hFront

/-- Three tokens in, a keyword stands where the parenthesis had to be closed. -/
theorem parse_error_earliest_beforeClosing :
    let tokens : List (Token Name) :=
      [⟨.delimiter .openParen, ⟨0, 1⟩⟩, ⟨.integer 1, ⟨1, 2⟩⟩, ⟨.keyword .function, ⟨3, 6⟩⟩]
    let error : ParseError := .expectedDelimiter .closeParen ⟨.keyword .function, ⟨3, 6⟩⟩
    parse tokens = .error error ∧
      ∃ (index : Nat) (hIndex : index < (counted tokens).length),
        error.found = (counted tokens)[index] ∧
        (∃ more block, parse (tokens.take index ++ more) = .ok block) ∧
        ∀ others, (counted others).take (index + 1) = (counted tokens).take (index + 1) →
          parse others = .error error := by
  have hError : parse [⟨.delimiter .openParen, ⟨0, 1⟩⟩, ⟨.integer 1, ⟨1, 2⟩⟩,
      ⟨.keyword .function, ⟨3, 6⟩⟩] =
      .error (.expectedDelimiter .closeParen ⟨.keyword .function, ⟨3, 6⟩⟩) := by cbv
  exact ⟨hError, parse_error_earliest hError⟩

end IntScript.Parser
