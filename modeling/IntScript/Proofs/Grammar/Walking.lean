import IntScript.Proofs.Grammar.Cursor

/-! A walk finds what the readers find, and where they refuse, it fails with their error. So it comes to an end
in every list of tokens, and nothing behind the first token for the end of the text changes what it comes to. -/
namespace IntScript

open IntScript.Parser

variable {α β : Type}

namespace Walk

/-- Where a walk lands, against an outcome on the tokens ahead: with the same value, where just the tokens are
ahead that the outcome leaves, or with the same error. It has not turned back, and not gone past the end. -/
inductive Lands (cursor : Cursor) :
    Option (Except ParseError α × Cursor) → Except ParseError (α × Tokens) → Prop where
  | found (value : α) {count : Nat} (h : count ≤ cursor.ahead.length) :
      Lands cursor (some (.ok value, cursor.forward count)) (.ok (value, cursor.ahead.drop count))
  | refused (error : ParseError) {count : Nat} (h : count ≤ cursor.ahead.length) :
      Lands cursor (some (.error error, cursor.forward count)) (.error error)

/-- The way to a place and the way on from there are one way. -/
theorem Lands.later {cursor : Cursor} {result : Option (Except ParseError α × Cursor)}
    {outcome : Except ParseError (α × Tokens)} {count : Nat} (h : count ≤ cursor.ahead.length)
    (hThere : Lands (cursor.forward count) result outcome) : Lands cursor result outcome := by
  have hAhead := (Cursor.forward_count h).1
  cases hThere with
  | @found value more hMore =>
      rw [hAhead, List.length_drop] at hMore
      rw [hAhead, List.drop_drop, Cursor.forward_forward]
      exact .found value (by omega)
  | @refused error more hMore =>
      rw [hAhead, List.length_drop] at hMore
      rw [Cursor.forward_forward]
      exact .refused error (by omega)

theorem Lands.exists_count {cursor : Cursor} {result : Option (Except ParseError α × Cursor)}
    {outcome : Except ParseError (α × Tokens)} (h : Lands cursor result outcome) :
    ∃ count ≤ cursor.ahead.length, result = some (outcome.map Prod.fst, cursor.forward count) := by
  cases h with
  | found value hCount => exact ⟨_, hCount, rfl⟩
  | refused error hCount => exact ⟨_, hCount, rfl⟩

/-- Where the first part has landed, the second goes on with what is ahead there. -/
theorem Lands.bind_ok {walk : Walk α} {further : α → Walk β} {cursor : Cursor} {value : α} {rest : Tokens}
    {outcome : Except ParseError (β × Tokens)} (hFirst : Lands cursor (walk.go cursor) (.ok (value, rest)))
    (hNext : ∀ there : Cursor, there.ahead = rest → there.stop = cursor.stop →
      Lands there ((further value).go there) outcome) :
    Lands cursor ((walk >>= further).go cursor) outcome := by
  generalize hGo : walk.go cursor = result at hFirst
  cases hFirst with
  | found value hCount =>
      obtain ⟨hAhead, hStop⟩ := Cursor.forward_count hCount
      rw [go_bind, hGo]
      exact .later hCount (hNext _ hAhead hStop)

/-- After an error nothing is walked. -/
theorem Lands.bind_error {walk : Walk α} {cursor : Cursor} {error : ParseError}
    (hFirst : Lands cursor (walk.go cursor) (.error error)) (further : α → Walk β) :
    Lands cursor ((walk >>= further).go cursor) (.error error) := by
  generalize hGo : walk.go cursor = result at hFirst
  cases hFirst with
  | refused error hCount =>
      rw [go_bind, hGo]
      exact .refused error hCount

/-- Wherever these tokens are ahead, with this end behind them, the walk comes to the outcome if it has enough
depth. -/
def Follows (walk : Nat → Walk α) (stop : Span) (tokens : Tokens)
    (outcome : Except ParseError (α × Tokens)) : Prop :=
  ∃ depth, ∀ more, depth ≤ more → ∀ cursor : Cursor, cursor.ahead = tokens → cursor.stop = stop →
    Lands cursor ((walk more).go cursor) outcome

namespace Follows

variable {walk : Nat → Walk α} {stop : Span} {tokens rest : Tokens} {token : Token Name}
  {outcome : Except ParseError (α × Tokens)}

theorem done (value : α) : Follows (fun _ => pure value) stop tokens (.ok (value, tokens)) := by
  refine ⟨0, ?_⟩
  rintro more - cursor rfl -
  exact .found value (Nat.zero_le _)

/-- The place of an error is where the walk stood, and it does not move there. -/
theorem refuse (error : ParseError) :
    Follows (fun _ => throw error : Nat → Walk α) stop tokens (.error error) := by
  refine ⟨0, ?_⟩
  rintro more - cursor - -
  exact @Lands.refused _ cursor error 0 (Nat.zero_le _)

/-- A call takes one of the depth. -/
theorem call (h : Follows (fun depth => walk (depth + 1)) stop tokens outcome) :
    Follows walk stop tokens outcome := by
  obtain ⟨depth, hDepth⟩ := h
  refine ⟨depth + 1, fun more hMore => ?_⟩
  obtain ⟨fewer, rfl⟩ := Nat.exists_eq_add_of_le' (Nat.le_of_add_left_le hMore)
  exact hDepth fewer (Nat.le_of_succ_le_succ hMore)

/-- One walk after another. -/
theorem andThen {further : Nat → α → Walk β} {next : α × Tokens → Except ParseError (β × Tokens)}
    (hFirst : Follows walk stop tokens outcome)
    (hNext : ∀ value rest, outcome = .ok (value, rest) →
      Follows (fun depth => further depth value) stop rest (next (value, rest))) :
    Follows (fun depth => walk depth >>= further depth) stop tokens (outcome >>= next) := by
  obtain ⟨first, hWalk⟩ := hFirst
  cases outcome with
  | error error =>
      exact ⟨first, fun more hMore cursor hAhead hStop => (hWalk more hMore cursor hAhead hStop).bind_error _⟩
  | ok found =>
      obtain ⟨value, rest⟩ := found
      -- The outcome is known, so there is one walk to go on with and the greater depth is enough for both.
      obtain ⟨second, hFurther⟩ := hNext value rest rfl
      refine ⟨max first second, fun more hMore cursor hAhead hStop => ?_⟩
      obtain ⟨hFirst, hSecond⟩ := Nat.max_le.mp hMore
      exact (hWalk more hFirst cursor hAhead hStop).bind_ok
        (fun there hRest hSame => hFurther more hSecond there hRest (hSame.trans hStop))

theorem map {reader : Reader α} {f : α → β} (h : Follows walk stop tokens (reader stop tokens)) :
    Follows (fun depth => walk depth >>= fun value => pure (f value)) stop tokens
      (reader.map f stop tokens) :=
  h.andThen (fun value _ _ => done (f value))

/-- A walk that is known to come to a value, and another one after it. -/
theorem onward {further : Nat → α → Walk β} {value : α} {outcome : Except ParseError (β × Tokens)}
    (hFirst : Follows walk stop tokens (.ok (value, rest)))
    (hNext : Follows (fun depth => further depth value) stop rest outcome) :
    Follows (fun depth => walk depth >>= further depth) stop tokens outcome := by
  have hBoth : Follows (fun depth => walk depth >>= further depth) stop tokens
      (.ok (value, rest) >>= fun _ => outcome) := by
    refine hFirst.andThen ?_
    rintro found left ⟨⟩
    exact hNext
  exact hBoth

/-- Looking at the token in front, which may be the one at the end. -/
theorem current {further : Nat → Token Name → Walk α}
    (h : Follows (fun depth => further depth (Parser.current stop tokens)) stop tokens outcome) :
    Follows (fun depth => Walk.current >>= further depth) stop tokens outcome := by
  have hToken : Follows (fun _ => Walk.current) stop tokens (.ok (Parser.current stop tokens, tokens)) := by
    refine ⟨0, ?_⟩
    rintro more - cursor rfl rfl
    rw [← Cursor.current_eq]
    exact .found cursor.current (Nat.zero_le _)
  exact hToken.onward h

/-- Looking at the token behind the first one. -/
theorem next {further : Nat → Token Name → Walk α}
    (h : Follows (fun depth => further depth (Parser.current stop rest)) stop (token :: rest) outcome) :
    Follows (fun depth => Walk.next >>= further depth) stop (token :: rest) outcome := by
  have hToken : Follows (fun _ => Walk.next) stop (token :: rest)
      (.ok (Parser.current stop rest, token :: rest)) := by
    refine ⟨0, ?_⟩
    rintro more - cursor hAhead rfl
    rw [← Cursor.next_eq hAhead, ← hAhead]
    exact .found cursor.next (Nat.zero_le _)
  exact hToken.onward h

/-- The token found is the one in front, and the walk goes on behind it. -/
theorem take {further : Nat → Token Name → Walk α}
    (h : Follows (fun depth => further depth token) stop rest outcome) :
    Follows (fun depth => Walk.take >>= further depth) stop (token :: rest) outcome := by
  have hToken : Follows (fun _ => Walk.take) stop (token :: rest) (.ok (token, rest)) := by
    refine ⟨0, ?_⟩
    rintro more - cursor hAhead rfl
    have hGo : Walk.take.go cursor = some (.ok cursor.current, cursor.advance) := rfl
    have hCount : 1 ≤ cursor.ahead.length := by
      rw [hAhead]
      exact Nat.succ_le_succ (Nat.zero_le _)
    have hRest : rest = cursor.ahead.drop 1 := by
      rw [hAhead]
      rfl
    rw [hGo, Cursor.current_eq, Cursor.advance_eq hAhead, hAhead, hRest]
    exact .found token hCount
  exact hToken.onward h

/-- No token ahead is one for the end. -/
theorem inside (h : token.kind ≠ .endOfFile → Follows walk stop (token :: rest) outcome) :
    Follows walk stop (token :: rest) outcome := by
  by_cases hKind : token.kind = .endOfFile
  · refine ⟨0, fun more _ cursor hAhead _ => ?_⟩
    obtain ⟨-, -, -, hOther⟩ := Cursor.drop_forward cursor hAhead
    exact (hOther hKind).elim
  · exact h hKind

end Follows

section

variable {stop : Span} {tokens rest : Tokens} {token : Token Name} {kind : TokenKind Name}

/-- A token that is not in front is not the current one either, unless it is the one for the end. -/
theorem kind_current_ne (h : OtherFront kind tokens) (hKind : kind ≠ .endOfFile) :
    (Parser.current stop tokens).kind ≠ kind := by
  cases tokens with
  | nil => exact hKind.symm
  | cons token rest => exact h token rfl

/-- Looking at the current token and at the front of the row give the same operator. -/
theorem operatorAt_current (level : Nat) (stop : Span) (tokens : Tokens) :
    operatorAt level tokens =
      (Parser.current stop tokens).kind.operator?.filter (fun op => op.precedence = level) := by
  cases tokens <;> rfl

theorem follows_takes_other (h : OtherFront kind tokens) (hKind : kind ≠ .endOfFile) :
    Follows (fun _ => takes kind) stop tokens (.ok (false, tokens)) := by
  refine .current ?_
  rw [if_neg (kind_current_ne h hKind)]
  exact .done false

theorem follows_takes_same (h : token.kind = kind) :
    Follows (fun _ => takes kind) stop (token :: rest) (.ok (true, rest)) := by
  refine .current ?_
  rw [Parser.current, if_pos h]
  exact .take (.done true)

end

section

variable (stop : Span) (tokens : Tokens)

theorem follows_delimiter (expected : Delimiter) :
    Follows (fun _ => delimiter expected) stop tokens (Reader.delimiter expected stop tokens) := by
  refine .current ?_
  by_cases hOther : OtherFront (.delimiter expected) tokens
  · rw [Reader.delimiter_other hOther, if_neg (kind_current_ne hOther nofun)]
    exact .refuse _
  · obtain ⟨span, rest, rfl⟩ := exists_of_front hOther
    rw [Reader.delimiter_same, Parser.current, if_pos rfl]
    exact .take (.done span)

/-- At the end of the row the error is about the opening delimiter, for the walk as for the reader. -/
theorem follows_closing (closer opener : Delimiter) (opened : Span) :
    Follows (fun _ => closing closer opener opened) stop tokens
      (Reader.closing closer opener opened stop tokens) := by
  cases tokens with
  | nil =>
      refine .current ?_
      rw [Reader.closing_nil, Parser.current, if_pos rfl]
      exact .refuse _
  | cons token rest =>
      refine .inside fun hKind => .current ?_
      rw [Reader.closing_cons, Parser.current, if_neg hKind]
      exact follows_delimiter stop (token :: rest) closer

theorem follows_closes (span opened : Span) (rest : Tokens) :
    Follows (fun _ => closing .closeParen .openParen opened) stop (⟨.delimiter .closeParen, span⟩ :: rest)
      (.ok (span, rest)) := by
  have hClosing :=
    follows_closing stop (⟨.delimiter .closeParen, span⟩ :: rest) .closeParen .openParen opened
  rwa [Reader.closing_cons, Reader.delimiter_same] at hClosing

theorem follows_identifier (role : IdentifierRole) :
    Follows (fun _ => identifier role) stop tokens (Reader.identifier role stop tokens) := by
  refine .current ?_
  cases tokens with
  | nil => exact .refuse _
  | cons token rest =>
      obtain ⟨kind, span⟩ := token
      cases kind with
      | identifier name => exact .take (.done name)
      | keyword | delimiter | operator | integer | endOfFile => exact .refuse _

/-- Without a comma the list has to end here. -/
theorem separated_done {tokens : Tokens} (h : OtherFront (.delimiter .comma) tokens) (opened stop : Span)
    (further : Reader (List α)) (first : α) :
    Reader.separated opened further first stop tokens =
      (Reader.closing .closeParen .openParen opened).map (fun _ => [first]) stop tokens := by
  cases tokens with
  | nil => rfl
  | cons token rest => exact Reader.separated_other (h token rfl) opened stop further first rest

/-- After the first element of a list in parentheses. -/
theorem follows_separated (opened : Span) {walk : Nat → Walk (List α)} {further : Reader (List α)} (first : α)
    (hFurther : ∀ span rest, tokens = ⟨.delimiter .comma, span⟩ :: rest →
      Follows walk stop rest (further stop rest)) :
    Follows (fun depth => do
      let more ← takes (.delimiter .comma)
      if more then
        let others ← walk depth
        return first :: others
      else
        let _ ← closing .closeParen .openParen opened
        return [first]) stop tokens (Reader.separated opened further first stop tokens) := by
  by_cases hOther : OtherFront (.delimiter .comma) tokens
  · rw [separated_done hOther]
    exact (follows_takes_other hOther nofun).onward
      (follows_closing stop tokens .closeParen .openParen opened).map
  · obtain ⟨span, rest, rfl⟩ := exists_of_front hOther
    exact (follows_takes_same rfl).onward (hFurther span rest rfl).map

end

-- The recursion is that of the readers, on the tokens ahead. Every call takes from the depth, so how much of
-- it is enough follows from the calls and is never computed.
mutual

theorem follows_operand (level : Nat) (stop : Span) (tokens : Tokens) :
    Follows (fun depth => operand depth level) stop tokens (Reader.operand level stop tokens) := by
  refine .call ?_
  match level with
  | 0 =>
      rw [Reader.operand_zero]
      exact follows_primary stop tokens
  | level + 1 =>
      rw [Reader.operand_succ]
      exact (follows_operand level stop tokens).andThen
        (fun left rest h => follows_operations level left stop rest)
termination_by (tokens.length, level + 1)
decreasing_by
  · exact Prod.Lex.right _ (Nat.succ_pos _)
  · exact Prod.Lex.right _ (Nat.lt_succ_self _)
  · exact Prod.Lex.left _ _ (lt_of_outcome h)

/-- An operator of the level is looked for at the current token, the reader looks at the front. -/
theorem follows_operations (level : Nat) (left : Expr) (stop : Span) (tokens : Tokens) :
    Follows (fun depth => operations depth level left) stop tokens
      (Reader.operations level left stop tokens) := by
  refine .call (.current ?_)
  simp only [← operatorAt_current]
  cases hAt : operatorAt (level + 1) tokens with
  | none =>
      rw [Reader.operations_done hAt]
      exact .done left
  | some op =>
      match tokens with
      | [] => cases hAt
      | token :: rest =>
          rw [Reader.operations_operator hAt]
          refine .take ?_
          exact (follows_operand level stop rest).andThen
            (fun right others h => follows_operations level (.binary op left right) stop others)
termination_by (tokens.length, 0)
decreasing_by
  · exact Prod.Lex.left _ _ (Nat.lt_succ_self _)
  · exact Prod.Lex.left _ _ (Nat.lt_succ_of_lt (lt_of_outcome h))

/-- After an identifier the current token tells a call from a variable. -/
theorem follows_primary (stop : Span) (tokens : Tokens) :
    Follows primary stop tokens (Reader.primary stop tokens) := by
  refine .call (.current ?_)
  match tokens with
  | [] =>
      have hNone : Reader.primary stop [] = .error (.expectedExpression (Parser.current stop [])) := by
        refine Reader.primary_error ?_ stop
        exact nofun
      rw [hNone]
      exact .refuse _
  | ⟨kind, span⟩ :: rest =>
      have hRefuse (hOther : Reader.beginsExpression kind = false) :
          Reader.primary stop (⟨kind, span⟩ :: rest) = .error (.expectedExpression ⟨kind, span⟩) := by
        refine Reader.primary_error ?_ stop
        rintro token ⟨⟩
        exact hOther
      cases kind with
      | integer value =>
          rw [Reader.primary_integer]
          exact .take (.done _)
      | identifier name =>
          refine .take (.current ?_)
          by_cases hFree : OtherFront (.delimiter .openParen) rest
          · simp only [Reader.primary_reference hFree, if_neg (kind_current_ne hFree nofun)]
            exact .done _
          · obtain ⟨opened, input, hInput⟩ := exists_of_front hFree
            have hArguments := follows_arguments opened stop input
            subst hInput
            have hOpened := follows_delimiter stop (⟨.delimiter .openParen, opened⟩ :: input) .openParen
            rw [Reader.delimiter_same] at hOpened
            simp only [Reader.primary_call, Parser.current, if_pos]
            exact hOpened.onward hArguments.map
      | delimiter delimiter =>
          cases delimiter with
          | openParen =>
              rw [Reader.primary_group]
              refine .take ?_
              exact (follows_operand BinaryOp.loosest stop rest).andThen
                (fun value others h => (follows_closing stop others .closeParen .openParen span).map)
          | closeParen | openBrace | closeBrace | comma | semicolon | assign =>
              rw [hRefuse rfl]
              exact .refuse _
      | keyword | operator | endOfFile =>
          rw [hRefuse rfl]
          exact .refuse _
termination_by (tokens.length, 0)
decreasing_by
  · exact Prod.Lex.left _ _ (Nat.lt_succ_self _)
  · subst hInput
    exact Prod.Lex.left _ _ (Nat.lt_succ_of_lt (Nat.lt_succ_self _))

/-- Before the parenthesis at the end is looked for the walk has not moved, so an empty list is the
same for both. -/
theorem follows_arguments (opened stop : Span) (tokens : Tokens) :
    Follows (fun depth => arguments depth opened) stop tokens (Reader.arguments opened stop tokens) := by
  refine .call (.current ?_)
  by_cases hClose : OtherFront (.delimiter .closeParen) tokens
  · simp only [Reader.arguments_further hClose, if_neg (kind_current_ne hClose nofun)]
    exact follows_furtherArguments opened stop tokens
  · obtain ⟨span, rest, rfl⟩ := exists_of_front hClose
    simp only [Reader.arguments_close, Parser.current, if_pos]
    exact (follows_closes stop span opened rest).onward (.done [])
termination_by (tokens.length, BinaryOp.loosest + 3)
decreasing_by exact Prod.Lex.right _ (Nat.lt_succ_self _)

theorem follows_furtherArguments (opened stop : Span) (tokens : Tokens) :
    Follows (fun depth => furtherArguments depth opened) stop tokens
      (Reader.furtherArguments opened stop tokens) := by
  rw [Reader.furtherArguments_eq]
  refine .call ((follows_operand BinaryOp.loosest stop tokens).andThen (fun value rest h => ?_))
  refine follows_separated stop rest opened value (fun span others hRest => ?_)
  exact follows_furtherArguments opened stop others
termination_by (tokens.length, BinaryOp.loosest + 2)
decreasing_by
  · exact Prod.Lex.right _ (Nat.lt_succ_self _)
  · subst hRest
    exact Prod.Lex.left _ _ (Nat.lt_of_succ_lt (lt_of_outcome h))

end

theorem follows_furtherParameters (opened stop : Span) (tokens : Tokens) :
    Follows (fun depth => furtherParameters depth opened) stop tokens
      (Reader.furtherParameters opened stop tokens) := by
  rw [Reader.furtherParameters_eq]
  refine .call ((follows_identifier stop tokens .parameterName).andThen (fun name rest h => ?_))
  refine follows_separated stop rest opened name (fun span others hRest => ?_)
  exact follows_furtherParameters opened stop others
termination_by tokens.length
decreasing_by
  subst hRest
  exact Nat.lt_of_succ_lt (lt_of_outcome h)

section

variable (stop : Span) (tokens : Tokens)

theorem follows_expression : Follows expression stop tokens (Reader.expression stop tokens) :=
  follows_operand BinaryOp.loosest stop tokens

theorem follows_condition : Follows condition stop tokens (Reader.condition stop tokens) := by
  rw [Reader.condition_eq]
  exact (follows_delimiter stop tokens .openParen).andThen (fun opened rest _ =>
    (follows_expression stop rest).andThen (fun _ others _ =>
      (follows_closing stop others .closeParen .openParen opened).map))

theorem follows_parameters (opened : Span) :
    Follows (fun depth => parameters depth opened) stop tokens (Reader.parameters opened stop tokens) := by
  refine .current ?_
  by_cases hClose : OtherFront (.delimiter .closeParen) tokens
  · simp only [Reader.parameters_further hClose, if_neg (kind_current_ne hClose nofun)]
    exact follows_furtherParameters opened stop tokens
  · obtain ⟨span, rest, rfl⟩ := exists_of_front hClose
    simp only [Reader.parameters_close, Parser.current, if_pos]
    exact (follows_closes stop span opened rest).onward (.done [])

/-- One semicolon is taken at most. -/
theorem follows_semicolon (stmt : Stmt) :
    Follows (fun _ => do
      let _ ← takes (.delimiter .semicolon)
      return stmt) stop tokens (Reader.semicolon stmt stop tokens) := by
  by_cases hOther : OtherFront (.delimiter .semicolon) tokens
  · rw [Reader.semicolon_other hOther]
    exact (follows_takes_other hOther nofun).onward (.done stmt)
  · obtain ⟨span, rest, rfl⟩ := exists_of_front hOther
    rw [Reader.semicolon_same]
    exact (follows_takes_same rfl).onward (.done stmt)

/-- After the keyword of a declaration. -/
theorem follows_declaration :
    Follows (fun depth => do
      let name ← identifier .variableName
      let _ ← delimiter .assign
      let value ← expression depth
      return .declare name value) stop tokens (Reader.declaration stop tokens) :=
  (follows_identifier stop tokens .variableName).andThen (fun _ rest _ =>
    (follows_delimiter stop rest .assign).andThen (fun _ others _ => (follows_expression stop others).map))

/-- A statement that is an expression. -/
theorem follows_evaluate (hPlain : ∀ token ∈ tokens.head?, Reader.introduces token.kind = false)
    (hAssign : ¬ Reader.Assigns tokens) :
    Follows (fun depth => do
      let value ← expression depth
      return .evaluate value) stop tokens (Reader.bareStatement stop tokens) := by
  rw [Reader.bareStatement_simple hPlain, Reader.simple_evaluate hAssign]
  exact (follows_expression stop tokens).map

section

variable {stop tokens} (hBlock : ∀ rest, rest.length < tokens.length →
  Follows block stop rest (Reader.block stop rest))

include hBlock

/-- After the keyword of a function. -/
theorem follows_function :
    Follows (fun depth => do
      let name ← identifier .functionName
      let opened ← delimiter .openParen
      let names ← parameters depth opened
      let body ← block depth
      return .function name names body) stop tokens (Reader.function stop tokens) := by
  refine (follows_identifier stop tokens .functionName).andThen (fun name rest hName => ?_)
  refine (follows_delimiter stop rest .openParen).andThen (fun opened others hOpened => ?_)
  refine (follows_parameters stop others opened).andThen (fun names last hNames => ?_)
  have hOthers : others.length < tokens.length :=
    Nat.lt_trans (lt_of_outcome hOpened) (lt_of_outcome hName)
  exact (hBlock last (Nat.lt_trans (lt_of_outcome hNames) hOthers)).map

/-- After the keyword of a loop. -/
theorem follows_loop :
    Follows (fun depth => do
      let test ← condition depth
      let body ← block depth
      return .loop test body) stop tokens (Reader.loop stop tokens) := by
  refine (follows_condition stop tokens).andThen (fun test rest hTest => ?_)
  exact (hBlock rest (lt_of_outcome hTest)).map

/-- Without `else` nothing is taken, and the second block is empty. -/
theorem follows_alternative (test : Expr) (positive : Block) :
    Follows (fun depth => do
      let more ← takes (.keyword .otherwise)
      if more then
        let negative ← block depth
        return .branch test positive negative
      else
        return .branch test positive []) stop tokens (Reader.alternative test positive stop tokens) := by
  by_cases hOther : OtherFront (.keyword .otherwise) tokens
  · rw [Reader.alternative_done hOther]
    exact (follows_takes_other hOther nofun).onward (.done _)
  · obtain ⟨span, rest, rfl⟩ := exists_of_front hOther
    exact (follows_takes_same rfl).onward (hBlock rest (Nat.lt_succ_self _)).map

/-- After the keyword of a conditional. -/
theorem follows_branch :
    Follows (fun depth => do
      let test ← condition depth
      let positive ← block depth
      let more ← takes (.keyword .otherwise)
      if more then
        let negative ← block depth
        return .branch test positive negative
      else
        return .branch test positive []) stop tokens (Reader.branch stop tokens) := by
  refine (follows_condition stop tokens).andThen (fun test rest hTest => ?_)
  have hRest : rest.length < tokens.length := lt_of_outcome hTest
  refine (hBlock rest hRest).andThen (fun positive others hPositive => ?_)
  have hOthers : others.length < tokens.length := Nat.lt_trans (lt_of_outcome hPositive) hRest
  exact follows_alternative (fun last hLast => hBlock last (Nat.lt_trans hLast hOthers)) test positive

end

end

mutual

theorem follows_statement (stop : Span) (tokens : Tokens) :
    Follows statement stop tokens (Reader.statement stop tokens) := by
  rw [Reader.statement_eq]
  exact .call ((follows_bareStatement stop tokens).andThen
    (fun stmt rest _ => follows_semicolon stop rest stmt))
termination_by (tokens.length, 2)
decreasing_by exact Prod.Lex.right _ (Nat.lt_succ_self _)

/-- The keyword is looked at before it is taken, so an expression begins at the same token. -/
theorem follows_bareStatement (stop : Span) (tokens : Tokens) :
    Follows bareStatement stop tokens (Reader.bareStatement stop tokens) := by
  refine .call (.current ?_)
  match tokens with
  | [] =>
      refine follows_evaluate stop [] nofun ?_
      rintro ⟨name, span, place, rest, ⟨⟩⟩
  | ⟨kind, span⟩ :: rest =>
      have hBlock (others : Tokens) (h : others.length < rest.length) :
          Follows block stop others (Reader.block stop others) :=
        follows_block stop others
      have hEvaluate (hPlain : Reader.introduces kind = false)
          (hName : ∀ name, kind = .identifier name → OtherFront (.delimiter .assign) rest) :
          Follows (fun depth => expression depth >>= fun value => pure (.evaluate value)) stop
            (⟨kind, span⟩ :: rest) (Reader.bareStatement stop (⟨kind, span⟩ :: rest)) := by
        refine follows_evaluate stop _ ?_ ?_
        · rintro token ⟨⟩
          exact hPlain
        · rintro ⟨name, place, sign, others, hTokens⟩
          cases hTokens
          exact hName name rfl _ rfl rfl
      cases kind with
      | keyword keyword =>
          cases keyword with
          | function =>
              rw [Reader.bareStatement_function]
              exact .take (follows_function hBlock)
          | declare =>
              rw [Reader.bareStatement_declare]
              exact .take (follows_declaration stop rest)
          | loop =>
              rw [Reader.bareStatement_loop]
              exact .take (follows_loop hBlock)
          | branch =>
              rw [Reader.bareStatement_branch]
              exact .take (follows_branch hBlock)
          | yield =>
              rw [Reader.bareStatement_yield]
              exact .take (follows_expression stop rest).map
          | otherwise => exact hEvaluate rfl nofun
      | identifier name =>
          refine .next ?_
          by_cases hOther : OtherFront (.delimiter .assign) rest
          · simp only [if_neg (kind_current_ne hOther nofun)]
            exact hEvaluate rfl (fun _ _ => hOther)
          · obtain ⟨sign, input, rfl⟩ := exists_of_front hOther
            have hPlain : ∀ token ∈ (⟨.identifier name, span⟩ :: ⟨.delimiter .assign, sign⟩ :: input).head?,
                Reader.introduces token.kind = false := by
              rintro token ⟨⟩
              rfl
            simp only [Reader.bareStatement_simple hPlain, Reader.simple_assign, Parser.current, if_pos]
            exact .take (.take (follows_expression stop input).map)
      | delimiter | operator | integer | endOfFile => exact hEvaluate rfl nofun
termination_by (tokens.length, 1)
decreasing_by exact Prod.Lex.left _ _ (Nat.lt_succ_of_lt h)

theorem follows_block (stop : Span) (tokens : Tokens) :
    Follows block stop tokens (Reader.block stop tokens) := by
  rw [Reader.block_eq]
  exact .call ((follows_delimiter stop tokens .openBrace).andThen
    (fun opened rest h => follows_statements opened stop rest))
termination_by (tokens.length, 0)
decreasing_by exact Prod.Lex.left _ _ (lt_of_outcome h)

/-- The order of the questions is the reader's: the brace, the semicolon, the end, and then a
statement. -/
theorem follows_statements (opened stop : Span) (tokens : Tokens) :
    Follows (fun depth => statements depth opened) stop tokens (Reader.statements opened stop tokens) := by
  refine .call (.current ?_)
  match tokens with
  | [] =>
      rw [Reader.statements_nil]
      exact .refuse _
  | ⟨kind, span⟩ :: rest =>
      have hFirst (hClose : kind ≠ .delimiter .closeBrace) (hSemicolon : kind ≠ .delimiter .semicolon) :
          Follows (fun depth => statement depth >>= fun first => statements depth opened >>= fun others =>
            pure (first :: others)) stop (⟨kind, span⟩ :: rest)
            (Reader.statements opened stop (⟨kind, span⟩ :: rest)) := by
        rw [Reader.statements_cons hClose hSemicolon]
        exact (follows_statement stop (⟨kind, span⟩ :: rest)).andThen
          (fun first others h => (follows_statements opened stop others).map)
      cases kind with
      -- The walk looks for such a token here, but one that is ahead is not of this kind.
      | endOfFile => exact .inside fun hKind => (hKind rfl).elim
      | delimiter delimiter =>
          cases delimiter with
          | closeBrace =>
              rw [Reader.statements_close]
              exact .take (.done [])
          | semicolon =>
              rw [Reader.statements_semicolon]
              exact .take (follows_statements opened stop rest)
          | openParen | closeParen | openBrace | comma | assign => exact hFirst nofun nofun
      | keyword | operator | integer | identifier => exact hFirst nofun nofun
termination_by (tokens.length, 3)
decreasing_by
  · exact Prod.Lex.right _ (Nat.lt_succ_self _)
  · exact Prod.Lex.left _ _ (lt_of_outcome h)
  · exact Prod.Lex.left _ _ (Nat.lt_succ_self _)

end

/-- At the end of the row the walk is done, and whatever stands behind the end is never looked at. -/
theorem follows_program (stop : Span) (tokens : Tokens) :
    Follows program stop tokens (Reader.program stop tokens) := by
  refine .call (.current ?_)
  match tokens with
  | [] =>
      rw [Reader.program_nil]
      exact .done []
  | ⟨kind, span⟩ :: rest =>
      have hFirst (hSemicolon : kind ≠ .delimiter .semicolon) :
          Follows (fun depth => statement depth >>= fun first => program depth >>= fun others =>
            pure (first :: others)) stop (⟨kind, span⟩ :: rest)
            (Reader.program stop (⟨kind, span⟩ :: rest)) := by
        rw [Reader.program_cons hSemicolon]
        exact (follows_statement stop (⟨kind, span⟩ :: rest)).andThen
          (fun first others h => (follows_program stop others).map)
      cases kind with
      | endOfFile => exact .inside fun hKind => (hKind rfl).elim
      | delimiter delimiter =>
          cases delimiter with
          | semicolon =>
              rw [Reader.program_semicolon]
              exact .take (follows_program stop rest)
          | openParen | closeParen | openBrace | closeBrace | comma | assign => exact hFirst nofun
      | keyword | operator | integer | identifier => exact hFirst nofun
termination_by tokens.length
decreasing_by
  · exact lt_of_outcome h
  · exact Nat.lt_succ_self _

theorem stop_zero (tokens : List (Token Name)) : Cursor.stop ⟨tokens, 0⟩ = stopSpan tokens := by
  rw [Cursor.stop, stopSpan, List.drop_zero]
  cases tokens.find? (fun token => token.kind == .endOfFile) with
  | some token => rfl
  | none =>
      rw [Cursor.beyond]
      cases tokens.getLast? <;> rfl

/-- The walk through any list ends, no further than at the first token for the end, with what the readers find
among the tokens before it. -/
theorem go_program (tokens : List (Token Name)) :
    ∃ depth, ∀ more, depth ≤ more → ∃ place ≤ (relevant tokens).length,
      (program more).go ⟨tokens, 0⟩ = some (parse tokens, ⟨tokens, place⟩) := by
  obtain ⟨depth, hFollows⟩ := follows_program (stopSpan tokens) (relevant tokens)
  refine ⟨depth, fun more hMore => ?_⟩
  obtain ⟨place, hPlace, hGo⟩ := (hFollows more hMore ⟨tokens, 0⟩ rfl (stop_zero tokens)).exists_count
  have hFound : (Reader.program (stopSpan tokens) (relevant tokens)).map Prod.fst = parse tokens := by
    rw [Reader.program, parse]
    cases Parser.program (stopSpan tokens) (relevant tokens) <;> rfl
  rw [hFound, Cursor.forward, Nat.zero_add] at hGo
  exact ⟨place, hPlace, hGo⟩

end Walk

section

variable (tokens rest : List (Token Name)) (span : Span)

/-- What stands behind a token for the end does not count. -/
theorem relevant_append_end : relevant (tokens ++ ⟨.endOfFile, span⟩ :: rest) = relevant tokens := by
  induction tokens with
  | nil => rfl
  | cons token tokens ih =>
      rw [relevant] at ih
      rw [relevant, List.cons_append, List.takeWhile_cons, ih, relevant, relevant, List.takeWhile_cons]

/-- The first token for the end decides where errors are reported, so a further one changes nothing. -/
theorem stopSpan_append_end :
    stopSpan (tokens ++ ⟨.endOfFile, span⟩ :: rest) =
      ((tokens.find? (fun token => token.kind == .endOfFile)).map Token.span).getD span := by
  rw [stopSpan, List.find?_append]
  cases tokens.find? (fun token => token.kind == .endOfFile) <;> rfl

/-- Nothing behind a token for the end is read, and its span counts only where no other one stands before
it. -/
theorem parse_append_end :
    parse (tokens ++ ⟨.endOfFile, span⟩ :: rest) =
      Parser.program (((tokens.find? (fun token => token.kind == .endOfFile)).map Token.span).getD span)
        (relevant tokens) := by
  rw [parse, relevant_append_end, stopSpan_append_end]

end

/-- Where the last token ends, or where the text begins if there is none. -/
def lastLimit (tokens : List (Token Name)) : UInt32 :=
  match tokens.getLast? with
  | some token => token.span.limit
  | none => 0

/-- What comes after a token for the end makes no difference, and neither does such a token at the place where
the last one ends. A walk through the whole list, token by token, ends with the same within some depth of calls
and does not go past the first token for the end. -/
theorem parse_upToEnd :
    (∀ (tokens rest : List (Token Name)) (span : Span),
      parse (tokens ++ ⟨.endOfFile, span⟩ :: rest) = parse (tokens ++ [⟨.endOfFile, span⟩])) ∧
    (∀ tokens, parse tokens = parse (tokens ++ [⟨.endOfFile, Span.emptyAt (lastLimit tokens)⟩])) ∧
    ∀ tokens, ∃ depth, ∀ more, depth ≤ more → ∃ place ≤ (relevant tokens).length,
      (Walk.program more).go ⟨tokens, 0⟩ = some (parse tokens, ⟨tokens, place⟩) := by
  refine ⟨fun tokens rest span => ?_, fun tokens => ?_, Walk.go_program⟩
  · rw [parse_append_end, parse_append_end]
  · rw [parse_append_end, parse, stopSpan, lastLimit]
    cases tokens.find? (fun token => token.kind == .endOfFile) with
    | some token => rfl
    | none => cases tokens.getLast? <;> rfl

end IntScript
