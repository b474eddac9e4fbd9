import IntScript.Proofs.Grammar.Depth
import IntScript.Proofs.Grammar.Walking

/-! Walks go onward. No walk turns back or goes past a token for the end, and one that finds an expression, a
statement or what stands between brackets has taken a token for it. While no token is taken, only so many calls
can be made one inside of the other, for six levels of operators and a few more. So a walk is done within a depth
that is given by the number of tokens ahead. -/
namespace IntScript

open IntScript.Parser

namespace Cursor

/-- From one place to another in the same list: not backward, and not past any place further on at which a token
for the end is found. -/
structure Onward (cursor there : Cursor) : Prop where
  tokens_eq : there.tokens = cursor.tokens
  place_le : cursor.place ≤ there.place
  le_end : ∀ count, (cursor.forward count).current.kind = .endOfFile → there.place ≤ cursor.place + count

section

variable {cursor : Cursor}

theorem exists_ahead (h : cursor.current.kind ≠ .endOfFile) : ∃ token rest, cursor.ahead = token :: rest := by
  cases hAhead : cursor.ahead with
  | nil =>
      rw [current_eq, hAhead] at h
      exact (h rfl).elim
  | cons token rest => exact ⟨token, rest, rfl⟩

theorem length_advance (h : cursor.current.kind ≠ .endOfFile) :
    cursor.advance.ahead.length < cursor.ahead.length := by
  obtain ⟨token, rest, hAhead⟩ := exists_ahead h
  rw [advance_eq hAhead, (forward_one hAhead).1, hAhead]
  exact Nat.lt_succ_self _

/-- At the end the place does not change, so nothing is lost by advancing there. -/
theorem length_advance_le (cursor : Cursor) : cursor.advance.ahead.length ≤ cursor.ahead.length := by
  by_cases hKind : cursor.current.kind = .endOfFile
  · have hSame : cursor.advance = cursor := if_pos hKind
    exact Nat.le_of_eq (congrArg (fun there => there.ahead.length) hSame)
  · exact Nat.le_of_lt (length_advance hKind)

/-- None of the tokens ahead is one for the end. -/
theorem onward_forward {count : Nat} (h : count ≤ cursor.ahead.length) :
    cursor.Onward (cursor.forward count) := by
  refine ⟨rfl, Nat.le_add_right _ _, fun fewer hEnd => Nat.add_le_add_left ?_ _⟩
  by_contra hFewer
  have hLess : fewer < cursor.ahead.length := Nat.lt_of_lt_of_le (Nat.lt_of_not_le hFewer) h
  obtain ⟨hAhead, -⟩ := forward_count (Nat.le_of_lt hLess)
  rw [List.drop_eq_getElem_cons hLess] at hAhead
  obtain ⟨-, -, -, hKind⟩ := drop_forward _ hAhead
  rw [current_eq, hAhead] at hEnd
  exact hKind hEnd

end

end Cursor

namespace Walk

variable {α β : Type}

def Ends (walk : Walk α) (cursor : Cursor) : Prop :=
  ∃ result, walk.go cursor = some result

/-- Within some depth the walk comes to what the reader finds among the tokens ahead, and more depth changes
nothing of what it comes to. -/
structure Computes (walk : Nat → Walk α) (reader : Reader α) : Prop where
  follows : ∀ stop tokens, Follows walk stop tokens (reader stop tokens)
  deeper : ∀ depth, (walk depth).Within (walk (depth + 1))

/-- Besides, nothing is found without a token. -/
structure Consumes (walk : Nat → Walk α) (reader : Reader α) : Prop extends Computes walk reader where
  shortens : ∀ {stop tokens value rest}, reader stop tokens = .ok (value, rest) → rest.length < tokens.length

section

variable {walk : Nat → Walk α} {reader : Reader α} {cursor there : Cursor}

/-- What a walk comes to at any depth agrees with the reader, since enough depth would not have
changed it. -/
theorem Computes.lands (h : Computes walk reader) {depth : Nat} {result : Except ParseError α × Cursor}
    (hGo : (walk depth).go cursor = some result) :
    Lands cursor (some result) (reader cursor.stop cursor.ahead) := by
  obtain ⟨sufficient, hLands⟩ := h.follows cursor.stop cursor.ahead
  have hDeep := within_of_le h.deeper (Nat.le_max_left depth sufficient) cursor result hGo
  rw [← hDeep]
  exact hLands _ (Nat.le_max_right _ _) cursor rfl rfl

/-- Progress in the two ways it is needed: as a place, and as tokens left for what comes next. -/
theorem Consumes.lands_ok (h : Consumes walk reader) (depth : Nat) {value : α}
    (hGo : (walk depth).go cursor = some (.ok value, there)) :
    cursor.place < there.place ∧ there.ahead.length < cursor.ahead.length := by
  have hLands := h.lands hGo
  generalize hFound : reader cursor.stop cursor.ahead = found at hLands
  cases hLands with
  | @found _ count hCount =>
      have hShorter := h.shortens hFound
      rw [(Cursor.forward_count hCount).1]
      refine ⟨?_, hShorter⟩
      rw [List.length_drop] at hShorter
      have hPositive : 0 < count := by omega
      exact Nat.lt_add_of_pos_right hPositive

/-- A walk that does not depend on the depth is always done. -/
theorem Computes.ends {walk : Walk α} (h : Computes (fun _ => walk) reader) (cursor : Cursor) :
    walk.Ends cursor := by
  obtain ⟨sufficient, hLands⟩ := h.follows cursor.stop cursor.ahead
  obtain ⟨count, -, hGo⟩ := (hLands sufficient (Nat.le_refl _) cursor rfl rfl).exists_count
  exact ⟨_, hGo⟩

end

namespace Ends

variable {cursor : Cursor}

/-- The second part need only be done at places that the first part can come to. -/
theorem bind {walk : Walk α} {further : α → Walk β} (hFirst : walk.Ends cursor)
    (hNext : ∀ value there, walk.go cursor = some (.ok value, there) → (further value).Ends there) :
    (walk >>= further).Ends cursor := by
  obtain ⟨⟨outcome, there⟩, hGo⟩ := hFirst
  rw [Ends, go_bind, hGo]
  cases outcome with
  | error error => exact ⟨_, rfl⟩
  | ok value => exact hNext value there hGo

theorem map {walk : Walk α} (h : walk.Ends cursor) (f : α → β) :
    (walk >>= fun value => pure (f value)).Ends cursor :=
  h.bind (fun _ _ _ => ⟨_, rfl⟩)

section

variable {further : Token Name → Walk β}

theorem current (h : (further cursor.current).Ends cursor) : (Walk.current >>= further).Ends cursor :=
  h

theorem next (h : (further cursor.next).Ends cursor) : (Walk.next >>= further).Ends cursor :=
  h

/-- Taking a token leaves fewer ahead, and this is all that is known of the place after it. -/
theorem take {token : Token Name} (hToken : cursor.current = token) (hKind : token.kind ≠ .endOfFile)
    (hNext : ∀ there : Cursor, there.ahead.length < cursor.ahead.length → (further token).Ends there) :
    (Walk.take >>= further).Ends cursor := by
  subst hToken
  exact hNext cursor.advance (Cursor.length_advance hKind)

/-- Whatever the token is. -/
theorem advance
    (hNext : ∀ there : Cursor, there.ahead.length ≤ cursor.ahead.length →
      (further cursor.current).Ends there) :
    (Walk.take >>= further).Ends cursor :=
  hNext cursor.advance cursor.length_advance_le

end

/-- Whether or not the token is there, the rest of the walk has to be done; if it was there, with
fewer tokens ahead. -/
theorem takes {further : Bool → Walk β} {kind : TokenKind Name} (hKind : kind ≠ .endOfFile)
    (hNone : (further false).Ends cursor)
    (hSome : ∀ there : Cursor, there.ahead.length < cursor.ahead.length → (further true).Ends there) :
    (Walk.takes kind >>= further).Ends cursor := by
  have hGo : (Walk.takes kind).go cursor =
      Walk.go (if cursor.current.kind = kind then Walk.take >>= fun _ => pure true else pure false) cursor := rfl
  by_cases hSame : cursor.current.kind = kind
  · rw [Ends, go_bind, hGo, if_pos hSame]
    exact hSome cursor.advance (Cursor.length_advance (hSame ▸ hKind))
  · rw [Ends, go_bind, hGo, if_neg hSame]
    exact hNone

end Ends

/-- Where the first walk finds something, there are fewer tokens ahead. -/
theorem Consumes.ends_bind {walk : Nat → Walk α} {reader : Reader α} (h : Consumes walk reader)
    {depth : Nat} {cursor : Cursor} (hFirst : (walk depth).Ends cursor) {further : α → Walk β}
    (hNext : ∀ value (there : Cursor), there.ahead.length < cursor.ahead.length →
      (further value).Ends there) :
    (walk depth >>= further).Ends cursor :=
  hFirst.bind (fun value there hGo => hNext value there (h.lands_ok depth hGo).2)

/-- The same for a walk that does not depend on the depth. -/
theorem Consumes.ends_andThen {walk : Walk α} {reader : Reader α} (h : Consumes (fun _ => walk) reader)
    {cursor : Cursor} {further : α → Walk β}
    (hNext : ∀ value (there : Cursor), there.ahead.length < cursor.ahead.length →
      (further value).Ends there) :
    (walk >>= further).Ends cursor :=
  (h.ends cursor).bind (fun value there hGo => hNext value there (h.lands_ok 0 hGo).2)

section

variable (opened : Span)

theorem consumes_delimiter (expected : Delimiter) :
    Consumes (fun _ => delimiter expected) (Reader.delimiter expected) :=
  ⟨⟨fun stop tokens => follows_delimiter stop tokens expected, fun _ => .refl _⟩, lt_of_outcome⟩

theorem consumes_closing (closer opener : Delimiter) :
    Consumes (fun _ => closing closer opener opened) (Reader.closing closer opener opened) :=
  ⟨⟨fun stop tokens => follows_closing stop tokens closer opener opened, fun _ => .refl _⟩, lt_of_outcome⟩

theorem consumes_identifier (role : IdentifierRole) :
    Consumes (fun _ => identifier role) (Reader.identifier role) :=
  ⟨⟨fun stop tokens => follows_identifier stop tokens role, fun _ => .refl _⟩, lt_of_outcome⟩

/-- Every level reads a primary first, and a primary is never empty. -/
theorem consumes_operand (level : Nat) : Consumes (operand · level) (Reader.operand level) :=
  ⟨⟨follows_operand level, fun depth => operand_deeper depth level⟩, lt_of_outcome⟩

/-- Where no operator of the level stands, no token is taken. -/
theorem computes_operations (level : Nat) (left : Expr) :
    Computes (operations · level left) (Reader.operations level left) :=
  ⟨follows_operations level left, fun depth => operations_deeper depth level left⟩

theorem consumes_primary : Consumes primary Reader.primary :=
  ⟨⟨follows_primary, primary_deeper⟩, lt_of_outcome⟩

/-- An empty list still takes its parenthesis. -/
theorem consumes_arguments : Consumes (arguments · opened) (Reader.arguments opened) :=
  ⟨⟨follows_arguments opened, fun depth => arguments_deeper depth opened⟩, lt_of_outcome⟩

theorem consumes_furtherArguments : Consumes (furtherArguments · opened) (Reader.furtherArguments opened) :=
  ⟨⟨follows_furtherArguments opened, fun depth => furtherArguments_deeper depth opened⟩, lt_of_outcome⟩

theorem consumes_expression : Consumes expression Reader.expression :=
  consumes_operand BinaryOp.loosest

theorem consumes_condition : Consumes condition Reader.condition :=
  ⟨⟨follows_condition, condition_deeper⟩, lt_of_outcome⟩

theorem consumes_furtherParameters :
    Consumes (furtherParameters · opened) (Reader.furtherParameters opened) :=
  ⟨⟨follows_furtherParameters opened, fun depth => furtherParameters_deeper depth opened⟩, lt_of_outcome⟩

theorem consumes_parameters : Consumes (parameters · opened) (Reader.parameters opened) :=
  ⟨⟨fun stop tokens => follows_parameters stop tokens opened, fun depth => parameters_deeper depth opened⟩,
    lt_of_outcome⟩

theorem consumes_statement : Consumes statement Reader.statement :=
  ⟨⟨follows_statement, statement_deeper⟩, lt_of_outcome⟩

theorem consumes_block : Consumes block Reader.block :=
  ⟨⟨follows_block, block_deeper⟩, lt_of_outcome⟩

/-- The brace at the end is taken, even if there is no statement. -/
theorem consumes_statements : Consumes (statements · opened) (Reader.statements opened) :=
  ⟨⟨follows_statements opened, fun depth => statements_deeper depth opened⟩, lt_of_outcome⟩

/-- A program may have no token at all. -/
theorem computes_program : Computes program Reader.program :=
  ⟨follows_program, program_deeper⟩

end

theorem ends_closing (closer opener : Delimiter) (opened : Span) (cursor : Cursor) :
    (closing closer opener opened).Ends cursor :=
  (consumes_closing opened closer opener).ends cursor

/-- After the first element of a list in parentheses. -/
theorem ends_separated {loop : Walk (List α)} {cursor : Cursor} (opened : Span) (first : α)
    (hLoop : ∀ there : Cursor, there.ahead.length < cursor.ahead.length → loop.Ends there) :
    Ends
      (do
        let more ← takes (.delimiter .comma)
        if more then
          let others ← loop
          return first :: others
        else
          let _ ← closing .closeParen .openParen opened
          return [first]) cursor :=
  .takes nofun ((ends_closing .closeParen .openParen opened cursor).map _)
    fun there hThere => (hLoop there hThere).map _

/-- A statement, and then the others. -/
theorem ends_cons {loop : Walk Block} {depth : Nat} {cursor : Cursor} (hFirst : (statement depth).Ends cursor)
    (hLoop : ∀ there : Cursor, there.ahead.length < cursor.ahead.length → loop.Ends there) :
    (statement depth >>= fun first => loop >>= fun others => pure (first :: others)).Ends cursor :=
  consumes_statement.ends_bind hFirst fun _ there hThere => (hLoop there hThere).map _

/-- No more calls than these are made one inside of the other while no token is taken: for statements, a
statement, the same without its semicolon, an operand of each level down to 0, and a primary. -/
def callsPerToken : Nat :=
  BinaryOp.loosest + 5

/-- The depth is enough for so many calls before the next token is taken, and for all that come after it. -/
def Suffices (depth calls : Nat) (cursor : Cursor) : Prop :=
  callsPerToken * cursor.ahead.length + calls ≤ depth

namespace Suffices

variable {depth calls more : Nat} {cursor there : Cursor}

/-- Some call always remains to be made, so that the depth cannot be used up. -/
theorem not_zero (h : Suffices 0 (calls + 1) cursor) : False :=
  absurd h (Nat.not_succ_le_zero _)

/-- A call inside of another uses one of the depth and one of the calls that were counted. -/
theorem call (h : Suffices (depth + 1) (calls + 1) cursor) : Suffices depth calls cursor :=
  Nat.le_of_succ_le_succ h

/-- With a token less ahead, all calls may be made anew. -/
theorem taken (h : Suffices depth calls cursor) (hThere : there.ahead.length < cursor.ahead.length)
    (hMore : more ≤ callsPerToken) : Suffices depth more there :=
  calc callsPerToken * there.ahead.length + more
    _ ≤ callsPerToken * (there.ahead.length + 1) := Nat.add_le_add_left hMore _
    _ ≤ callsPerToken * cursor.ahead.length := Nat.mul_le_mul_left _ hThere
    _ ≤ depth := Nat.le_of_add_right_le h

end Suffices

/-- An operator that is found is of one of the levels there are, so the level of its right operand
is counted too. -/
theorem level_of_operator {kind : TokenKind Name} {level : Nat} {op : BinaryOp}
    (h : kind.operator?.filter (fun op => op.precedence = level + 1) = some op) :
    kind ≠ .endOfFile ∧ level < BinaryOp.loosest := by
  obtain ⟨hOperator, hLevel⟩ := Option.filter_eq_some_iff.mp h
  have hLoosest : op.precedence ≤ BinaryOp.loosest := by cases op <;> decide
  rw [of_decide_eq_true hLevel] at hLoosest
  refine ⟨?_, hLoosest⟩
  rintro rfl
  cases hOperator

-- The recursion is on the depth. A call at the same place uses one of the calls that are left, and a call
-- further on has all of them, for a token was taken on the way: that is where the walks before it are known to
-- consume one.
mutual

/-- One call for each level down to 0, and one for the primary. -/
theorem operand_ends {depth level : Nat} {cursor : Cursor} (h : Suffices depth (level + 2) cursor) :
    (operand depth level).Ends cursor := by
  match depth, level with
  | 0, _ => exact h.not_zero.elim
  | depth + 1, 0 => exact primary_ends h.call
  | depth + 1, level + 1 =>
      exact (consumes_operand level).ends_bind (operand_ends h.call) fun left there hThere =>
        operations_ends (h.call.taken hThere (by decide))

/-- An operator has been taken before the operand is read, and that pays for all its calls. -/
theorem operations_ends {depth level : Nat} {left : Expr} {cursor : Cursor} (h : Suffices depth 1 cursor) :
    (operations depth level left).Ends cursor := by
  match depth with
  | 0 => exact h.not_zero.elim
  | depth + 1 =>
      refine .current ?_
      split
      next op hOp =>
        obtain ⟨hKind, hLevel⟩ := level_of_operator hOp
        refine .take rfl hKind fun there hThere => ?_
        have hRight : (operand depth level).Ends there :=
          operand_ends (h.call.taken hThere (Nat.add_le_add (Nat.le_of_lt hLevel) (by decide)))
        exact (consumes_operand level).ends_bind hRight fun right last hLast =>
          operations_ends (h.call.taken (Nat.lt_trans hLast hThere) (by decide))
      next => exact ⟨_, rfl⟩

/-- The parenthesis of a group or of a call has been taken before anything else is read. -/
theorem primary_ends {depth : Nat} {cursor : Cursor} (h : Suffices depth 1 cursor) :
    (primary depth).Ends cursor := by
  match depth with
  | 0 => exact h.not_zero.elim
  | depth + 1 =>
      refine .current ?_
      generalize hToken : cursor.current = token
      obtain ⟨kind, span⟩ := token
      cases kind with
      | integer value => exact .take hToken nofun fun _ _ => ⟨_, rfl⟩
      | identifier name =>
          refine .take hToken nofun fun there hThere => .current ?_
          split
          next =>
            refine (consumes_delimiter .openParen).ends_andThen fun opened last hLast => ?_
            exact (arguments_ends (h.call.taken (Nat.lt_trans hLast hThere) (by decide))).map _
          next => exact ⟨_, rfl⟩
      | delimiter delimiter =>
          cases delimiter with
          | openParen =>
              refine .take hToken nofun fun there hThere => ?_
              have hInner : (operand depth BinaryOp.loosest).Ends there :=
                operand_ends (h.call.taken hThere (by decide))
              exact hInner.bind fun _ last _ => (ends_closing .closeParen .openParen span last).map _
          | closeParen | openBrace | closeBrace | comma | semicolon | assign => exact ⟨_, rfl⟩
      | keyword | operator | endOfFile => exact ⟨_, rfl⟩

theorem arguments_ends {depth : Nat} {opened : Span} {cursor : Cursor}
    (h : Suffices depth (BinaryOp.loosest + 4) cursor) : (arguments depth opened).Ends cursor := by
  match depth with
  | 0 => exact h.not_zero.elim
  | depth + 1 =>
      refine .current ?_
      split
      next => exact (ends_closing .closeParen .openParen opened cursor).map _
      next => exact furtherArguments_ends h.call

theorem furtherArguments_ends {depth : Nat} {opened : Span} {cursor : Cursor}
    (h : Suffices depth (BinaryOp.loosest + 3) cursor) : (furtherArguments depth opened).Ends cursor := by
  match depth with
  | 0 => exact h.not_zero.elim
  | depth + 1 =>
      refine consumes_expression.ends_bind (operand_ends h.call) fun first there hThere => ?_
      exact ends_separated opened first fun last hLast =>
        furtherArguments_ends (h.call.taken (Nat.lt_trans hLast hThere) (by decide))

end

theorem expression_ends {depth : Nat} {cursor : Cursor} (h : Suffices depth (BinaryOp.loosest + 2) cursor) :
    (expression depth).Ends cursor :=
  operand_ends h

theorem condition_ends {depth : Nat} {cursor : Cursor} (h : Suffices depth 1 cursor) :
    (condition depth).Ends cursor := by
  refine (consumes_delimiter .openParen).ends_andThen fun opened there hThere => ?_
  have hValue : (expression depth).Ends there := expression_ends (h.taken hThere (by decide))
  exact hValue.bind fun _ last _ => (ends_closing .closeParen .openParen opened last).map _

theorem furtherParameters_ends {depth : Nat} {opened : Span} {cursor : Cursor} (h : Suffices depth 1 cursor) :
    (furtherParameters depth opened).Ends cursor := by
  match depth with
  | 0 => exact h.not_zero.elim
  | depth + 1 =>
      refine (consumes_identifier .parameterName).ends_andThen fun first there hThere => ?_
      exact ends_separated opened first fun last hLast =>
        furtherParameters_ends (h.call.taken (Nat.lt_trans hLast hThere) (by decide))

theorem parameters_ends {depth : Nat} {opened : Span} {cursor : Cursor} (h : Suffices depth 1 cursor) :
    (parameters depth opened).Ends cursor := by
  refine .current ?_
  split
  next => exact (ends_closing .closeParen .openParen opened cursor).map _
  next => exact furtherParameters_ends h

mutual

theorem statement_ends {depth : Nat} {cursor : Cursor} (h : Suffices depth (BinaryOp.loosest + 4) cursor) :
    (statement depth).Ends cursor := by
  match depth with
  | 0 => exact h.not_zero.elim
  | depth + 1 =>
      refine (bareStatement_ends h.call).bind fun stmt there _ => ?_
      exact .takes nofun ⟨_, rfl⟩ fun _ _ => ⟨_, rfl⟩

theorem bareStatement_ends {depth : Nat} {cursor : Cursor}
    (h : Suffices depth (BinaryOp.loosest + 3) cursor) : (bareStatement depth).Ends cursor := by
  match depth with
  | 0 => exact h.not_zero.elim
  | depth + 1 =>
      have hEvaluate : (expression depth >>= fun value => pure (Stmt.evaluate value)).Ends cursor :=
        (expression_ends h.call).map _
      refine .current ?_
      generalize hToken : cursor.current = token
      obtain ⟨kind, span⟩ := token
      cases kind with
      | keyword keyword =>
          cases keyword with
          | function =>
              refine .take hToken nofun fun first hFirst => ?_
              refine (consumes_identifier .functionName).ends_andThen fun name second hSecond => ?_
              refine (consumes_delimiter .openParen).ends_andThen fun opened third hThird => ?_
              have hLess := Nat.lt_trans hThird (Nat.lt_trans hSecond hFirst)
              have hNames : (parameters depth opened).Ends third :=
                parameters_ends (h.call.taken hLess (by decide))
              refine (consumes_parameters opened).ends_bind hNames fun names last hLast => ?_
              exact (block_ends (h.call.taken (Nat.lt_trans hLast hLess) (by decide))).map _
          | declare =>
              refine .take hToken nofun fun first hFirst => ?_
              refine (consumes_identifier .variableName).ends_andThen fun name second hSecond => ?_
              refine (consumes_delimiter .assign).ends_andThen fun _ last hLast => ?_
              have hLess := Nat.lt_trans hLast (Nat.lt_trans hSecond hFirst)
              exact (expression_ends (h.call.taken hLess (by decide))).map _
          | loop =>
              refine .take hToken nofun fun first hFirst => ?_
              have hTest : (condition depth).Ends first := condition_ends (h.call.taken hFirst (by decide))
              refine consumes_condition.ends_bind hTest fun test last hLast => ?_
              exact (block_ends (h.call.taken (Nat.lt_trans hLast hFirst) (by decide))).map _
          | branch =>
              refine .take hToken nofun fun first hFirst => ?_
              have hTest : (condition depth).Ends first := condition_ends (h.call.taken hFirst (by decide))
              refine consumes_condition.ends_bind hTest fun test second hSecond => ?_
              have hLess := Nat.lt_trans hSecond hFirst
              have hPositive : (block depth).Ends second := block_ends (h.call.taken hLess (by decide))
              refine consumes_block.ends_bind hPositive fun positive third hThird => ?_
              refine .takes nofun ⟨_, rfl⟩ fun last hLast => ?_
              have hLeast := Nat.lt_trans hLast (Nat.lt_trans hThird hLess)
              exact (block_ends (h.call.taken hLeast (by decide))).map _
          | yield =>
              refine .take hToken nofun fun first hFirst => ?_
              exact (expression_ends (h.call.taken hFirst (by decide))).map _
          | otherwise => exact hEvaluate
      | identifier name =>
          refine .next ?_
          split
          next =>
            refine .take hToken nofun fun first hFirst => .advance fun last hLast => ?_
            exact (expression_ends (h.call.taken (Nat.lt_of_le_of_lt hLast hFirst) (by decide))).map _
          next => exact hEvaluate
      | delimiter | operator | integer | endOfFile => exact hEvaluate

theorem block_ends {depth : Nat} {cursor : Cursor} (h : Suffices depth 1 cursor) :
    (block depth).Ends cursor := by
  match depth with
  | 0 => exact h.not_zero.elim
  | depth + 1 =>
      exact (consumes_delimiter .openBrace).ends_andThen fun opened there hThere =>
        statements_ends (h.call.taken hThere (by decide))

/-- This is the chain that `callsPerToken` counts. -/
theorem statements_ends {depth : Nat} {opened : Span} {cursor : Cursor}
    (h : Suffices depth callsPerToken cursor) : (statements depth opened).Ends cursor := by
  match depth with
  | 0 => exact h.not_zero.elim
  | depth + 1 =>
      have hLoop (there : Cursor) (hThere : there.ahead.length < cursor.ahead.length) :
          (statements depth opened).Ends there :=
        statements_ends (h.call.taken hThere (Nat.le_refl _))
      have hStatement := ends_cons (statement_ends h.call) hLoop
      refine .current ?_
      generalize hToken : cursor.current = token
      obtain ⟨kind, span⟩ := token
      cases kind with
      | delimiter delimiter =>
          cases delimiter with
          | closeBrace => exact .take hToken nofun fun _ _ => ⟨_, rfl⟩
          | semicolon => exact .take hToken nofun hLoop
          | openParen | closeParen | openBrace | comma | assign => exact hStatement
      | endOfFile => exact ⟨_, rfl⟩
      | keyword | operator | integer | identifier => exact hStatement

end

/-- A program goes round for every statement, each time with fewer tokens ahead. -/
theorem program_ends {depth : Nat} {cursor : Cursor} (h : Suffices depth callsPerToken cursor) :
    (program depth).Ends cursor := by
  match depth with
  | 0 => exact h.not_zero.elim
  | depth + 1 =>
      have hLoop (there : Cursor) (hThere : there.ahead.length < cursor.ahead.length) :
          (program depth).Ends there :=
        program_ends (h.call.taken hThere (Nat.le_refl _))
      have hStatement := ends_cons (statement_ends h.call) hLoop
      refine .current ?_
      generalize hToken : cursor.current = token
      obtain ⟨kind, span⟩ := token
      cases kind with
      | delimiter delimiter =>
          cases delimiter with
          | semicolon => exact .take hToken nofun hLoop
          | openParen | closeParen | openBrace | closeBrace | comma | assign => exact hStatement
      | endOfFile => exact ⟨_, rfl⟩
      | keyword | operator | integer | identifier => exact hStatement

def enough (cursor : Cursor) : Nat :=
  callsPerToken * (cursor.ahead.length + 1)

/-- The depth grows with the tokens ahead, and anything in addition does no harm. -/
theorem suffices_enough (cursor : Cursor) {calls further : Nat} (h : calls ≤ callsPerToken + further) :
    Suffices (enough cursor + further) calls cursor := by
  rw [Suffices, enough, Nat.mul_succ, Nat.add_assoc]
  exact Nat.add_le_add_left h _

/-- Whatever the depth, a walk that is done has gone onward and has come to what the reader finds among the
tokens ahead. It is done within the given depth, and has the same result within any larger one. -/
structure Progresses (walk : Nat → Walk α) (reader : Reader α) (given : Nat) (cursor : Cursor) : Prop where
  onward : ∀ {depth outcome there}, (walk depth).go cursor = some (outcome, there) →
    cursor.Onward there ∧ outcome = (reader cursor.stop cursor.ahead).map Prod.fst
  ends : ∃ result, ∀ depth, given ≤ depth → (walk depth).go cursor = some result

/-- Besides, a walk that has found something is past the place that it began at. -/
structure Advances (walk : Nat → Walk α) (reader : Reader α) (given : Nat) (cursor : Cursor) : Prop
    extends Progresses walk reader given cursor where
  strict : ∀ {depth value there}, (walk depth).go cursor = some (.ok value, there) →
    cursor.place < there.place

section

variable {walk : Nat → Walk α} {reader : Reader α} {given : Nat} {cursor : Cursor}

/-- Once the walk is done somewhere, all the rest is known from what it computes. -/
theorem Computes.progresses (h : Computes walk reader) (hEnds : (walk given).Ends cursor) :
    Progresses walk reader given cursor where
  onward := by
    intro depth outcome there hGo
    obtain ⟨count, hCount, hResult⟩ := (h.lands hGo).exists_count
    obtain ⟨rfl, rfl⟩ := Prod.mk.inj (Option.some.inj hResult)
    exact ⟨Cursor.onward_forward hCount, rfl⟩
  ends := by
    obtain ⟨result, hResult⟩ := hEnds
    exact ⟨result, fun depth hDepth => within_of_le h.deeper hDepth cursor result hResult⟩

theorem Consumes.advances (h : Consumes walk reader) (hEnds : (walk given).Ends cursor) :
    Advances walk reader given cursor where
  toProgresses := h.progresses hEnds
  strict := fun hGo => (h.lands_ok _ hGo).1

end

/-- From every place in every list of tokens, walks go onward and end: they stay before the tokens for the end,
also where they fail, and those for statements, expressions, operands of any level and primaries go past a token
when they find something, as do those for what stands between brackets. The walks through further statements,
parameters, arguments and operators are the loops, and all of them are done within a depth that is given by the
number of tokens ahead. -/
theorem walks_advance (cursor : Cursor) :
    (Advances statement Reader.statement (enough cursor) cursor ∧
      Advances expression Reader.expression (enough cursor) cursor ∧
      (∀ level, Advances (operand · level) (Reader.operand level) (enough cursor + level) cursor) ∧
      Advances primary Reader.primary (enough cursor) cursor) ∧
    (Advances condition Reader.condition (enough cursor) cursor ∧
      Advances block Reader.block (enough cursor) cursor ∧
      ∀ opened,
        Advances (statements · opened) (Reader.statements opened) (enough cursor) cursor ∧
        Advances (parameters · opened) (Reader.parameters opened) (enough cursor) cursor ∧
        Advances (furtherParameters · opened) (Reader.furtherParameters opened) (enough cursor) cursor ∧
        Advances (arguments · opened) (Reader.arguments opened) (enough cursor) cursor ∧
        Advances (furtherArguments · opened) (Reader.furtherArguments opened) (enough cursor) cursor) ∧
    Progresses program Reader.program (enough cursor) cursor ∧
    ∀ level left,
      Progresses (operations · level left) (Reader.operations level left) (enough cursor) cursor := by
  have hEnough {calls : Nat} (h : calls ≤ callsPerToken) : Suffices (enough cursor) calls cursor :=
    @suffices_enough cursor calls 0 h
  refine ⟨⟨?_, ?_, fun level => ?_, ?_⟩, ⟨?_, ?_, fun opened => ⟨?_, ?_, ?_, ?_, ?_⟩⟩, ?_,
    fun level left => ?_⟩
  · exact consumes_statement.advances (statement_ends (hEnough (by decide)))
  · exact consumes_expression.advances (expression_ends (hEnough (by decide)))
  · have hLevel : level + 2 ≤ callsPerToken + level := by
      rw [Nat.add_comm level]
      exact Nat.add_le_add_right (by decide) level
    exact (consumes_operand level).advances (operand_ends (suffices_enough cursor hLevel))
  · exact consumes_primary.advances (primary_ends (hEnough (by decide)))
  · exact consumes_condition.advances (condition_ends (hEnough (by decide)))
  · exact consumes_block.advances (block_ends (hEnough (by decide)))
  · exact (consumes_statements opened).advances (statements_ends (hEnough (by decide)))
  · exact (consumes_parameters opened).advances (parameters_ends (hEnough (by decide)))
  · exact (consumes_furtherParameters opened).advances (furtherParameters_ends (hEnough (by decide)))
  · exact (consumes_arguments opened).advances (arguments_ends (hEnough (by decide)))
  · exact (consumes_furtherArguments opened).advances (furtherArguments_ends (hEnough (by decide)))
  · exact computes_program.progresses (program_ends (hEnough (by decide)))
  · exact (computes_operations level left).progresses (operations_ends (hEnough (by decide)))

/-- At the second `x` of `x`, an end, `x = 1;`, another end, and an operator behind it. -/
def betweenEnds : Cursor :=
  let kinds : List (TokenKind Name) :=
    [.identifier ⟨8⟩, .endOfFile, .identifier ⟨8⟩, .delimiter .assign, .integer 1, .delimiter .semicolon,
      .endOfFile, .operator .add]
  ⟨kinds.map (fun kind => ⟨kind, Span.origin⟩), 2⟩

/-- The statement is found, and the walk goes past all of it up to the second end. -/
theorem walks_advance_betweenEnds :
    (statement (enough betweenEnds)).go betweenEnds =
        some (.ok (.assign ⟨8⟩ (.literal 1)), betweenEnds.forward 4) ∧
      betweenEnds.place < (betweenEnds.forward 4).place ∧
      betweenEnds.Onward (betweenEnds.forward 4) := by
  have hGo : (statement (enough betweenEnds)).go betweenEnds =
      some (.ok (.assign ⟨8⟩ (.literal 1)), betweenEnds.forward 4) := rfl
  have hStatement := (walks_advance betweenEnds).1.1
  exact ⟨hGo, hStatement.strict hGo, (hStatement.onward hGo).1⟩

end Walk

end IntScript
