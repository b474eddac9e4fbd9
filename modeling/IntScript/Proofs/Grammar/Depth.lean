import IntScript.Proofs.Grammar.Cursor

/-! The depth of calls that a walk may use. A walk that is done within some depth is done within any larger one,
with the same outcome at the same place: more depth lets more walks come to their ends and changes nothing of
what they come to. -/
namespace IntScript

namespace Walk

variable {α β : Type}

/-- What the one walk comes to, the other one comes to as well. -/
def Within (walk other : Walk α) : Prop :=
  ∀ cursor result, walk.go cursor = some result → other.go cursor = some result

namespace Within

theorem refl (walk : Walk α) : walk.Within walk :=
  fun _ _ h => h

theorem trans {first second third : Walk α} (h : first.Within second) (hNext : second.Within third) :
    first.Within third :=
  fun cursor result hGo => hNext cursor result (h cursor result hGo)

/-- A walk that is not done is improved by any other. -/
theorem exhausted (walk : Walk α) : Walk.exhausted.Within walk := by
  intro cursor result hGo
  have hNone : (Walk.exhausted : Walk α).go cursor = none := rfl
  rw [hNone] at hGo
  cases hGo

/-- Both parts of a walk may be deepened at once. A first part that is not done decides nothing, and
that is why only results are compared. -/
theorem bind {walk other : Walk α} {further onward : α → Walk β} (h : walk.Within other)
    (hNext : ∀ value, (further value).Within (onward value)) :
    (walk >>= further).Within (other >>= onward) := by
  intro cursor result hGo
  rw [go_bind] at hGo ⊢
  cases hFirst : walk.go cursor with
  | none =>
      rw [hFirst] at hGo
      cases hGo
  | some found =>
      rw [hFirst] at hGo
      rw [h cursor found hFirst]
      obtain ⟨outcome, there⟩ := found
      cases outcome with
      | error error => exact hGo
      | ok value => exact hNext value there result hGo

theorem after (walk : Walk α) {further onward : α → Walk β}
    (h : ∀ value, (further value).Within (onward value)) :
    (walk >>= further).Within (walk >>= onward) :=
  (refl walk).bind h

theorem before {walk other : Walk α} (h : walk.Within other) (further : α → Walk β) :
    (walk >>= further).Within (other >>= further) :=
  h.bind (fun value => refl (further value))

/-- This is how every loop of the walk is put together: one element, then the others, at the same
depth. -/
theorem cons {walk other : Walk α} {loop longer : Walk (List α)} (h : walk.Within other)
    (hLoop : loop.Within longer) :
    (walk >>= fun first => loop >>= fun others => pure (first :: others)).Within
      (other >>= fun first => longer >>= fun others => pure (first :: others)) :=
  h.bind (fun _ => before hLoop _)

/-- After the first element of a list in parentheses. -/
theorem separated {loop longer : Walk (List α)} (h : loop.Within longer) (opened : Span) (first : α) :
    Within
      (do
        let more ← takes (.delimiter .comma)
        if more then
          let others ← loop
          return first :: others
        else
          let _ ← closing .closeParen .openParen opened
          return [first])
      (do
        let more ← takes (.delimiter .comma)
        if more then
          let others ← longer
          return first :: others
        else
          let _ ← closing .closeParen .openParen opened
          return [first]) := by
  refine after _ fun more => ?_
  cases more with
  | false => exact refl _
  | true => exact before h _

end Within

/-- More depth changes nothing of what a walk has come to. -/
theorem within_of_le {walk : Nat → Walk α} (h : ∀ depth, (walk depth).Within (walk (depth + 1)))
    {depth more : Nat} (hMore : depth ≤ more) : (walk depth).Within (walk more) := by
  induction hMore with
  | refl => exact .refl _
  | step _ ih => exact ih.trans (h _)

-- The recursion is on the depth: the calls inside of a walk have one less of it, on both sides.
mutual

theorem operand_deeper (depth level : Nat) : (operand depth level).Within (operand (depth + 1) level) := by
  match depth, level with
  | 0, level => exact .exhausted _
  | depth + 1, 0 => exact primary_deeper depth
  | depth + 1, level + 1 =>
      exact (operand_deeper depth level).bind (fun left => operations_deeper depth level left)

theorem operations_deeper (depth level : Nat) (left : Expr) :
    (operations depth level left).Within (operations (depth + 1) level left) := by
  match depth with
  | 0 => exact .exhausted _
  | depth + 1 =>
      refine .after current fun token => ?_
      cases token.kind.operator?.filter (fun op => op.precedence = level + 1) with
      | none => exact .refl _
      | some op =>
          exact .after take fun _ => (operand_deeper depth level).bind
            (fun right => operations_deeper depth level (.binary op left right))

theorem primary_deeper (depth : Nat) : (primary depth).Within (primary (depth + 1)) := by
  match depth with
  | 0 => exact .exhausted _
  | depth + 1 =>
      refine .after current fun token => ?_
      obtain ⟨kind, span⟩ := token
      cases kind with
      | identifier name =>
          refine .after take fun _ => .after current fun behind => ?_
          split
          next => exact .after _ fun opened => .before (arguments_deeper depth opened) _
          next => exact .refl _
      | delimiter delimiter =>
          cases delimiter with
          | openParen => exact .after take fun opening => .before (operand_deeper depth BinaryOp.loosest) _
          | closeParen | openBrace | closeBrace | comma | semicolon | assign => exact .refl _
      | keyword | operator | integer | endOfFile => exact .refl _

theorem arguments_deeper (depth : Nat) (opened : Span) :
    (arguments depth opened).Within (arguments (depth + 1) opened) := by
  match depth with
  | 0 => exact .exhausted _
  | depth + 1 =>
      refine .after current fun token => ?_
      split
      next => exact .refl _
      next => exact furtherArguments_deeper depth opened

theorem furtherArguments_deeper (depth : Nat) (opened : Span) :
    (furtherArguments depth opened).Within (furtherArguments (depth + 1) opened) := by
  match depth with
  | 0 => exact .exhausted _
  | depth + 1 =>
      exact (operand_deeper depth BinaryOp.loosest).bind fun first =>
        .separated (furtherArguments_deeper depth opened) opened first

end

theorem expression_deeper (depth : Nat) : (expression depth).Within (expression (depth + 1)) :=
  operand_deeper depth BinaryOp.loosest

theorem condition_deeper (depth : Nat) : (condition depth).Within (condition (depth + 1)) :=
  .after _ fun _ => .before (expression_deeper depth) _

theorem furtherParameters_deeper (depth : Nat) (opened : Span) :
    (furtherParameters depth opened).Within (furtherParameters (depth + 1) opened) := by
  match depth with
  | 0 => exact .exhausted _
  | depth + 1 =>
      exact .after _ fun first => .separated (furtherParameters_deeper depth opened) opened first

theorem parameters_deeper (depth : Nat) (opened : Span) :
    (parameters depth opened).Within (parameters (depth + 1) opened) := by
  refine .after current fun token => ?_
  split
  next => exact .refl _
  next => exact furtherParameters_deeper depth opened

mutual

theorem statement_deeper (depth : Nat) : (statement depth).Within (statement (depth + 1)) := by
  match depth with
  | 0 => exact .exhausted _
  | depth + 1 => exact .before (bareStatement_deeper depth) _

theorem bareStatement_deeper (depth : Nat) : (bareStatement depth).Within (bareStatement (depth + 1)) := by
  match depth with
  | 0 => exact .exhausted _
  | depth + 1 =>
      refine .after current fun token => ?_
      obtain ⟨kind, span⟩ := token
      cases kind with
      | keyword keyword =>
          cases keyword with
          | function =>
              exact .after take fun _ => .after _ fun name => .after _ fun opened =>
                (parameters_deeper depth opened).bind fun names => .before (block_deeper depth) _
          | declare =>
              exact .after take fun _ => .after _ fun name => .after _ fun _ =>
                .before (expression_deeper depth) _
          | loop =>
              exact .after take fun _ => (condition_deeper depth).bind fun test =>
                .before (block_deeper depth) _
          | branch =>
              refine .after take fun _ => (condition_deeper depth).bind fun test =>
                (block_deeper depth).bind fun positive => .after _ fun more => ?_
              cases more with
              | false => exact .refl _
              | true => exact .before (block_deeper depth) _
          | yield => exact .after take fun _ => .before (expression_deeper depth) _
          | otherwise => exact .before (expression_deeper depth) _
      | identifier name =>
          refine .after next fun behind => ?_
          split
          next => exact .after take fun _ => .after take fun _ => .before (expression_deeper depth) _
          next => exact .before (expression_deeper depth) _
      | delimiter | operator | integer | endOfFile => exact .before (expression_deeper depth) _

theorem block_deeper (depth : Nat) : (block depth).Within (block (depth + 1)) := by
  match depth with
  | 0 => exact .exhausted _
  | depth + 1 => exact .after _ fun opened => statements_deeper depth opened

theorem statements_deeper (depth : Nat) (opened : Span) :
    (statements depth opened).Within (statements (depth + 1) opened) := by
  match depth with
  | 0 => exact .exhausted _
  | depth + 1 =>
      have hStatement := (statement_deeper depth).cons (statements_deeper depth opened)
      refine .after current fun token => ?_
      obtain ⟨kind, span⟩ := token
      cases kind with
      | delimiter delimiter =>
          cases delimiter with
          | closeBrace => exact .refl _
          | semicolon => exact .after take fun _ => statements_deeper depth opened
          | openParen | closeParen | openBrace | comma | assign => exact hStatement
      | endOfFile => exact .refl _
      | keyword | operator | integer | identifier => exact hStatement

end

theorem program_deeper (depth : Nat) : (program depth).Within (program (depth + 1)) := by
  match depth with
  | 0 => exact .exhausted _
  | depth + 1 =>
      have hStatement := (statement_deeper depth).cons (program_deeper depth)
      refine .after current fun token => ?_
      obtain ⟨kind, span⟩ := token
      cases kind with
      | delimiter delimiter =>
          cases delimiter with
          | semicolon => exact .after take fun _ => program_deeper depth
          | openParen | closeParen | openBrace | closeBrace | comma | assign => exact hStatement
      | endOfFile => exact .refl _
      | keyword | operator | integer | identifier => exact hStatement

end Walk

end IntScript
