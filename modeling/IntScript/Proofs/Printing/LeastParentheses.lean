import IntScript.Proofs.Printing.Division
import IntScript.Proofs.Printing.RoundTrip

/-! The canonical text has the least parentheses that work: a text with parentheses of one's choice is
read as the same expression exactly if all operands that are in parentheses in the canonical text are
among those chosen. That they are enough follows the printer; that none can be left out is read off a
derivation, operator by operator. -/
namespace IntScript

open Grammar

namespace Expr

mutual

/-- Whatever the choice is, the contents of the text are the same. -/
theorem contents_kindsWith (expr : Expr) (chosen : Place → Bool) :
    contents (expr.kindsWith chosen) = contents expr.kinds := by
  match expr with
  | literal _ | reference _ => rfl
  | call callee arguments =>
      simp [kindsWith, kinds, contents_argumentKindsWith arguments]
  | binary op left right =>
      simp [kindsWith, kinds, contents_kindsWith left, contents_kindsWith right]

theorem contents_argumentKindsWith (arguments : List Expr) (chosen : Nat → Place → Bool) :
    contents (argumentKindsWith arguments chosen) = contents (argumentKinds arguments) := by
  match arguments with
  | [] => rfl
  | [argument] => exact contents_kindsWith argument (chosen 0)
  | argument :: next :: further =>
      simp [argumentKindsWith, argumentKinds, contents_kindsWith argument,
        contents_argumentKindsWith (next :: further)]

end

mutual

/-- Parentheses are chosen in pairs. -/
theorem surplus_kindsWith (expr : Expr) (chosen : Place → Bool) :
    surplus (expr.kindsWith chosen) = 0 := by
  match expr with
  | literal _ | reference _ => rfl
  | call callee arguments =>
      simp [kindsWith, weight, surplus_argumentKindsWith arguments]
  | binary op left right =>
      simp [kindsWith, weight, surplus_kindsWith left, surplus_kindsWith right]

theorem surplus_argumentKindsWith (arguments : List Expr) (chosen : Nat → Place → Bool) :
    surplus (argumentKindsWith arguments chosen) = 0 := by
  match arguments with
  | [] => rfl
  | [argument] => exact surplus_kindsWith argument (chosen 0)
  | argument :: next :: further =>
      simp [argumentKindsWith, weight, surplus_kindsWith argument,
        surplus_argumentKindsWith (next :: further)]

end

/-- The choice holds every operand that is in parentheses in the canonical text. -/
def Suffices (expr : Expr) (chosen : Place → Bool) : Prop :=
  ∀ place, expr.parenthesizes place → chosen place

def ArgumentsSuffice (arguments : List Expr) (chosen : Nat → Place → Bool) : Prop :=
  ∀ index place, argumentsParenthesize arguments index place → chosen index place

section

variable {chosen : Place → Bool}

/-- A choice on an operation is made of the choices for its operands and of one for each of them. -/
theorem suffices_binary {op : BinaryOp} {left right : Expr} :
    Suffices (binary op left right) chosen ↔
      (left.needsParentheses op false → chosen .left) ∧
      (right.needsParentheses op true → chosen .right) ∧
      Suffices left (chosen ∘ .inLeft) ∧ Suffices right (chosen ∘ .inRight) := by
  constructor
  · intro h
    refine ⟨fun hNeeds => h .left ?_, fun hNeeds => h .right ?_, fun place hPlace => h (.inLeft place) ?_,
      fun place hPlace => h (.inRight place) ?_⟩ <;> rwa [parenthesizes]
  · rintro ⟨hLeft, hRight, hInLeft, hInRight⟩ place hPlace
    cases place with
    | left => exact hLeft (by rwa [parenthesizes] at hPlace)
    | right => exact hRight (by rwa [parenthesizes] at hPlace)
    | inLeft place => exact hInLeft place (by rwa [parenthesizes] at hPlace)
    | inRight place => exact hInRight place (by rwa [parenthesizes] at hPlace)
    | inArgument index place => simp [parenthesizes] at hPlace

theorem suffices_call {callee : Name} {arguments : List Expr} :
    Suffices (call callee arguments) chosen ↔
      ArgumentsSuffice arguments (fun index => chosen ∘ .inArgument index) := by
  constructor
  · intro h index place hPlace
    exact h (.inArgument index place) (by rwa [parenthesizes])
  · intro h place hPlace
    cases place with
    | inArgument index place => exact h index place (by rwa [parenthesizes] at hPlace)
    | _ => simp [parenthesizes] at hPlace

end

theorem argumentsSuffice_cons {argument : Expr} {others : List Expr} {chosen : Nat → Place → Bool} :
    ArgumentsSuffice (argument :: others) chosen ↔
      Suffices argument (chosen 0) ∧ ArgumentsSuffice others (fun index => chosen (index + 1)) := by
  constructor
  · intro h
    exact ⟨fun place hPlace => h 0 place (by rwa [argumentsParenthesize]),
      fun index place hPlace => h (index + 1) place (by rwa [argumentsParenthesize])⟩
  · rintro ⟨hFirst, hOthers⟩ index place hPlace
    cases index with
    | zero => exact hFirst place (by rwa [argumentsParenthesize] at hPlace)
    | succ index => exact hOthers index place (by rwa [argumentsParenthesize] at hPlace)

theorem argumentsSuffice_nil (chosen : Nat → Place → Bool) : ArgumentsSuffice [] chosen := by
  intro index place hPlace
  simp [argumentsParenthesize] at hPlace

/-- An operand that is not in parentheses needs none, if those are chosen that do. -/
theorem bare_of_unchosen {operand : Expr} {parent : BinaryOp} {isRight wanted : Bool}
    (h : (operand.isBinary && wanted) = false)
    (hNeeds : operand.needsParentheses parent isRight → wanted) :
    operand.needsParentheses parent isRight = false := by
  rw [Bool.eq_false_iff]
  intro hTrue
  rw [hNeeds hTrue, Bool.and_true] at h
  rw [← isBinary_and_needsParentheses, h] at hTrue
  cases hTrue

mutual

/-- If an expression is derived from its tokens under a choice, the choice suffices. -/
theorem suffices_of_operand (expr : Expr) (chosen : Place → Bool) (wanted : Bool)
    (hWanted : wanted → expr.isBinary) (level : Nat) (rest : Kinds)
    (h : Operand unopened level (parenthesized wanted (expr.kindsWith chosen) ++ rest) expr rest) :
    (wanted = false → expr.level ≤ level) ∧ Suffices expr chosen := by
  match expr with
  | literal _ | reference _ =>
      refine ⟨fun _ => Nat.zero_le level, fun place hPlace => ?_⟩
      simp [parenthesizes] at hPlace
  | call callee arguments =>
      obtain rfl : wanted = false := Bool.eq_false_iff.mpr (fun hTrue => nomatch hWanted hTrue)
      refine ⟨fun _ => Nat.zero_le level, suffices_call.mpr ?_⟩
      have hPrimary := h.primary_of_single rfl
      simp only [parenthesized, kindsWith, Bool.false_eq_true, if_false, List.cons_append,
        List.append_assoc, List.nil_append] at hPrimary
      cases hPrimary with
      | call _ inner => exact argumentsSuffice_of_arguments arguments _ _ rest rfl inner
  | binary op left right =>
      have hOperands := h.operands (by rw [contents_parenthesized, contents_kindsWith])
        (by rw [surplus_parenthesized, surplus_kindsWith])
      obtain ⟨after, hLeft, hRight, hLevel⟩ := hOperands
      obtain ⟨hBefore, hInLeft⟩ := suffices_of_operand left (chosen ∘ .inLeft) _
        (fun hBoth => (Bool.and_eq_true _ _ ▸ hBoth).1) _ _ hLeft
      obtain ⟨hAfter, hInRight⟩ := suffices_of_operand right (chosen ∘ .inRight) _
        (fun hBoth => (Bool.and_eq_true _ _ ▸ hBoth).1) _ _ hRight
      refine ⟨hLevel, suffices_binary.mpr ⟨fun hNeeds => ?_, fun hNeeds => ?_, hInLeft, hInRight⟩⟩
      · rw [needsParentheses_left] at hNeeds
        cases hChosen : left.isBinary && chosen .left with
        | true => exact (Bool.and_eq_true _ _ ▸ hChosen).2
        | false => exact absurd (hBefore hChosen) (Nat.not_le_of_lt hNeeds)
      · rw [needsParentheses_right] at hNeeds
        have hPositive := precedence_pos op
        cases hChosen : right.isBinary && chosen .right with
        | true => exact (Bool.and_eq_true _ _ ▸ hChosen).2
        | false => exact absurd (hAfter hChosen) (by omega)

/-- If arguments are read back as they were, every needed pair was there. By induction on them, with
one choice for each. -/
theorem argumentsSuffice_of_arguments (arguments : List Expr) (chosen : Nat → Place → Bool)
    (input rest : Kinds)
    (hInput : input = argumentKindsWith arguments chosen ++ .delimiter .closeParen :: rest)
    (h : Arguments unopened input arguments rest) : ArgumentsSuffice arguments chosen := by
  match arguments with
  | [] => exact argumentsSuffice_nil chosen
  | [argument] =>
      obtain _ | ⟨⟨inner⟩ | ⟨_, others⟩⟩ := h
      · rw [hInput] at inner
        exact argumentsSuffice_cons.mpr
          ⟨(suffices_of_operand argument (chosen 0) false nofun _ _ inner).2, argumentsSuffice_nil _⟩
      · cases others
  | argument :: next :: further =>
      obtain _ | ⟨_ | ⟨inner, others⟩⟩ := h
      simp only [argumentKindsWith, List.append_assoc, List.cons_append] at hInput
      -- The comma after the first argument is the one that the contents after it tell.
      have hComma := cons_eq_of_contents inner.leaves.1 ⟨_, hInput.symm⟩ rfl rfl (by
        rw [others.contents_eq]
        simp [contents_argumentKindsWith, lasting])
      rw [hInput, hComma] at inner
      obtain ⟨-, rfl⟩ := List.cons.inj hComma
      have hFirst := suffices_of_operand argument (chosen 0) false nofun _ _ inner
      have hOthers := argumentsSuffice_of_arguments (next :: further)
        (fun index => chosen (index + 1)) _ rest rfl (Arguments.some others)
      exact argumentsSuffice_cons.mpr ⟨hFirst.2, hOthers⟩

end

mutual

/-- If a choice suffices, the tokens that an expression has under it derive the expression. -/
theorem operand_of_suffices (expr : Expr) (chosen : Place → Bool) (h : Suffices expr chosen)
    (level : Nat) (hLevel : expr.level ≤ level) (rest : Kinds) (hRest : unopened rest) :
    Operand unopened level (expr.kindsWith chosen ++ rest) expr rest := by
  match expr with
  | literal value => exact (Operand.primary (Primary.literal value rest)).looser (Nat.zero_le _)
  | reference name => exact (Operand.primary (Primary.reference name hRest)).looser (Nat.zero_le _)
  | call callee arguments =>
      have hInner : Arguments unopened
          (argumentKindsWith arguments (fun index => chosen ∘ .inArgument index) ++
            .delimiter .closeParen :: rest) arguments rest := by
        match arguments with
        | [] => exact Arguments.none rest
        | first :: others =>
            exact Arguments.some (values_of_suffice (first :: others) _ (suffices_call.mp h)
              (List.cons_ne_nil _ _) rest)
      simp only [kindsWith, List.cons_append, List.append_assoc, List.nil_append]
      exact (Operand.primary (Primary.call callee hInner)).looser (Nat.zero_le _)
  | binary op left right =>
      obtain ⟨hNeedsLeft, hNeedsRight, hInLeft, hInRight⟩ := suffices_binary.mp h
      have hLeft (others : Kinds) : Operand unopened op.precedence
          (parenthesized (left.isBinary && chosen .left) (left.kindsWith (chosen ∘ .inLeft)) ++
            .operator op :: others) left (.operator op :: others) :=
        Operand.inParentheses (fun _ hRest => hRest)
          (fun level hLevel rest hRest =>
            operand_of_suffices left _ hInLeft level hLevel rest (hRest trivial))
          (fun hBare => level_le_of_bare_left (bare_of_unchosen hBare hNeedsLeft)) _
          (fun _ _ => unopened_operator op others)
      have hRight : Operand unopened (op.precedence - 1)
          (parenthesized (right.isBinary && chosen .right) (right.kindsWith (chosen ∘ .inRight)) ++ rest)
          right rest :=
        Operand.inParentheses (fun _ hRest => hRest)
          (fun level hLevel rest hRest =>
            operand_of_suffices right _ hInRight level hLevel rest (hRest trivial))
          (fun hBare => level_le_of_bare_right (bare_of_unchosen hBare hNeedsRight)) rest
          (fun _ _ => hRest)
      simp only [kindsWith, List.append_assoc, List.cons_append]
      exact (hLeft _).binary hRight hLevel

/-- Superfluous parentheses do not keep arguments from being derived. -/
theorem values_of_suffice (arguments : List Expr) (chosen : Nat → Place → Bool)
    (h : ArgumentsSuffice arguments chosen) (hSome : arguments ≠ []) (rest : Kinds) :
    Values unopened (argumentKindsWith arguments chosen ++ .delimiter .closeParen :: rest)
      arguments rest := by
  match arguments with
  | [argument] =>
      exact Values.last (operand_of_suffices argument (chosen 0) (argumentsSuffice_cons.mp h).1 _
        argument.level_le_loosest _ (unopened_delimiter (by decide) _))
  | argument :: next :: further =>
      obtain ⟨hFirst, hOthers⟩ := argumentsSuffice_cons.mp h
      have hFurther := values_of_suffice (next :: further) _ hOthers (List.cons_ne_nil _ _) rest
      simp only [argumentKindsWith, List.append_assoc, List.cons_append]
      exact Values.more (operand_of_suffices argument (chosen 0) hFirst _ argument.level_le_loosest _
        (unopened_delimiter (by decide) _)) hFurther

end

/-- The tokens that an expression has under a choice derive it exactly if the choice suffices. -/
theorem operand_kindsWith_iff (expr : Expr) (chosen : Place → Bool) :
    Operand unopened loosest (expr.kindsWith chosen) expr [] ↔ Suffices expr chosen := by
  constructor
  · intro h
    refine (suffices_of_operand expr chosen false nofun loosest [] ?_).2
    rwa [List.append_nil]
  · intro h
    have hDerives := operand_of_suffices expr chosen h loosest expr.level_le_loosest [] (by simp [unopened])
    rwa [List.append_nil] at hDerives

end Expr

/-- Reading an expression from all of some tokens is deriving it from their kinds. -/
theorem Parser.reads_expression_iff (tokens : List (Token Name)) (expr : Expr) :
    Parser.Reads (Parser.expression (Parser.stopSpan tokens) (Parser.relevant tokens)) expr [] ↔
      Operand unopened loosest (beforeEnd tokens) expr [] := by
  rw [← Parser.kinds_relevant]
  constructor
  · exact Parser.expression_sound
  · intro h
    obtain ⟨left, hLeft, hReads⟩ := Parser.expression_complete h nofun (Parser.stopSpan tokens) rfl
    rwa [List.map_eq_nil_iff.mp hLeft] at hReads

/-- Whatever table of names an expression is printed with and wherever it has parentheses, the text is
read without an error in a token and without new names. It is read as the expression exactly if every
operand that is in parentheses in the canonical text is in parentheses here. -/
theorem printWith_leastParentheses (texts : List String) (expr : Expr)
    (hPrintable : expr.printable (Interner.initial.internAll texts).2) (chosen : Place → Bool) :
    expr.printWith (Interner.initial.internAll texts).2 expr.parenthesizes =
        expr.print (Interner.initial.internAll texts).2 ∧
      ∃ tokens, lex (expr.printWith (Interner.initial.internAll texts).2 chosen)
          (Interner.initial.internAll texts).2 = (.ok tokens, (Interner.initial.internAll texts).2) ∧
        (Parser.Reads (Parser.expression (Parser.stopSpan tokens) (Parser.relevant tokens)) expr [] ↔
          ∀ place, expr.parenthesizes place → chosen place) := by
  refine ⟨expr.printWith_parenthesizes _, ?_⟩
  have hLexes := Expr.lexesWith expr hPrintable chosen Lexer.apart_nil Lexer.lexes_nil
  rw [List.append_nil, List.append_nil] at hLexes
  obtain ⟨tokens, hTokens, hKinds⟩ := hLexes.lex_legible (Expr.legible_kindsWith expr hPrintable chosen)
  refine ⟨tokens, hTokens, ?_⟩
  rw [Parser.reads_expression_iff, hKinds]
  exact expr.operand_kindsWith_iff chosen

/-- Without the parentheses around its right operand a difference is read as another one. -/
theorem printWith_leastParentheses_ofDifference :
    ∃ expr : Expr, expr.printable (Interner.initial.internAll []).2 ∧
      ∃ tokens, lex (expr.printWith (Interner.initial.internAll []).2 (fun _ => false))
          (Interner.initial.internAll []).2 = (.ok tokens, (Interner.initial.internAll []).2) ∧
        ¬ Parser.Reads (Parser.expression (Parser.stopSpan tokens) (Parser.relevant tokens)) expr [] := by
  have hPrintable : Expr.printable (Interner.initial.internAll []).2
      (.binary .sub (.literal 1) (.binary .sub (.literal 2) (.literal 3))) := by decide
  obtain ⟨-, tokens, hTokens, hReads⟩ := printWith_leastParentheses [] _ hPrintable (fun _ => false)
  refine ⟨_, hPrintable, tokens, hTokens, fun hSame => ?_⟩
  exact absurd (hReads.mp hSame .right (by decide)) Bool.false_ne_true

end IntScript
