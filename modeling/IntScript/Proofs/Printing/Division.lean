import IntScript.Proofs.Printing.Contents
import IntScript.Proofs.Printing.Parentheses

/-! Where a row of tokens divides that derives an expression with an operator. The contents of its
operands tell where the operator stands, and the parentheses that are open there tell how many surround
the expression. -/
namespace IntScript.Grammar

/-- What a token adds to the number of parentheses that are open. -/
def weight : TokenKind Name → Int
  | .delimiter .openParen => 1
  | .delimiter .closeParen => -1
  | _ => 0

def surplus : Kinds → Int
  | [] => 0
  | kind :: row => weight kind + surplus row

@[simp] theorem surplus_nil : surplus [] = 0 := rfl

@[simp] theorem surplus_cons (kind : TokenKind Name) (row : Kinds) :
    surplus (kind :: row) = weight kind + surplus row := rfl

@[simp] theorem surplus_append (front back : Kinds) :
    surplus (front ++ back) = surplus front + surplus back := by
  induction front with
  | nil => exact (Int.zero_add _).symm
  | cons kind front ih => rw [List.cons_append, surplus_cons, surplus_cons, ih, Int.add_assoc]

@[simp] theorem surplus_parenthesized (wanted : Bool) (inner : Kinds) :
    surplus (parenthesized wanted inner) = surplus inner := by
  cases wanted with
  | false => rfl
  | true =>
      have hRow : parenthesized true inner =
          .delimiter .openParen :: (inner ++ [.delimiter .closeParen]) := rfl
      rw [hRow, surplus_cons, surplus_append, surplus_cons, surplus_nil]
      simp only [weight]
      omega

/-- A pair of parentheses or none, as a number of them in front and the same number behind. -/
theorem parenthesized_eq_replicate (wanted : Bool) (inner : Kinds) :
    parenthesized wanted inner =
      List.replicate wanted.toNat (.delimiter .openParen) ++
        (inner ++ List.replicate wanted.toNat (.delimiter .closeParen)) := by
  cases wanted <;> simp [parenthesized]

theorem surplus_closing (count : Nat) :
    surplus (List.replicate count (.delimiter .closeParen)) = -count := by
  induction count with
  | zero => rfl
  | succ count ih =>
      rw [List.replicate_succ, surplus_cons, ih, weight]
      omega

theorem contents_closing (count : Nat) :
    contents (List.replicate count (.delimiter .closeParen)) = [] := by
  simp [contents, lasting]

/-- `rest` is an end of `input`, and before it `count` more parentheses are closed than opened. -/
def Leaves (count : Int) (input rest : Kinds) : Prop :=
  rest <:+ input ∧ surplus input + count = surplus rest

namespace Leaves

variable {count : Int} {input middle rest : Kinds}

theorem refl (rest : Kinds) : Leaves 0 rest rest :=
  ⟨List.suffix_refl rest, Int.add_zero _⟩

theorem trans (h : Leaves 0 input middle) (hOthers : Leaves count middle rest) :
    Leaves count input rest := by
  refine ⟨hOthers.1.trans h.1, ?_⟩
  have hFirst := h.2
  have hSecond := hOthers.2
  omega

theorem cons (h : Leaves count input rest) {kind : TokenKind Name} (hKind : weight kind = 0) :
    Leaves count (kind :: input) rest := by
  refine ⟨h.1.trans (List.suffix_cons kind input), ?_⟩
  rw [surplus_cons, hKind, Int.zero_add]
  exact h.2

/-- A parenthesis in front has to be closed further on. -/
theorem opened (h : Leaves (count + 1) input rest) :
    Leaves count (.delimiter .openParen :: input) rest := by
  refine ⟨h.1.trans (List.suffix_cons _ input), ?_⟩
  have hSurplus := h.2
  rw [surplus_cons, weight]
  omega

theorem closed (h : Leaves 0 input (.delimiter .closeParen :: rest)) : Leaves 1 input rest := by
  refine ⟨(List.suffix_cons _ rest).trans h.1, ?_⟩
  have hSurplus := h.2
  rw [surplus_cons, weight] at hSurplus
  omega

end Leaves

section

variable {follow : Follow}

mutual

/-- Every parenthesis that an expression opens it also closes. -/
theorem Operand.leaves {level : Nat} {input rest : Kinds} {expr : Expr}
    (h : Operand follow level input expr rest) : Leaves 0 input rest := by
  match h with
  | .primary inner => exact inner.leaves
  | .joined left steps => exact left.leaves.trans steps.leaves

theorem Steps.leaves {level : Nat} {input rest : Kinds} {steps : List (BinaryOp × Expr)}
    (h : Steps follow level input steps rest) : Leaves 0 input rest := by
  match h with
  | .nil _ rest => exact Leaves.refl rest
  | .cons known operand others => exact (operand.leaves.trans others.leaves).cons rfl

/-- An operand closes what it opens. -/
theorem Primary.leaves {input rest : Kinds} {expr : Expr} (h : Primary follow input expr rest) :
    Leaves 0 input rest := by
  match h with
  | .literal _ rest | .reference _ _ => exact (Leaves.refl _).cons rfl
  | .call _ inner => exact inner.leaves.opened.cons rfl
  | .group inner => exact inner.leaves.closed.opened

/-- Arguments close one more, the parenthesis in front of them. -/
theorem Arguments.leaves {input rest : Kinds} {values : List Expr}
    (h : Arguments follow input values rest) : Leaves 1 input rest := by
  match h with
  | .none rest => exact (Leaves.refl _).closed
  | .some inner => exact inner.leaves

theorem Values.leaves {input rest : Kinds} {values : List Expr}
    (h : Values follow input values rest) : Leaves 1 input rest := by
  match h with
  | .last inner => exact inner.leaves.closed
  | .more inner others => exact inner.leaves.trans (others.leaves.cons rfl)

end

/-- A row that is an end of another one is all of it, if both have the same contents behind their first
tokens and the shorter one begins with a token that counts. -/
theorem cons_eq_of_suffix {first second : TokenKind Name} {front back : Kinds}
    (h : first :: front <:+ second :: back) (hFirst : lasting first)
    (hContents : contents front = contents back) : first :: front = second :: back := by
  obtain ⟨before, hBefore⟩ := h
  cases before with
  | nil => exact hBefore
  | cons kind before =>
      obtain ⟨rfl, rfl⟩ := List.cons.inj hBefore
      have hLength := congrArg List.length hContents
      simp [hFirst] at hLength
      omega

/-- Where a lasting token stands in a row is known from the contents after it. -/
theorem cons_eq_of_contents {first second : TokenKind Name} {front back row : Kinds}
    (hFront : first :: front <:+ row) (hBack : second :: back <:+ row) (hFirst : lasting first)
    (hSecond : lasting second) (hContents : contents front = contents back) :
    first :: front = second :: back := by
  rcases List.suffix_or_suffix_of_suffix hFront hBack with hInner | hInner
  · exact cons_eq_of_suffix hInner hFirst hContents
  · exact (cons_eq_of_suffix hInner hSecond hContents.symm).symm

/-- The last of several operations stands after the others. -/
theorem Steps.unsnoc {level : Nat} {input rest : Kinds} {steps : List (BinaryOp × Expr)}
    {op : BinaryOp} {right : Expr} (h : Steps follow level input (steps ++ [(op, right)]) rest) :
    ∃ middle, Steps follow level input steps (.operator op :: middle) ∧
      op ∈ operators (level + 1) ∧ Operand follow level middle right rest := by
  induction steps generalizing input with
  | nil =>
      cases h with
      | cons known operand others =>
          cases others with
          | nil => exact ⟨_, Steps.nil _ _, known, operand⟩
  | cons step steps ih =>
      cases h with
      | cons known operand others =>
          obtain ⟨middle, hSteps, hKnown, hOperand⟩ := ih others
          exact ⟨middle, Steps.cons known operand hSteps, hKnown, hOperand⟩

/-- An operand that has no operator is a primary. -/
theorem Operand.primary_of_single {level : Nat} {input rest : Kinds} {expr : Expr}
    (h : Operand follow level input expr rest) (hSingle : expr.isBinary = false) :
    Primary follow input expr rest := by
  induction level generalizing expr rest with
  | zero =>
      cases h with
      | primary inner => exact inner
  | succ level ih =>
      cases h with
      | @joined _ _ _ _ _ steps left right =>
          rcases List.eq_nil_or_concat steps with rfl | ⟨others, step, rfl⟩
          · cases right with
            | nil => exact ih left hSingle
          · rw [List.concat_eq_append, List.foldl_append] at hSingle
            cases hSingle

/-- In `count` pairs of parentheses the operands of an operator are derived, left and right of it, and
each at its level. -/
def Splits (follow : Follow) (count : Nat) (input : Kinds) (op : BinaryOp) (left right : Expr)
    (rest : Kinds) : Prop :=
  ∃ start middle, input = List.replicate count (.delimiter .openParen) ++ start ∧
    Operand follow op.precedence start left (.operator op :: middle) ∧
    Operand follow (op.precedence - 1) middle right
      (List.replicate count (.delimiter .closeParen) ++ rest)

/-- A pair around both operands is one more pair. -/
theorem Splits.group {count : Nat} {input rest : Kinds} {op : BinaryOp} {left right : Expr}
    (h : Splits follow count input op left right (.delimiter .closeParen :: rest)) :
    Splits follow (count + 1) (.delimiter .openParen :: input) op left right rest := by
  obtain ⟨start, middle, rfl, hLeft, hRight⟩ := h
  refine ⟨start, middle, rfl, hLeft, ?_⟩
  rwa [List.replicate_succ', List.append_assoc]

mutual

/-- An operator that is not in parentheses belongs to the level of the operand or to a tighter one. -/
theorem Operand.splits {level : Nat} {input rest : Kinds} {expr : Expr} {op : BinaryOp}
    {left right : Expr} (h : Operand follow level input expr rest)
    (hExpr : expr = .binary op left right) :
    ∃ count, Splits follow count input op left right rest ∧ (count = 0 → op.precedence ≤ level) := by
  match h with
  | .primary inner =>
      obtain ⟨count, hSplits⟩ := inner.splits hExpr
      exact ⟨count + 1, hSplits, fun hNone => absurd hNone (Nat.succ_ne_zero count)⟩
  | @Operand.joined _ level _ _ _ first steps whole others =>
      rcases List.eq_nil_or_concat steps with rfl | ⟨front, ⟨last, next⟩, rfl⟩
      · cases others with
        | nil =>
            obtain ⟨count, hSplits, hLevel⟩ := whole.splits hExpr
            exact ⟨count, hSplits, fun hNone => Nat.le_succ_of_le (hLevel hNone)⟩
      · rw [List.concat_eq_append] at hExpr others
        rw [List.foldl_append] at hExpr
        obtain ⟨rfl, rfl, rfl⟩ := Expr.binary.inj hExpr
        obtain ⟨middle, hSteps, hKnown, hRight⟩ := others.unsnoc
        have hPrecedence := (Parser.mem_operators_iff _ _).mp hKnown
        refine ⟨0, ⟨input, middle, rfl, ?_, ?_⟩, fun _ => Nat.le_of_eq hPrecedence⟩
        · rw [hPrecedence]
          exact Operand.joined whole hSteps
        · rw [hPrecedence]
          exact hRight

/-- An operator in a primary stands in parentheses. -/
theorem Primary.splits {input rest : Kinds} {expr : Expr} {op : BinaryOp} {left right : Expr}
    (h : Primary follow input expr rest) (hExpr : expr = .binary op left right) :
    ∃ count, Splits follow (count + 1) input op left right rest := by
  match h with
  | .literal _ _ | .reference _ _ | .call _ _ => cases hExpr
  | .group inner =>
      obtain ⟨count, hSplits, -⟩ := inner.splits hExpr
      exact ⟨count, hSplits.group⟩

end

/-- A row that derives a binary expression divides at the operator: its operands are derived on both
sides of it, and the only parentheses that surround both are those of the row. -/
theorem Operand.operands {op : BinaryOp} {left right : Expr} {before others rest : Kinds}
    {wanted : Bool} {level : Nat}
    (h : Operand follow level (parenthesized wanted (before ++ .operator op :: others) ++ rest)
      (.binary op left right) rest)
    (hContents : contents others = contents right.kinds) (hSurplus : surplus others = 0) :
    ∃ after,
      Operand follow op.precedence (before ++ .operator op :: (others ++ after)) left
        (.operator op :: (others ++ after)) ∧
      Operand follow (op.precedence - 1) (others ++ after) right after ∧
      (wanted = false → op.precedence ≤ level) := by
  obtain ⟨count, ⟨start, middle, hInput, hLeft, hRight⟩, hLevel⟩ := h.splits rfl
  rw [parenthesized_eq_replicate, List.append_assoc, List.append_assoc, List.append_assoc,
    List.cons_append] at hInput
  generalize hClosing : List.replicate wanted.toNat (TokenKind.delimiter .closeParen) ++ rest = after
    at hInput
  have hStands : .operator op :: (others ++ after) <:+
      List.replicate count (.delimiter .openParen) ++ start := by
    rw [← hInput, ← List.append_assoc]
    exact List.suffix_append _ _
  -- The operator of the derivation is that of the row, since the contents after both are the same.
  have hSame : contents middle = contents (others ++ after) := by
    rw [hRight.contents_eq, ← hClosing]
    simp only [contents_append, contents_closing, hContents]
  obtain rfl : middle = others ++ after :=
    (List.cons.inj (cons_eq_of_contents (hLeft.leaves.1.trans (List.suffix_append _ _)) hStands rfl rfl
      hSame)).2
  have hOpen := hRight.leaves.2
  rw [← hClosing] at hOpen
  simp only [surplus_append, surplus_closing, hSurplus] at hOpen
  obtain rfl : count = wanted.toNat := by omega
  obtain rfl : before ++ .operator op :: (others ++ after) = start := List.append_cancel_left hInput
  refine ⟨after, hLeft, hClosing ▸ hRight, fun hWanted => hLevel ?_⟩
  rw [hWanted, Bool.toNat_false]

end

end IntScript.Grammar
