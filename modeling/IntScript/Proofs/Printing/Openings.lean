import IntScript.Proofs.Printing.CanonicalTokens

/-! Counting the identifiers that stand before an opening parenthesis. In a derivation that reads
each of them as a call or as the name of a function the count is that of the tree, but in the tokens
of a printed program it also counts the neighbours that touch. -/
namespace IntScript

open Grammar

/-- How many identifiers have an opening parenthesis after them. -/
def Grammar.openings : Kinds → Nat
  | .identifier _ :: .delimiter .openParen :: rest => openings rest + 1
  | _ :: rest => openings rest
  | [] => 0

/-- One if an identifier at the end of a row stands before an opening parenthesis. -/
def Grammar.contact (ends : Bool) (rest : Kinds) : Nat :=
  if ends && rest.head? == some (.delimiter .openParen) then 1 else 0

namespace Expr

mutual

def calls : Expr → Nat
  | literal _ | reference _ => 0
  | call _ arguments => argumentCalls arguments + 1
  | binary _ left right => calls left + calls right

def argumentCalls : List Expr → Nat
  | [] => 0
  | argument :: others => calls argument + argumentCalls others

end

end Expr

namespace Stmt

mutual

def calls : Stmt → Nat
  | function _ _ body => blockCalls body + 1
  | declare _ value | assign _ value | yield value | evaluate value => value.calls
  | loop condition body => condition.calls + blockCalls body
  | branch condition positive negative =>
      condition.calls + (blockCalls positive + blockCalls negative)

def blockCalls : List Stmt → Nat
  | [] => 0
  | stmt :: others => calls stmt + blockCalls others

end

end Stmt

namespace Grammar

/-- The parenthesis itself may belong to what follows. -/
theorem openings_identifier (name : Name) (rest : Kinds) :
    openings (.identifier name :: rest) = openings rest + contact true rest := by
  match rest with
  | [] => rfl
  | .delimiter .openParen :: others => simp [openings, contact]
  | .keyword _ :: others | .operator _ :: others | .integer _ :: others | .identifier _ :: others
  | .endOfFile :: others | .delimiter .closeParen :: others | .delimiter .openBrace :: others
  | .delimiter .closeBrace :: others | .delimiter .comma :: others
  | .delimiter .semicolon :: others | .delimiter .assign :: others => simp [openings, contact]

@[simp] theorem openings_keyword (keyword : Keyword) (rest : Kinds) :
    openings (.keyword keyword :: rest) = openings rest := rfl

@[simp] theorem openings_delimiter (delimiter : Delimiter) (rest : Kinds) :
    openings (.delimiter delimiter :: rest) = openings rest := rfl

@[simp] theorem openings_operator (op : BinaryOp) (rest : Kinds) :
    openings (.operator op :: rest) = openings rest := rfl

@[simp] theorem openings_integer (value : Int32) (rest : Kinds) :
    openings (.integer value :: rest) = openings rest := rfl

theorem contact_of_unopened {ends : Bool} {rest : Kinds} (h : ends → unopened rest) :
    contact ends rest = 0 := by
  cases ends with
  | false => simp [contact]
  | true => simpa [contact, unopened] using h rfl

def stepCalls : List (BinaryOp × Expr) → Nat
  | [] => 0
  | step :: steps => step.2.calls + stepCalls steps

/-- Joined operands have the calls of all of them. -/
theorem calls_foldl_join (first : Expr) (steps : List (BinaryOp × Expr)) :
    (steps.foldl join first).calls = first.calls + stepCalls steps := by
  induction steps generalizing first with
  | nil => rfl
  | cons step steps ih =>
      rw [List.foldl_cons, ih, join, Expr.calls, stepCalls, Nat.add_assoc]

mutual

/-- In the greedy reading every identifier before a parenthesis is a call, so openings are counted
by the calls of the tree. -/
theorem Operand.openings_eq {level : Nat} {input rest : Kinds} {expr : Expr}
    (h : Operand unopened level input expr rest) : openings input = expr.calls + openings rest := by
  match h with
  | .primary inner => exact inner.openings_eq
  | .joined left steps =>
      rw [left.openings_eq, steps.openings_eq, calls_foldl_join, Nat.add_assoc]

theorem Steps.openings_eq {level : Nat} {input rest : Kinds} {steps : List (BinaryOp × Expr)}
    (h : Steps unopened level input steps rest) :
    openings input = stepCalls steps + openings rest := by
  match h with
  | .nil _ _ => rw [stepCalls, Nat.zero_add]
  | .cons known operand others =>
      rw [openings_operator, operand.openings_eq, others.openings_eq, stepCalls, Nat.add_assoc]

/-- A variable is not followed by a parenthesis, or it would not have been read as one. -/
theorem Primary.openings_eq {input rest : Kinds} {expr : Expr}
    (h : Primary unopened input expr rest) : openings input = expr.calls + openings rest := by
  match h with
  | .literal _ _ => simp [Expr.calls]
  | .reference _ free =>
      rw [openings_identifier, contact_of_unopened (fun _ => free), Expr.calls, Nat.zero_add]
      rfl
  | .call _ inner =>
      rw [openings, inner.openings_eq, Expr.calls]
      omega
  | .group inner =>
      rw [openings_delimiter, inner.openings_eq, openings_delimiter]

theorem Arguments.openings_eq {input rest : Kinds} {values : List Expr}
    (h : Arguments unopened input values rest) :
    openings input = Expr.argumentCalls values + openings rest := by
  match h with
  | .none _ => simp [Expr.argumentCalls]
  | .some inner => exact inner.openings_eq

theorem Values.openings_eq {input rest : Kinds} {values : List Expr}
    (h : Values unopened input values rest) :
    openings input = Expr.argumentCalls values + openings rest := by
  match h with
  | .last inner => simp [inner.openings_eq, Expr.argumentCalls]
  | .more inner others =>
      rw [inner.openings_eq, openings_delimiter, others.openings_eq, Expr.argumentCalls, Nat.add_assoc]

end

theorem Names.openings_eq {input rest : Kinds} {names : List Name} (h : Names input names rest) :
    openings input = openings rest := by
  induction h with
  | last name rest => rfl
  | more name _ ih =>
      rw [← ih]
      rfl

theorem Parameters.openings_eq {input rest : Kinds} {names : List Name}
    (h : Parameters input names rest) : openings input = openings rest := by
  cases h with
  | none => rfl
  | some inner => exact inner.openings_eq

/-- The parenthesis of a condition has a keyword in front of it. -/
theorem Condition.openings_eq {input rest : Kinds} {test : Expr}
    (h : Condition unopened input test rest) : openings input = test.calls + openings rest := by
  cases h with
  | group inner => simp [inner.openings_eq]

mutual

/-- A declared function has an identifier before a parenthesis as well, which is counted like a
call. -/
theorem Statement.openings_eq {input rest : Kinds} {stmt : Stmt}
    (h : Statement unopened input stmt rest) : openings input = stmt.calls + openings rest := by
  match h with
  | .function _ parameters inner =>
      simp only [openings, parameters.openings_eq, inner.openings_eq, Stmt.calls]
      omega
  | .declare _ inner | .assign _ inner =>
      simp [openings_identifier, contact, inner.openings_eq, Stmt.calls]
  | .loop condition inner =>
      simp [condition.openings_eq, inner.openings_eq, Stmt.calls, Nat.add_assoc]
  | .branch condition inner =>
      simp [condition.openings_eq, inner.openings_eq, Stmt.calls, Stmt.blockCalls, Nat.add_assoc]
  | .otherwise condition first second =>
      simp [condition.openings_eq, first.openings_eq, second.openings_eq, Stmt.calls, Nat.add_assoc]
  | .yield inner => simp [inner.openings_eq, Stmt.calls]
  | .evaluate inner => simp [inner.openings_eq, Stmt.calls]

theorem Braced.openings_eq {input rest : Kinds} {block : Block}
    (h : Braced unopened input block rest) :
    openings input = Stmt.blockCalls block + openings rest := by
  match h with
  | .group inner => simp [inner.openings_eq]

/-- Without juxtaposed parentheses each counted identifier is a call or a declared function. -/
theorem Statements.openings_eq {input rest : Kinds} {block : Block}
    (h : Statements unopened input block rest) :
    openings input = Stmt.blockCalls block + openings rest := by
  match h with
  | .nil _ => simp [Stmt.blockCalls]
  | .semicolon others => simp [others.openings_eq]
  | .cons first others =>
      rw [first.openings_eq, others.openings_eq, Stmt.blockCalls, Nat.add_assoc]

end

end Grammar

mutual

/-- In the printed text there is one more opening where the expression touches what follows. -/
theorem Expr.openings_kinds (expr : Expr) (rest : Kinds) :
    openings (expr.kinds ++ rest) =
      expr.calls + openings rest + contact expr.endsWithVariable rest := by
  match expr with
  | .literal _ => simp [Expr.kinds, Expr.calls, Expr.endsWithVariable, contact]
  | .reference name =>
      simp only [Expr.kinds, Expr.calls, Expr.endsWithVariable, List.cons_append, List.nil_append,
        openings_identifier, Nat.zero_add]
  | .call callee values =>
      have hValues := Expr.openings_argumentKinds values rest
      simp only [Expr.kinds, Expr.calls, Expr.endsWithVariable, List.cons_append, List.append_assoc,
        List.nil_append, openings, hValues, contact, Bool.false_and]
      simp only [Bool.false_eq_true, if_false]
      omega
  | .binary op left right =>
      have hLeft (rest : Kinds) := Expr.openings_kinds left (.operator op :: rest)
      have hLeftClosed (rest : Kinds) := Expr.openings_kinds left (.delimiter .closeParen :: rest)
      have hRight := Expr.openings_kinds right rest
      have hRightClosed := Expr.openings_kinds right (.delimiter .closeParen :: rest)
      simp only [Expr.kinds, Expr.calls, Expr.endsWithVariable, List.append_assoc, List.cons_append]
      cases hBefore : left.needsParentheses op false <;> cases hAfter : right.needsParentheses op true <;>
        simp [parenthesized, hLeft, hLeftClosed, hRight, hRightClosed, contact] <;> omega

/-- Commas and the last parenthesis keep arguments apart from what follows. -/
theorem Expr.openings_argumentKinds (values : List Expr) (rest : Kinds) :
    openings (Expr.argumentKinds values ++ .delimiter .closeParen :: rest) =
      Expr.argumentCalls values + openings rest := by
  match values with
  | [] => simp [Expr.argumentKinds, Expr.argumentCalls]
  | [value] =>
      have hValue := Expr.openings_kinds value (.delimiter .closeParen :: rest)
      simpa [Expr.argumentKinds, Expr.argumentCalls, contact] using hValue
  | value :: next :: further =>
      have hOthers := Expr.openings_argumentKinds (next :: further) rest
      have hValue := Expr.openings_kinds value (.delimiter .comma ::
        (Expr.argumentKinds (next :: further) ++ .delimiter .closeParen :: rest))
      rw [openings_delimiter, hOthers] at hValue
      rw [Expr.argumentKinds, Expr.argumentCalls, List.append_assoc, List.cons_append, hValue]
      simp [contact, Nat.add_assoc]
      nofun

end

theorem Stmt.openings_parameterKinds (names : List Name) (rest : Kinds) :
    openings (Stmt.parameterKinds names ++ .delimiter .closeParen :: rest) = openings rest :=
  (Stmt.parametersDerive names rest).openings_eq

theorem Expr.openings_conditionKinds (test : Expr) (rest : Kinds) :
    openings (test.kinds ++ .delimiter .closeParen :: rest) = test.calls + openings rest := by
  rw [Expr.openings_kinds, openings_delimiter]
  simp [contact]

/-- Before a statement that begins with a parenthesis there is contact. -/
theorem Stmt.contact_blockKinds {stmt : Stmt} {others : Block} {rest : Kinds}
    (hTouches : stmt.touches others) :
    contact stmt.endsWithVariable (Stmt.blockKinds others ++ rest) = 1 := by
  cases others with
  | nil => cases hTouches
  | cons next further =>
      rw [Stmt.touches, Bool.and_eq_true] at hTouches
      have hOpened := mt (next.unopened_kinds (Stmt.blockKinds further ++ rest)).mp
        (by rw [hTouches.2]; exact Bool.false_ne_true ∘ Eq.symm)
      rw [unopened, Ne, Decidable.not_not] at hOpened
      simp [Stmt.blockKinds, contact, hTouches.1, hOpened]

mutual

/-- In the tokens of a printed statement every call is counted, and neighbours that touch as well. -/
theorem Stmt.le_openings_kinds (stmt : Stmt) (rest : Kinds) :
    stmt.calls + stmt.clashes.toNat + openings rest + contact stmt.endsWithVariable rest ≤
      openings (stmt.kinds ++ rest) := by
  match stmt with
  | .function name parameters body =>
      have hBody := Stmt.le_openings_blockKinds body (.delimiter .closeBrace :: rest)
      simp only [openings_delimiter] at hBody
      simp [Stmt.kinds, Stmt.calls, Stmt.clashes, Stmt.endsWithVariable, contact, openings,
        Stmt.openings_parameterKinds]
      omega
  | .declare name value | .assign name value =>
      simp [Stmt.kinds, Stmt.calls, Stmt.clashes, Stmt.endsWithVariable, openings_identifier,
        Expr.openings_kinds, contact]
  | .loop test body =>
      have hBody := Stmt.le_openings_blockKinds body (.delimiter .closeBrace :: rest)
      simp only [openings_delimiter] at hBody
      simp [Stmt.kinds, Stmt.calls, Stmt.clashes, Stmt.endsWithVariable, contact,
        Expr.openings_conditionKinds]
      omega
  | .branch test positive negative =>
      have hPositive (rest : Kinds) :=
        Stmt.le_openings_blockKinds positive (.delimiter .closeBrace :: rest)
      have hNegative := Stmt.le_openings_blockKinds negative (.delimiter .closeBrace :: rest)
      have hEither : (Stmt.blockClashes positive || Stmt.blockClashes negative).toNat ≤
          (Stmt.blockClashes positive).toNat + (Stmt.blockClashes negative).toNat := by
        cases Stmt.blockClashes positive <;> cases Stmt.blockClashes negative <;> decide
      simp only [openings_delimiter] at hPositive hNegative
      cases negative with
      | nil =>
          have hPositive := hPositive rest
          simp [Stmt.kinds, Stmt.calls, Stmt.clashes, Stmt.endsWithVariable, contact,
            Expr.openings_conditionKinds, Stmt.blockCalls, Stmt.blockClashes]
          omega
      | cons next further =>
          have hPositive := hPositive (.keyword .otherwise :: .delimiter .openBrace ::
            (Stmt.blockKinds (next :: further) ++ .delimiter .closeBrace :: rest))
          simp only [openings_keyword, openings_delimiter] at hPositive
          simp [Stmt.kinds, Stmt.calls, Stmt.clashes, Stmt.endsWithVariable, contact,
            Expr.openings_conditionKinds]
          omega
  | .yield value | .evaluate value =>
      simp [Stmt.kinds, Stmt.calls, Stmt.clashes, Stmt.endsWithVariable, Expr.openings_kinds]

/-- So a printed block in which neighbours touch has more openings than its tree has calls, and
cannot be read back. -/
theorem Stmt.le_openings_blockKinds (block : Block) (rest : Kinds) :
    Stmt.blockCalls block + (Stmt.blockClashes block).toNat + openings rest ≤
      openings (Stmt.blockKinds block ++ rest) := by
  match block with
  | [] => simp [Stmt.blockCalls, Stmt.blockKinds, Stmt.blockClashes]
  | stmt :: others =>
      have hStmt := Stmt.le_openings_kinds stmt (Stmt.blockKinds others ++ rest)
      have hOthers := Stmt.le_openings_blockKinds others rest
      have hContact : (stmt.touches others).toNat ≤
          contact stmt.endsWithVariable (Stmt.blockKinds others ++ rest) := by
        cases hTouches : stmt.touches others with
        | false => exact Nat.zero_le _
        | true => exact Nat.le_of_eq (Stmt.contact_blockKinds hTouches).symm
      have hAny : (stmt.clashes || stmt.touches others || Stmt.blockClashes others).toNat ≤
          stmt.clashes.toNat + (stmt.touches others).toNat + (Stmt.blockClashes others).toNat := by
        cases stmt.clashes <;> cases stmt.touches others <;> cases Stmt.blockClashes others <;> decide
      rw [Stmt.blockKinds, List.append_assoc, Stmt.blockCalls, Stmt.blockClashes]
      omega

end

/-- The tokens of a printed program in which neighbours touch do not derive it: they hold one more
identifier before an opening parenthesis than the program has calls and functions. -/
theorem Stmt.not_derives_of_clashes {block : Block} (hClashes : block.clashes) :
    ¬ Statements unopened (Stmt.blockKinds block) block [] := by
  intro hDerives
  have hExact := hDerives.openings_eq
  have hMore := Stmt.le_openings_blockKinds block []
  rw [Block.clashes] at hClashes
  rw [List.append_nil, hClashes, Bool.toNat_true] at hMore
  omega

end IntScript
