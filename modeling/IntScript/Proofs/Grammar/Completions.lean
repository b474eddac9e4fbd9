import IntScript.Proofs.Grammar.Foresight

/-! Every reader can be brought to its end: some tokens complete what it has to read, whatever it has
read before, and they are ones that may stand behind an expression or a statement. -/
namespace IntScript.Parser

namespace Reader

variable {α : Type} {starts ends : Rest}

/-- One more token brings a reader to its end. -/
theorem completes_one {reader : Reader α} {value : α} (kind : TokenKind Name)
    (hKind : kind ≠ .endOfFile) (hStarts : ∀ after, starts (⟨kind, .origin⟩ :: after))
    (h : ∀ stop after, ends after → reader stop (⟨kind, .origin⟩ :: after) = .ok (value, after)) :
    Completes starts ends reader := by
  refine ⟨[⟨kind, .origin⟩], value, fun token hToken => ?_, fun stop after hAfter => ?_⟩
  · rw [List.mem_singleton.mp hToken]
    exact hKind
  · exact ⟨hStarts after, h stop after hAfter⟩

/-- A reader that may stop at once. -/
theorem completes_none {reader : Reader α} {value : α}
    (h : ∀ stop after, ends after → reader stop after = .ok (value, after)) :
    Completes ends ends reader := by
  refine ⟨[], value, fun token hToken => ?_, fun stop after hAfter => ⟨hAfter, h stop after hAfter⟩⟩
  exact (List.not_mem_nil hToken).elim

/-- An operand is enough after each operator, and none need be added after the last. -/
theorem completes_operations (level : Nat) (left : Expr) :
    Completes Settled Settled (operations level left) :=
  completes_none (fun stop _ hAfter => operations_done (operatorAt_settled hAfter _) left stop)

/-- Whatever remains, an integer can stand for the operand that is wanted. -/
theorem completes_operand (level : Nat) : Completes Settled Settled (operand level) :=
  completes_one (.integer 0) nofun (settled_cons rfl) (fun stop after hAfter =>
    operand_of_primary (primary_integer stop _ 0 after) (operatorAt_settled hAfter) level)

theorem completes_expression : Completes Settled Settled expression :=
  completes_operand BinaryOp.loosest

/-- The delimiter itself is what has to be supplied. -/
theorem completes_delimiter (expected : Delimiter) :
    Completes Anything ends (delimiter expected) :=
  completes_one (.delimiter expected) nofun (fun _ => trivial) (fun stop after _ =>
    delimiter_same expected stop _ after)

theorem completes_identifier (role : IdentifierRole) :
    Completes Anything ends (identifier role) :=
  completes_one (.identifier .empty) nofun (fun _ => trivial) (fun stop after _ =>
    identifier_same role stop _ .empty after)

/-- The parenthesis that is still open can always be supplied. -/
theorem completes_closing (opened : Span) :
    Completes Settled ends (closing .closeParen .openParen opened) :=
  completes_one (.delimiter .closeParen) nofun (settled_cons rfl) (fun stop after _ =>
    delimiter_same .closeParen stop _ after)

theorem completes_enclosed (opened : Span) : Completes Settled ends (enclosed opened) :=
  completes_expression.andThen (fun _ => (completes_closing opened).map _)

theorem completes_separated (opened : Span) (further : Reader (List α)) (first : α) :
    Completes Settled ends (separated opened further first) :=
  completes_one (.delimiter .closeParen) nofun (settled_cons rfl) (fun stop after _ =>
    separated_close opened stop _ further first after)

theorem completes_arguments (opened : Span) : Completes Anything ends (arguments opened) :=
  completes_one (.delimiter .closeParen) nofun (fun _ => trivial) (fun stop after _ =>
    arguments_close stop opened _ after)

theorem completes_furtherArguments (opened : Span) :
    Completes Settled ends (furtherArguments opened) := by
  rw [furtherArguments_eq]
  exact completes_expression.andThen (completes_separated opened _)

theorem completes_parameters (opened : Span) : Completes Anything ends (parameters opened) :=
  completes_one (.delimiter .closeParen) nofun (fun _ => trivial) (fun stop after _ =>
    parameters_close stop opened _ after)

theorem completes_furtherParameters (opened : Span) :
    Completes Anything ends (furtherParameters opened) := by
  rw [furtherParameters_eq]
  exact (completes_identifier .parameterName).andThen fun name =>
    (completes_separated opened _ name).anywhere

theorem completes_condition : Completes Anything ends condition := by
  rw [condition_eq]
  exact (completes_delimiter .openParen).andThen fun opened =>
    (completes_enclosed opened).anywhere

/-- An open block can always be closed at once. -/
theorem completes_statements (opened : Span) : Completes Settled ends (statements opened) :=
  completes_one (.delimiter .closeBrace) nofun (settled_cons rfl) (fun stop after _ =>
    statements_close stop opened _ after)

theorem completes_block : Completes Settled ends block := by
  rw [block_eq]
  have hOpening : Completes Settled Settled (delimiter .openBrace) :=
    completes_one (.delimiter .openBrace) nofun (settled_cons rfl) (fun stop after _ =>
      delimiter_same .openBrace stop _ after)
  exact hOpening.andThen completes_statements

/-- Without `else` nothing is missing. -/
theorem completes_alternative (test : Expr) (positive : Block) :
    Completes Settled Settled (alternative test positive) :=
  completes_none (fun stop _ hAfter => alternative_done (otherFront_settled hAfter rfl) test positive stop)

theorem completes_semicolon (stmt : Stmt) : Completes Settled Settled (semicolon stmt) :=
  completes_none (fun stop _ hAfter => semicolon_other (otherFront_settled hAfter rfl) stmt stop)

/-- From the keyword on a name, two parentheses and a block are supplied. -/
theorem completes_function : Completes Anything Settled function :=
  (completes_identifier .functionName).andThen fun _ =>
    (completes_delimiter .openParen).andThen fun opened =>
      (completes_parameters opened).andThen fun _ => completes_block.map _

theorem completes_declaration : Completes Anything Settled declaration :=
  (completes_identifier .variableName).andThen fun _ =>
    (completes_delimiter .assign).andThen fun _ => (completes_expression.map _).anywhere

theorem completes_loop : Completes Anything Settled loop :=
  completes_condition.andThen fun _ => completes_block.map _

theorem completes_branch : Completes Anything Settled branch :=
  completes_condition.andThen fun test => completes_block.andThen (completes_alternative test)

/-- A program may be empty. -/
theorem completes_program : Completes Settled (· = []) program := by
  refine ⟨[], [], fun token hToken => (List.not_mem_nil hToken).elim, fun stop after hAfter => ?_⟩
  subst hAfter
  exact ⟨nofun, program_nil stop⟩

end Reader

end IntScript.Parser
