import IntScript.Proofs.Renaming.Parsing
import IntScript.Proofs.Renaming.Tables

/-! A source text means the same by way of two tables of names: reading it finds the same program or the same
error, and running the program comes to the same. -/
namespace IntScript

open Interner

namespace Lexer

def identifiers : List (Token String) → List String
  | [] => []
  | token :: tokens =>
      match token.kind with
      | .identifier text => text :: identifiers tokens
      | _ => identifiers tokens

theorem internTokens_table (tokens : List (Token String)) (table : Interner) :
    (internTokens tokens table).2 = (table.internAll (identifiers tokens)).2 := by
  induction tokens generalizing table with
  | nil => rfl
  | cons token tokens ih =>
      obtain ⟨kind, span⟩ := token
      cases kind <;> exact ih _

section

variable {table other last final : Interner} (hFits : last.size ≤ capacity) (hRoom : final.size ≤ capacity)

include hFits hRoom

/-- With tables that go on to grow, names given out early keep their texts. -/
theorem internTokens_like {tokens : List (Token String)}
    (hFirst : (internTokens tokens table).2.GrowsTo last)
    (hSecond : (internTokens tokens other).2.GrowsTo final) :
    List.Forall₂ (Token.Like (SameText last final)) (internTokens tokens table).1
      (internTokens tokens other).1 := by
  induction tokens generalizing table other with
  | nil => exact .nil
  | cons token tokens ih =>
      obtain ⟨kind, span⟩ := token
      refine .cons ?_ (ih hFirst hSecond)
      cases kind with
      | identifier text =>
          rw [internTokens_table] at hFirst hSecond
          have hName := sameText_intern ((growsTo_internAll _ _).trans hFirst) hFits
            ((growsTo_internAll _ _).trans hSecond) hRoom
          exact .mk (.identifier hName) span
      | keyword | delimiter | operator | integer | endOfFile => exact .mk (by constructor) span

end

end Lexer

/-- Also after an error: the identifiers read before it have been numbered. -/
theorem lex_table (source : String) (table : Interner) :
    (lex source table).2 =
      (table.internAll (Lexer.identifiers (Lexer.scan 0 source.toList).tokens)).2 := by
  rw [lex, ← Lexer.internTokens_table]
  simp only
  split <;> rfl

/-- The grammar numbers nothing. -/
theorem parseSource_table (source : String) (table : Interner) :
    (parseSource source table).2 =
      (table.internAll (Lexer.identifiers (Lexer.scan 0 source.toList).tokens)).2 :=
  lex_table source table

/-- The same tokens are found, or the same error. -/
theorem lex_like {table other last final : Interner} (hFits : last.size ≤ capacity)
    (hRoom : final.size ≤ capacity) (source : String) (hFirst : (lex source table).2.GrowsTo last)
    (hSecond : (lex source other).2.GrowsTo final) :
    OutcomeLike Eq (List.Forall₂ (Token.Like (SameText last final))) (lex source table).1
      (lex source other).1 := by
  rw [lex_table, ← Lexer.internTokens_table] at hFirst hSecond
  have hTokens := Lexer.internTokens_like hFits hRoom hFirst hSecond
  rw [lex, lex]
  cases (Lexer.scan 0 source.toList).error with
  | none => exact .ok hTokens
  | some error => exact .error rfl

section

variable {table other : Interner}

/-- Messages show the text of an identifier and not its number. -/
theorem Token.Like.describe {first second : Token Name}
    (h : first.Like (SameText table other) second) :
    ParseError.describe table first = ParseError.describe other second := by
  obtain ⟨hKind, span⟩ := h
  cases hKind with
  | identifier paired => simp only [ParseError.describe, paired.lookup]
  | keyword | delimiter | operator | integer | endOfFile => rfl

theorem Token.Like.span {first second : Token Name} (h : first.Like (SameText table other) second) :
    first.span = second.span := by
  cases h
  rfl

/-- Errors about the same texts are reported the same. -/
theorem ParseError.Like.diagnostic {first second : ParseError}
    (h : first.Like (SameText table other) second) : first.diagnostic table = second.diagnostic other := by
  have hMessage : first.message table = second.message other := by
    unfold ParseError.message
    cases h with
    | unclosedDelimiter => rfl
    | expectedDelimiter expected sameFound | expectedExpression sameFound
    | expectedIdentifier role sameFound => simp only [sameFound.describe]
  have hSpan : first.span = second.span := by
    cases h with
    | unclosedDelimiter => rfl
    | expectedDelimiter expected sameFound | expectedExpression sameFound
    | expectedIdentifier role sameFound => exact sameFound.span
  rw [ParseError.diagnostic, ParseError.diagnostic, hMessage, hSpan]
  cases h <;> rfl

end

/-- A source is read as the same program by way of both tables, or it is refused with the same report. -/
theorem parseSource_like {table other last final : Interner} (hFits : last.size ≤ capacity)
    (hRoom : final.size ≤ capacity) (source : String)
    (hFirst : (parseSource source table).2.GrowsTo last)
    (hSecond : (parseSource source other).2.GrowsTo final) :
    OutcomeLike
      (fun error error' =>
        error.diagnostic (parseSource source table).2 = error'.diagnostic (parseSource source other).2)
      (Block.Like (SameText last final)) (parseSource source table).1 (parseSource source other).1 := by
  change (lex source table).2.GrowsTo last at hFirst
  change (lex source other).2.GrowsTo final at hSecond
  have hTokens := lex_like hFits hRoom source hFirst hSecond
  -- A report is made with the table as it is after reading, not with what it grows to later.
  have hReported := lex_like (Nat.le_trans hFirst.size hFits) (Nat.le_trans hSecond.size hRoom) source
    (GrowsTo.refl (lex source table).2) (GrowsTo.refl (lex source other).2)
  rw [parseSource, parseSource]
  generalize lex source table = read at hTokens hReported ⊢
  generalize lex source other = read' at hTokens hReported ⊢
  obtain ⟨found, names⟩ := read
  obtain ⟨found', names'⟩ := read'
  simp only at hTokens hReported ⊢
  cases hTokens with
  | @error error error' same =>
      refine .error ?_
      rw [same]
      rfl
  | @ok tokens others same =>
      cases hReported with
      | ok sameReported =>
          have hProgram := Parser.parse_like same
          have hRefused := Parser.parse_like sameReported
          simp only
          generalize parse tokens = program at hProgram hRefused ⊢
          generalize parse others = program' at hProgram hRefused ⊢
          cases hProgram with
          | ok sameProgram => exact .ok sameProgram
          | error sameError =>
              cases hRefused with
              | error sameError => exact .error sameError.diagnostic

end IntScript
