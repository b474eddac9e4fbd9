import IntScript.Proofs.Grammar.Completeness
import IntScript.Proofs.Grammar.CorrectPrefix

/-! Parentheses and braces pair up in everything that the grammar derives. So when a text ends before a
pair is closed, the reader that notices it is that of the innermost open pair, whichever of the readers
that remember an opening delimiter it is. -/
namespace IntScript

namespace Grammar

/-- The delimiter that closes the pair which this one opens. -/
def partner? : Delimiter → Option Delimiter
  | .openParen => some .closeParen
  | .openBrace => some .closeBrace
  | _ => none

def isBracket : TokenKind Name → Bool
  | .delimiter .openParen | .delimiter .closeParen | .delimiter .openBrace
  | .delimiter .closeBrace => true
  | _ => false

/-- Every delimiter that opens a pair in the row is followed by the one that closes it, and the pairs do
not cross. -/
inductive Balanced : Kinds → Prop where
  | nil : Balanced []
  | plain {kind : TokenKind Name} {row : Kinds} (plain : isBracket kind = false)
      (others : Balanced row) : Balanced (kind :: row)
  | pair {opener closer : Delimiter} {row others : Kinds} (partners : partner? opener = some closer)
      (inner : Balanced row) (after : Balanced others) :
      Balanced (.delimiter opener :: (row ++ .delimiter closer :: others))

/-- What follows an opening delimiter closes the pair. -/
def Closes (opener : Delimiter) (row : Kinds) : Prop :=
  ∃ closer inner others, partner? opener = some closer ∧ Balanced inner ∧
    row = inner ++ .delimiter closer :: others

theorem isBracket_opener {opener closer : Delimiter} (h : partner? opener = some closer) :
    isBracket (.delimiter opener) = true := by
  cases opener <;> first | rfl | cases h

/-- No delimiter both opens and closes a pair. -/
theorem partner?_closer {opener closer : Delimiter} (h : partner? opener = some closer) :
    partner? closer = none := by
  cases opener <;> cases h <;> rfl

namespace Balanced

variable {row others front back : Kinds}

theorem append (h : Balanced row) (hOthers : Balanced others) : Balanced (row ++ others) := by
  induction h with
  | nil => exact hOthers
  | plain plain _ ih => exact .plain plain ih
  | @pair opener closer inner after partners hInner _ _ ih =>
      rw [List.cons_append, List.append_assoc, List.cons_append]
      exact .pair partners hInner ih

/-- Where a balanced row is cut, either nothing is open or the front ends in a balanced row after a
delimiter that is. -/
theorem cut (h : Balanced (front ++ back)) :
    Balanced front ∨ ∃ before opener after, front = before ++ .delimiter opener :: after ∧
      (partner? opener).isSome ∧ Balanced after := by
  generalize hRow : front ++ back = row at h
  induction h generalizing front back with
  | nil =>
      obtain ⟨rfl, -⟩ := List.append_eq_nil_iff.mp hRow
      exact Or.inl .nil
  | @plain kind row plain _ ih =>
      rcases List.append_eq_cons_iff.mp hRow with ⟨rfl, -⟩ | ⟨front, rfl, rfl⟩
      · exact Or.inl .nil
      · rcases ih rfl with hFront | ⟨before, opener, after, rfl, hOpener, hAfter⟩
        · exact Or.inl (.plain plain hFront)
        · exact Or.inr ⟨kind :: before, opener, after, rfl, hOpener, hAfter⟩
  | @pair opener closer inner others partners hInner _ ihInner ihOthers =>
      rcases List.append_eq_cons_iff.mp hRow with ⟨rfl, -⟩ | ⟨front, rfl, hRest⟩
      · exact Or.inl .nil
      have hOpener : (partner? opener).isSome := by rw [partners]; rfl
      rcases List.append_eq_append_iff.mp hRest.symm with ⟨rest, rfl, -⟩ | ⟨rest, rfl, hOthers⟩
      · rcases ihInner rfl with hFront | ⟨before, other, after, rfl, hOther, hAfter⟩
        · exact Or.inr ⟨[], opener, front, rfl, hOpener, hFront⟩
        · exact Or.inr ⟨.delimiter opener :: before, other, after, rfl, hOther, hAfter⟩
      rcases List.cons_eq_append_iff.mp hOthers with ⟨rfl, -⟩ | ⟨rest, rfl, hAfter⟩
      · exact Or.inr ⟨[], opener, inner ++ [], rfl, hOpener, hInner.append .nil⟩
      · rcases ihOthers hAfter.symm with hRest | ⟨before, other, after, rfl, hOther, hAfter⟩
        · exact Or.inl (.pair partners hInner hRest)
        · exact Or.inr ⟨.delimiter opener :: (inner ++ .delimiter closer :: before), other, after,
            by simp, hOther, hAfter⟩

/-- Every delimiter that opens a pair in a balanced row is closed there. -/
theorem closes {opener : Delimiter} (hOpener : (partner? opener).isSome)
    (h : Balanced (front ++ .delimiter opener :: back)) : Closes opener back := by
  generalize hRow : front ++ .delimiter opener :: back = row at h
  induction h generalizing front back with
  | nil => exact absurd (List.append_eq_nil_iff.mp hRow).2 (List.cons_ne_nil _ _)
  | plain plain _ ih =>
      rcases List.append_eq_cons_iff.mp hRow with ⟨-, hHere⟩ | ⟨front, -, hRest⟩
      · obtain ⟨closer, hCloser⟩ := Option.isSome_iff_exists.mp hOpener
        obtain ⟨rfl, -⟩ := List.cons.inj hHere
        rw [isBracket_opener hCloser] at plain
        cases plain
      · exact ih hRest.symm
  | @pair other closer inner others partners hInner _ ihInner ihOthers =>
      have hClosed : opener ≠ closer := by
        rintro rfl
        rw [partner?_closer partners] at hOpener
        cases hOpener
      rcases List.append_eq_cons_iff.mp hRow with ⟨-, hHere⟩ | ⟨front, -, hRest⟩
      · cases hHere
        exact ⟨closer, inner, others, partners, hInner, rfl⟩
      rcases List.append_eq_append_iff.mp hRest.symm with ⟨rest, rfl, hBack⟩ | ⟨rest, rfl, hOthers⟩
      · rcases List.cons_eq_append_iff.mp hBack with ⟨-, hHere⟩ | ⟨rest, rfl, rfl⟩
        · cases hHere
          exact absurd rfl hClosed
        · obtain ⟨partner, closed, after, hPartner, hBalanced, rfl⟩ := ihInner rfl
          exact ⟨partner, closed, after ++ .delimiter closer :: others, hPartner, hBalanced,
            List.append_assoc _ _ _⟩
      · rcases List.cons_eq_append_iff.mp hOthers with ⟨-, hHere⟩ | ⟨rest, rfl, hAfter⟩
        · cases hHere
          exact absurd rfl hClosed
        · exact ihOthers hAfter.symm

end Balanced

/-- The delimiters that are awaited after a token, the next one first. None may close but the next. -/
def expect (awaited : List Delimiter) : TokenKind Name → Option (List Delimiter)
  | .delimiter .openParen => some (.closeParen :: awaited)
  | .delimiter .openBrace => some (.closeBrace :: awaited)
  | .delimiter .closeParen => if awaited.head? = some .closeParen then some awaited.tail else none
  | .delimiter .closeBrace => if awaited.head? = some .closeBrace then some awaited.tail else none
  | _ => some awaited

/-- A token that is no bracket changes nothing in what is awaited. -/
theorem expect_plain {kind : TokenKind Name} (h : isBracket kind = false) (awaited : List Delimiter) :
    expect awaited kind = some awaited := by
  cases kind with
  | delimiter delimiter => cases delimiter <;> first | rfl | cases h
  | _ => rfl

theorem expect_opener {opener closer : Delimiter} (h : partner? opener = some closer)
    (awaited : List Delimiter) : expect awaited (.delimiter opener) = some (closer :: awaited) := by
  cases opener <;> cases h <;> rfl

/-- Only the delimiter that is awaited next is taken. -/
theorem expect_closer {opener closer : Delimiter} (h : partner? opener = some closer)
    (awaited : List Delimiter) : expect (closer :: awaited) (.delimiter closer) = some awaited := by
  cases opener <;> cases h <;> rfl

theorem expect_none {opener closer : Delimiter} (h : partner? opener = some closer) :
    expect [] (.delimiter closer) = none := by
  cases opener <;> cases h <;> rfl

/-- A scan passes a balanced row and awaits what it did before. -/
theorem Balanced.foldlM_expect {row : Kinds} (h : Balanced row) (awaited : List Delimiter) :
    row.foldlM expect awaited = some awaited := by
  induction h generalizing awaited with
  | nil => rfl
  | plain plain _ ih =>
      rw [List.foldlM_cons, expect_plain plain]
      exact ih awaited
  | @pair opener closer inner others partners _ _ ihInner ihOthers =>
      rw [List.foldlM_cons, expect_opener partners, Option.bind_eq_bind, Option.bind_some,
        List.foldlM_append, ihInner, Option.bind_eq_bind, Option.bind_some, List.foldlM_cons,
        expect_closer partners]
      exact ihOthers awaited

/-- Nothing in a balanced row closes a pair that was opened in front of it. -/
theorem Balanced.not_closes {opener : Delimiter} {row : Kinds} (h : Balanced row) :
    ¬ Closes opener row := by
  rintro ⟨closer, inner, others, hPartner, hInner, rfl⟩
  have hRow := h.foldlM_expect []
  rw [List.foldlM_append, hInner.foldlM_expect, Option.bind_eq_bind, Option.bind_some,
    List.foldlM_cons, expect_none hPartner] at hRow
  cases hRow

def Consumes (input rest : Kinds) : Prop :=
  ∃ read, input = read ++ rest ∧ Balanced read

namespace Consumes

variable {input middle rest : Kinds}

theorem refl (rest : Kinds) : Consumes rest rest :=
  ⟨[], rfl, .nil⟩

theorem trans (h : Consumes input middle) (hOthers : Consumes middle rest) : Consumes input rest := by
  obtain ⟨read, rfl, hRead⟩ := h
  obtain ⟨others, rfl, hOthers⟩ := hOthers
  exact ⟨read ++ others, (List.append_assoc _ _ _).symm, hRead.append hOthers⟩

theorem cons (h : Consumes input rest) {kind : TokenKind Name} (hKind : isBracket kind = false) :
    Consumes (kind :: input) rest := by
  obtain ⟨read, rfl, hRead⟩ := h
  exact ⟨kind :: read, rfl, .plain hKind hRead⟩

/-- What is consumed up to the closing delimiter is a pair once the opening one stands in front. -/
theorem pair {opener closer : Delimiter} (h : Consumes input (.delimiter closer :: rest))
    (partners : partner? opener = some closer) : Consumes (.delimiter opener :: input) rest := by
  obtain ⟨read, rfl, hRead⟩ := h
  exact ⟨.delimiter opener :: (read ++ [.delimiter closer]), by simp, .pair partners hRead .nil⟩

end Consumes

section

variable {follow : Follow}

mutual

/-- An expression is a balanced row. -/
theorem Operand.consumes {level : Nat} {input rest : Kinds} {expr : Expr}
    (h : Operand follow level input expr rest) : Consumes input rest := by
  match h with
  | .primary inner => exact inner.consumes
  | .joined left steps => exact left.consumes.trans steps.consumes

theorem Steps.consumes {level : Nat} {input rest : Kinds} {steps : List (BinaryOp × Expr)}
    (h : Steps follow level input steps rest) : Consumes input rest := by
  match h with
  | .nil _ rest => exact .refl rest
  | .cons known operand others => exact (operand.consumes.trans others.consumes).cons rfl

/-- Parentheses are opened and closed within the same operand. -/
theorem Primary.consumes {input rest : Kinds} {expr : Expr} (h : Primary follow input expr rest) :
    Consumes input rest := by
  match h with
  | .literal _ rest | .reference _ _ => exact (Consumes.refl _).cons rfl
  | .call _ inner => exact (inner.consumes.pair rfl).cons rfl
  | .group inner => exact inner.consumes.pair rfl

/-- What is consumed ends before the parenthesis, whose partner stands in front of the arguments and
is not among them. -/
theorem Arguments.consumes {input rest : Kinds} {values : List Expr}
    (h : Arguments follow input values rest) : Consumes input (.delimiter .closeParen :: rest) := by
  match h with
  | .none rest => exact .refl _
  | .some inner => exact inner.consumes

theorem Values.consumes {input rest : Kinds} {values : List Expr}
    (h : Values follow input values rest) : Consumes input (.delimiter .closeParen :: rest) := by
  match h with
  | .last inner => exact inner.consumes
  | .more inner others => exact inner.consumes.trans (others.consumes.cons rfl)

end

theorem Names.consumes {input rest : Kinds} {names : List Name} (h : Names input names rest) :
    Consumes input (.delimiter .closeParen :: rest) := by
  induction h with
  | last name rest => exact (Consumes.refl _).cons rfl
  | more name _ ih => exact (ih.cons rfl).cons rfl

theorem Parameters.consumes {input rest : Kinds} {names : List Name}
    (h : Parameters input names rest) : Consumes input (.delimiter .closeParen :: rest) := by
  cases h with
  | none rest => exact .refl _
  | some inner => exact inner.consumes

theorem Condition.consumes {input rest : Kinds} {expr : Expr} (h : Condition follow input expr rest) :
    Consumes input rest := by
  cases h with
  | group inner => exact inner.consumes.pair rfl

mutual

/-- Every bracket that a statement opens is closed in it. -/
theorem Statement.consumes {input rest : Kinds} {stmt : Stmt} (h : Statement follow input stmt rest) :
    Consumes input rest := by
  match h with
  | .function name parameters inner =>
      exact (((parameters.consumes.pair rfl).trans inner.consumes).cons rfl).cons rfl
  | .declare name inner => exact ((inner.consumes.cons rfl).cons rfl).cons rfl
  | .loop condition inner | .branch condition inner =>
      exact (condition.consumes.trans inner.consumes).cons rfl
  | .otherwise condition first second =>
      exact (condition.consumes.trans (first.consumes.trans (second.consumes.cons rfl))).cons rfl
  | .assign name inner => exact (inner.consumes.cons rfl).cons rfl
  | .yield inner => exact inner.consumes.cons rfl
  | .evaluate inner => exact inner.consumes

theorem Braced.consumes {input rest : Kinds} {block : Block} (h : Braced follow input block rest) :
    Consumes input rest := by
  match h with
  | .group inner => exact inner.consumes.pair rfl

theorem Statements.consumes {input rest : Kinds} {block : Block}
    (h : Statements follow input block rest) : Consumes input rest := by
  match h with
  | .nil rest => exact .refl rest
  | .semicolon others => exact others.consumes.cons rfl
  | .cons first others => exact first.consumes.trans others.consumes

end

/-- The tokens of a program are a balanced row. -/
theorem Program.balanced {input : Kinds} {block : Block} (h : Program follow input block) :
    Balanced input := by
  obtain ⟨read, rfl, hRead⟩ := Statements.consumes h
  rwa [List.append_nil]

end

end Grammar

namespace Parser

open Grammar

theorem nest_plain {token : Token Name} (h : isBracket token.kind = false) (before : List (Token Name)) :
    nest before token = before := by
  obtain ⟨kind, span⟩ := token
  cases kind with
  | delimiter delimiter => cases delimiter <;> first | rfl | cases h
  | _ => rfl

theorem nest_opener {opener : Delimiter} (h : (partner? opener).isSome) (span : Span)
    (before : List (Token Name)) : nest before (opening opener span) = opening opener span :: before := by
  cases opener <;> first | rfl | cases h

/-- A closing delimiter takes the innermost open one off, whether or not that is its partner. -/
theorem nest_closer {opener closer : Delimiter} (h : partner? opener = some closer) (span : Span)
    (before : List (Token Name)) : nest before ⟨.delimiter closer, span⟩ = before.tail := by
  cases opener <;> cases h <;> rfl

/-- The open delimiters are carried along from the left. -/
theorem unclosed_cons (before : List (Token Name)) (token : Token Name) (tokens : Tokens) :
    unclosed before (token :: tokens) = unclosed (nest before token) tokens :=
  rfl

/-- Balanced tokens leave open what was open in front of them. -/
theorem unclosed_of_balanced {tokens : Tokens} (h : Balanced (kinds tokens))
    (before : List (Token Name)) : unclosed before tokens = before := by
  generalize hKinds : kinds tokens = row at h
  induction h generalizing tokens before with
  | nil =>
      rw [List.map_eq_nil_iff.mp hKinds]
      rfl
  | plain plain _ ih =>
      obtain ⟨span, tokens, rfl, hTokens⟩ := kinds_eq_cons hKinds
      rw [unclosed_cons, nest_plain plain, ih before hTokens]
  | @pair opener closer inner others partners _ _ ihInner ihOthers =>
      obtain ⟨opened, tokens, rfl, hTokens⟩ := kinds_eq_cons hKinds
      obtain ⟨first, second, rfl, hFirst, hSecond⟩ := List.map_eq_append_iff.mp hTokens
      obtain ⟨closed, third, rfl, hThird⟩ := kinds_eq_cons hSecond
      rw [unclosed_cons, nest_opener (Option.isSome_of_eq_some partners), unclosed_append,
        ihInner _ hFirst, unclosed_cons, nest_closer partners, List.tail_cons, ihOthers before hThird]

/-- The place is that of the first token for the end of the text or, where there is none, the one right
after the last token. -/
inductive AtEnd : List (Token Name) → Span → Prop where
  | marked {front : List (Token Name)} (supplied : ∀ token ∈ front, token.kind ≠ .endOfFile)
      (span : Span) (rest : List (Token Name)) : AtEnd (front ++ ⟨.endOfFile, span⟩ :: rest) span
  | last {front : List (Token Name)} {token : Token Name}
      (supplied : ∀ other ∈ front ++ [token], other.kind ≠ .endOfFile) :
      AtEnd (front ++ [token]) (Span.emptyAt token.span.limit)

/-- A list that holds any token has a place for the end of the text. -/
theorem atEnd_stopSpan {tokens : List (Token Name)} (h : tokens ≠ []) : AtEnd tokens (stopSpan tokens) := by
  cases hFind : tokens.find? (fun token => token.kind == .endOfFile) with
  | some token =>
      obtain ⟨hKind, front, rest, rfl, hFront⟩ := List.find?_eq_some_iff_append.mp hFind
      obtain ⟨kind, span⟩ := token
      obtain rfl : kind = .endOfFile := by simpa using hKind
      rw [stopSpan, hFind]
      exact .marked (by simpa using hFront) span rest
  | none =>
      rcases List.eq_nil_or_concat tokens with rfl | ⟨front, token, rfl⟩
      · exact absurd rfl h
      rw [stopSpan, hFind, List.concat_eq_append, List.getLast?_concat]
      refine .last (fun other hOther => ?_)
      simpa using List.find?_eq_none.mp hFind other (by simpa using hOther)

/-- All tokens before the end have been read when a pair is found to be left open, and they begin a
balanced row. -/
theorem exists_balanced_of_unclosed {tokens : List (Token Name)} {error : ParseError} {opener : Token Name}
    (h : parse tokens = .error error) (hOpener : error.opener? = some opener) :
    error.span = stopSpan tokens ∧ (unclosed [] (relevant tokens)).head? = some opener ∧
      ∃ more, Balanced (kinds (relevant tokens) ++ more) := by
  rw [parse_eq_error_iff] at h
  obtain ⟨read, ahead, hRelevant, hFound, hUnclosed, hMore, -⟩ :=
    (Reader.foresees_program (stopSpan tokens) (relevant tokens)).refused error h
  obtain ⟨rfl, hHead⟩ := hUnclosed opener hOpener
  rw [List.append_nil] at hRelevant
  subst hRelevant
  have hSome : relevant tokens ≠ [] := by
    intro hNone
    rw [hNone] at hHead
    cases hHead
  obtain ⟨more, block, hSupplied, hReads⟩ := hMore hSome
  have hBlock := (hReads (stopSpan (relevant tokens ++ more)) [] rfl).2
  rw [List.append_nil] at hBlock
  have hAll (token : Token Name) (hToken : token ∈ relevant tokens ++ more) : token.kind ≠ .endOfFile :=
    (List.mem_append.mp hToken).elim kind_of_mem_relevant (hSupplied token)
  have hProgram := (parse_eq_ok_iff _ block).mp (parse_of_program hAll hBlock)
  rw [← kinds_relevant, relevant_of_supplied hAll, kinds, List.map_append] at hProgram
  refine ⟨?_, hHead, kinds more, hProgram.balanced⟩
  rw [← error.found_span, hFound]
  rfl

/-- That a pair is not closed is found at the end of the text. The report is about the last delimiter of
those before the end whose pair is not closed: the pairs that are opened after it are all closed. -/
theorem parse_unclosed_innermost {tokens : List (Token Name)} {error : ParseError}
    (h : parse tokens = .error error) (hCode : error.code = .unclosedDelimiter) :
    AtEnd tokens error.span ∧
      ∃ before opener sign opened after,
        relevant tokens = before ++ ⟨.delimiter opener, opened⟩ :: after ∧
        (opener, sign) ∈ [(.openParen, "("), (.openBrace, "\x7b")] ∧
        ¬ Closes opener (kinds after) ∧
        (∀ front later span rest, after = front ++ ⟨.delimiter later, span⟩ :: rest →
          (partner? later).isSome → Closes later (kinds rest)) ∧
        error.related? = some (opened, "`" ++ sign ++ "` opened here") ∧
        ∀ names, error.message names = "unclosed delimiter `" ++ sign ++ "`" := by
  cases error with
  | expectedDelimiter | expectedExpression | expectedIdentifier => cases hCode
  | unclosedDelimiter opener opened limit =>
      obtain ⟨hSpan, hHead, more, hBalanced⟩ := exists_balanced_of_unclosed h rfl
      have hSome : tokens ≠ [] := by
        rintro rfl
        cases hHead
      refine ⟨hSpan ▸ atEnd_stopSpan hSome, ?_⟩
      rcases hBalanced.cut with hClosed | ⟨front, other, back, hRow, hOther, hAfter⟩
      · rw [unclosed_of_balanced hClosed] at hHead
        cases hHead
      obtain ⟨before, rest, hRelevant, rfl, hRest⟩ := List.map_eq_append_iff.mp hRow
      obtain ⟨span, after, rfl, rfl⟩ := kinds_eq_cons hRest
      rw [hRelevant, unclosed_append, unclosed_cons, nest_opener hOther, unclosed_of_balanced hAfter]
        at hHead
      cases hHead
      have hNested (front : Tokens) (later : Delimiter) (span : Span) (rest : Tokens)
          (hSplit : after = front ++ ⟨.delimiter later, span⟩ :: rest) (hLater : (partner? later).isSome) :
          Closes later (kinds rest) := by
        rw [hSplit, kinds, List.map_append] at hAfter
        exact hAfter.closes hLater
      refine ⟨before, opener, opener.spelling, opened, after, hRelevant, ?_, hAfter.not_closes, hNested,
        rfl, fun names => rfl⟩
      cases opener <;> first | decide | cases hOther

/-- After `if(f((1)` two pairs are open. The report is about that of the call, and not about the last pair
of the text, which is closed. -/
theorem parse_unclosed_innermost_openCall :
    let tokens : List (Token Name) :=
      [⟨.keyword .branch, ⟨0, 2⟩⟩, ⟨.delimiter .openParen, ⟨2, 3⟩⟩, ⟨.identifier ⟨8⟩, ⟨3, 4⟩⟩,
        ⟨.delimiter .openParen, ⟨4, 5⟩⟩, ⟨.delimiter .openParen, ⟨5, 6⟩⟩, ⟨.integer 1, ⟨6, 7⟩⟩,
        ⟨.delimiter .closeParen, ⟨7, 8⟩⟩, ⟨.endOfFile, ⟨8, 8⟩⟩]
    let error : ParseError := .unclosedDelimiter .openParen ⟨4, 5⟩ ⟨8, 8⟩
    parse tokens = .error error ∧ error.code = .unclosedDelimiter ∧
      AtEnd tokens error.span ∧
      ∃ before opener sign opened after,
        relevant tokens = before ++ ⟨.delimiter opener, opened⟩ :: after ∧
        (opener, sign) ∈ [(.openParen, "("), (.openBrace, "\x7b")] ∧
        ¬ Closes opener (kinds after) ∧
        (∀ front later span rest, after = front ++ ⟨.delimiter later, span⟩ :: rest →
          (partner? later).isSome → Closes later (kinds rest)) ∧
        error.related? = some (opened, "`" ++ sign ++ "` opened here") ∧
        ∀ names, error.message names = "unclosed delimiter `" ++ sign ++ "`" := by
  have hError : parse [⟨.keyword .branch, ⟨0, 2⟩⟩, ⟨.delimiter .openParen, ⟨2, 3⟩⟩,
      ⟨.identifier ⟨8⟩, ⟨3, 4⟩⟩, ⟨.delimiter .openParen, ⟨4, 5⟩⟩, ⟨.delimiter .openParen, ⟨5, 6⟩⟩,
      ⟨.integer 1, ⟨6, 7⟩⟩, ⟨.delimiter .closeParen, ⟨7, 8⟩⟩, ⟨.endOfFile, ⟨8, 8⟩⟩] =
      .error (.unclosedDelimiter .openParen ⟨4, 5⟩ ⟨8, 8⟩) := by cbv
  exact ⟨hError, rfl, parse_unclosed_innermost hError rfl⟩

end Parser

end IntScript
