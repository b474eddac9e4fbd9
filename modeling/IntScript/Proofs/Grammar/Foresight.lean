import IntScript.Proofs.Grammar.Readers

/-! What the tokens read so far tell about the rest. A reader foresees its outcome if an error depends
on no token after the one it is found at, if the tokens before that one still have a continuation, and
if a value depends on nothing after the tokens it was read from but on how the rest begins. -/
namespace IntScript

namespace ParseError

/-- The token that the error was found at. -/
def found : ParseError → Token Name
  | expectedDelimiter _ found => found
  | expectedExpression found => found
  | unclosedDelimiter _ _ limit => ⟨.endOfFile, limit⟩
  | expectedIdentifier _ found => found

/-- An error is reported where the token stands at which it was found. -/
theorem found_span (error : ParseError) : error.found.span = error.span := by
  cases error <;> rfl

def opener? : ParseError → Option (Token Name)
  | unclosedDelimiter opener opened _ => some ⟨.delimiter opener, opened⟩
  | _ => none

end ParseError

namespace Parser

variable {α β : Type}

/-- The delimiters that are open after a token, the innermost first. -/
def nest (before : List (Token Name)) (token : Token Name) : List (Token Name) :=
  match token.kind with
  | .delimiter .openParen | .delimiter .openBrace => token :: before
  | .delimiter .closeParen | .delimiter .closeBrace => before.tail
  | _ => before

/-- The delimiters that are open after some tokens, the innermost first. -/
def unclosed (before : List (Token Name)) (tokens : Tokens) : List (Token Name) :=
  tokens.foldl nest before

abbrev opening (delimiter : Delimiter) (span : Span) : Token Name :=
  ⟨.delimiter delimiter, span⟩

/-- Operators leave everything open that was so. -/
theorem unclosed_operator {before : List (Token Name)} {token : Token Name} {rest : Tokens}
    {level : Nat} {op : BinaryOp} (h : operatorAt level (token :: rest) = some op) :
    unclosed before [token] = before := by
  obtain ⟨span, others, hTokens, _⟩ := (operatorAt_eq_some_iff _ _ _).mp h
  cases hTokens
  rfl

theorem unclosed_append (before : List (Token Name)) (tokens others : Tokens) :
    unclosed before (tokens ++ others) = unclosed (unclosed before tokens) others :=
  List.foldl_append

/-- Whether a token may go on with a statement or an expression that could also end before it. -/
def goesOn : TokenKind Name → Bool
  | .operator _ | .delimiter .openParen | .delimiter .assign | .delimiter .semicolon
  | .keyword .otherwise => true
  | _ => false

abbrev Rest := Tokens → Prop

def Anything : Rest :=
  fun _ => True

/-- Nothing in front goes on with what was read. -/
def Settled : Rest :=
  fun rest => ∀ token ∈ rest.head?, goesOn token.kind = false

theorem settled_cons {token : Token Name} (h : goesOn token.kind = false) (rest : Tokens) :
    Settled (token :: rest) := by
  intro front hFront
  cases hFront
  exact h

/-- The rows begin with the same token, or both are at their ends and those have the same place. -/
inductive SameFront : Span → Tokens → Span → Tokens → Prop where
  | nil (stop : Span) : SameFront stop [] stop []
  | cons (stop stop' : Span) (token : Token Name) (rest rest' : Tokens) :
      SameFront stop (token :: rest) stop' (token :: rest')

/-- The second row begins like the first, or it is one that may follow. -/
def Again (ends : Rest) (stop : Span) (rest : Tokens) (stop' : Span) (rest' : Tokens) : Prop :=
  SameFront stop rest stop' rest' ∨ ends rest'

namespace SameFront

variable {stop stop' : Span} {tokens others : Tokens}

theorem current_eq (h : SameFront stop tokens stop' others) :
    current stop tokens = current stop' others := by
  cases h <;> rfl

theorem refl (stop : Span) (tokens : Tokens) : SameFront stop tokens stop tokens := by
  cases tokens with
  | nil => exact .nil stop
  | cons token rest => exact .cons stop stop token rest rest

theorem otherFront {kind : TokenKind Name} (h : SameFront stop tokens stop' others)
    (hOther : OtherFront kind tokens) : OtherFront kind others := by
  cases h <;> exact hOther

theorem append (h : SameFront stop tokens stop' others) (read : Tokens) :
    SameFront stop (read ++ tokens) stop' (read ++ others) := by
  cases read with
  | nil => exact h
  | cons token read => exact .cons stop stop' token _ _

/-- Once any token has been read, whatever comes behind it, the fronts are the same. -/
theorem of_read {read : Tokens} (h : read ≠ []) (stop stop' : Span) (tokens others : Tokens) :
    SameFront stop (read ++ tokens) stop' (read ++ others) := by
  obtain ⟨token, read, rfl⟩ := List.exists_cons_of_ne_nil h
  exact .cons stop stop' token _ _

end SameFront

/-- What has been read may be put in front of both rows. -/
theorem Again.append {ends ends' : Rest} {stop stop' : Span} {rest rest' : Tokens}
    (h : Again ends stop rest stop' rest') (hEnds : ∀ after, ends after → ends' after)
    (read : Tokens) : Again ends' stop (read ++ rest) stop' (read ++ rest') := by
  rcases h with hSame | hEnd
  · exact Or.inl (hSame.append read)
  · by_cases hRead : read = []
    · subst hRead
      exact Or.inr (hEnds rest' hEnd)
    · exact Or.inl (.of_read hRead stop stop' rest rest')

/-- An operator would go on with the expression, whatever its level is. -/
theorem operatorAt_settled {rest : Tokens} (h : Settled rest) (level : Nat) :
    operatorAt level rest = none := by
  rw [operatorAt_eq_none_iff]
  intro op span others hRest
  subst hRest
  cases h _ rfl

/-- No row that may come instead brings an operator that was not there. -/
theorem operatorAt_again {stop stop' : Span} {rest rest' : Tokens} {level : Nat}
    (h : Again Settled stop rest stop' rest') (hAt : operatorAt level rest = none) :
    operatorAt level rest' = none := by
  rcases h with hFront | hSettled
  · cases hFront <;> exact hAt
  · exact operatorAt_settled hSettled level

/-- What goes on with a statement is not in front of what may follow one. -/
theorem otherFront_settled {kind : TokenKind Name} {rest : Tokens} (h : Settled rest)
    (hKind : goesOn kind = true) : OtherFront kind rest := by
  rintro token hToken rfl
  rw [h token hToken] at hKind
  cases hKind

/-- The same for a comma, an `else` or whatever else could go on. -/
theorem otherFront_again {kind : TokenKind Name} {stop stop' : Span} {rest rest' : Tokens}
    (hKind : goesOn kind = true) (h : Again Settled stop rest stop' rest')
    (hOther : OtherFront kind rest) : OtherFront kind rest' := by
  rcases h with hFront | hSettled
  · exact hFront.otherFront hOther
  · exact otherFront_settled hSettled hKind

/-- Some tokens are read to a value, whatever follows them, and together with what follows they may
follow others themselves. -/
def Completes (starts ends : Rest) (reader : Reader α) : Prop :=
  ∃ more value, (∀ token ∈ more, token.kind ≠ .endOfFile) ∧
    ∀ stop after, ends after →
      starts (more ++ after) ∧ reader stop (more ++ after) = .ok (value, after)

/-- The reader after some tokens have been given to it. -/
def Reader.after (reader : Reader α) (read : Tokens) : Reader α :=
  fun stop tokens => reader stop (read ++ tokens)

theorem Reader.after_append (reader : Reader α) (read further : Tokens) :
    reader.after (read ++ further) = (reader.after read).after further := by
  funext stop tokens
  rw [Reader.after, List.append_assoc]
  rfl

/-- What follows need not be asked about where nothing was promised of it. -/
theorem Completes.anywhere {starts ends : Rest} {reader : Reader α}
    (h : Completes starts ends reader) : Completes Anything ends reader := by
  obtain ⟨more, value, hSupplied, hReads⟩ := h
  exact ⟨more, value, hSupplied, fun stop after hAfter => ⟨trivial, (hReads stop after hAfter).2⟩⟩

/-- The tokens that complete the second reader have to be such that the first one can stop before
them. -/
theorem Completes.andThen {starts between ends : Rest} {first : Reader α} {next : α → Reader β}
    (hFirst : Completes starts between first) (hNext : ∀ value, Completes between ends (next value)) :
    Completes starts ends (first.andThen next) := by
  obtain ⟨more, value, hSupplied, hReads⟩ := hFirst
  obtain ⟨further, result, hFurther, hResult⟩ := hNext value
  refine ⟨more ++ further, result, ?_, fun stop after hAfter => ?_⟩
  · intro token hToken
    rcases List.mem_append.mp hToken with hMem | hMem
    · exact hSupplied token hMem
    · exact hFurther token hMem
  · obtain ⟨hBetween, hResult⟩ := hResult stop after hAfter
    obtain ⟨hStart, hFound⟩ := hReads stop (further ++ after) hBetween
    rw [List.append_assoc]
    refine ⟨hStart, ?_⟩
    rw [Reader.andThen, hFound]
    exact hResult

theorem completes_done (ends : Rest) (value : α) : Completes ends ends (Reader.done value) :=
  ⟨[], value, fun _ hToken => (List.not_mem_nil hToken).elim, fun _ _ hAfter => ⟨hAfter, rfl⟩⟩

theorem Completes.map {starts ends : Rest} {reader : Reader α} (h : Completes starts ends reader)
    (f : α → β) : Completes starts ends (reader.map f) :=
  h.andThen (fun value => completes_done ends (f value))

/-- What a reader that is given some tokens tells about the rest. `before` are the delimiters that
were open in front of the tokens, and `left` those that are open after a value. -/
structure Foresees (before : List (Token Name)) (reader : Reader α) (left : α → List (Token Name))
    (ends : Rest) (stop : Span) (tokens : Tokens) : Prop where
  found : ∀ value rest, reader stop tokens = .ok (value, rest) →
    ∃ read, tokens = read ++ rest ∧ unclosed before read = left value ∧
      ∀ stop' rest', Again ends stop rest stop' rest' →
        reader stop' (read ++ rest') = .ok (value, rest')
  refused : ∀ error, reader stop tokens = .error error →
    ∃ read ahead, tokens = read ++ ahead ∧ error.found = current stop ahead ∧
      (∀ opener, error.opener? = some opener →
        ahead = [] ∧ (unclosed before read).head? = some opener) ∧
      (read ≠ [] → Completes Anything ends (reader.after read)) ∧
      ∀ stop' ahead', SameFront stop ahead stop' ahead' →
        reader stop' (read ++ ahead') = .error error

section

variable {before : List (Token Name)} {reader : Reader α} {left : α → List (Token Name)}
  {ends : Rest} {stop : Span} {tokens : Tokens}

/-- These tokens are read, whatever follows them. -/
theorem Foresees.take {value : α} (read : Tokens) (hLeft : unclosed before read = left value)
    (h : ∀ stop' rest', Again ends stop tokens stop' rest' →
      reader stop' (read ++ rest') = .ok (value, rest')) :
    Foresees before reader left ends stop (read ++ tokens) := by
  have hHere := h stop tokens (Or.inl (.refl stop tokens))
  constructor
  · intro found rest hFound
    rw [hHere] at hFound
    cases hFound
    exact ⟨read, rfl, hLeft, h⟩
  · intro error hError
    rw [hHere] at hError
    cases hError

/-- Reading gives up in front of the tokens. -/
theorem Foresees.refuse (error : ParseError) (hFound : error.found = current stop tokens)
    (hOpener : ∀ opener, error.opener? = some opener → tokens = [] ∧ before.head? = some opener)
    (h : ∀ stop' tokens', SameFront stop tokens stop' tokens' →
      reader stop' tokens' = .error error) :
    Foresees before reader left ends stop tokens := by
  have hHere := h stop tokens (.refl stop tokens)
  constructor
  · intro value rest hValue
    rw [hHere] at hValue
    cases hValue
  · intro other hOther
    rw [hHere] at hOther
    cases hOther
    exact ⟨[], tokens, rfl, hFound, hOpener, fun hRead => (hRead rfl).elim, h⟩

/-- The tokens end before the innermost delimiter is closed. -/
theorem Foresees.refuse_unclosed {opener : Delimiter} {opened : Span}
    (h : reader stop [] = .error (.unclosedDelimiter opener opened stop)) :
    Foresees (opening opener opened :: before) reader left ends stop [] := by
  refine .refuse (.unclosedDelimiter opener opened stop) rfl ?_ ?_
  · intro delimiter hDelimiter
    cases hDelimiter
    exact ⟨rfl, rfl⟩
  · intro stop' tokens' hFront
    cases hFront
    exact h

/-- Some tokens are read, and another reader goes on. -/
theorem Foresees.advance {inner : Reader α} (read : Tokens) (hRead : reader.after read = inner)
    (h : Foresees (unclosed before read) inner left ends stop tokens)
    (hDone : Completes Anything ends inner) :
    Foresees before reader left ends stop (read ++ tokens) := by
  subst hRead
  constructor
  · intro value rest hValue
    obtain ⟨further, rfl, hLeft, hAgain⟩ := h.found value rest hValue
    refine ⟨read ++ further, (List.append_assoc _ _ _).symm, ?_, fun stop' rest' hRest => ?_⟩
    · rw [unclosed_append, hLeft]
    · rw [List.append_assoc]
      exact hAgain stop' rest' hRest
  · intro error hError
    obtain ⟨further, ahead, rfl, hFound, hOpener, hMore, hSame⟩ := h.refused error hError
    refine ⟨read ++ further, ahead, (List.append_assoc _ _ _).symm, hFound, ?_, fun _ => ?_, ?_⟩
    · rw [unclosed_append]
      exact hOpener
    · by_cases hFurther : further = []
      · subst hFurther
        rw [List.append_nil]
        exact hDone
      · rw [Reader.after_append]
        exact hMore hFurther
    · intro stop' ahead' hAhead
      rw [List.append_assoc]
      exact hSame stop' ahead' hAhead

/-- Two readers that agree on what the tokens begin with, where the second reads a token at least. -/
theorem Foresees.of_front {other : Reader α} (h : Foresees before other left ends stop tokens)
    (hSame : ∀ stop' tokens', SameFront stop tokens stop' tokens' →
      reader stop' tokens' = other stop' tokens')
    (hReads : ∀ value rest, other stop tokens = .ok (value, rest) → rest.length < tokens.length) :
    Foresees before reader left ends stop tokens := by
  have hHere := hSame stop tokens (.refl stop tokens)
  constructor
  · intro value rest hValue
    rw [hHere] at hValue
    obtain ⟨read, rfl, hLeft, hAgain⟩ := h.found value rest hValue
    have hRead : read ≠ [] := by
      rintro rfl
      exact absurd (hReads value rest hValue) (Nat.lt_irrefl _)
    refine ⟨read, rfl, hLeft, fun stop' rest' hRest => ?_⟩
    rw [hSame stop' _ (.of_read hRead stop stop' rest rest')]
    exact hAgain stop' rest' hRest
  · intro error hError
    rw [hHere] at hError
    obtain ⟨read, ahead, rfl, hFound, hOpener, hMore, hAhead⟩ := h.refused error hError
    refine ⟨read, ahead, rfl, hFound, hOpener, fun hRead => ?_, fun stop' ahead' hFront => ?_⟩
    · obtain ⟨more, value, hSupplied, hReadsMore⟩ := hMore hRead
      refine ⟨more, value, hSupplied, fun stop' after hAfter => ⟨trivial, ?_⟩⟩
      rw [Reader.after, hSame stop' _ (.of_read hRead stop stop' ahead _)]
      exact (hReadsMore stop' after hAfter).2
    · rw [hSame stop' _ (hFront.append read)]
      exact hAhead stop' ahead' hFront

/-- Two readers in a row, where the second can come to an end on tokens that may follow the first. -/
theorem Foresees.andThen {between : α → List (Token Name)} {left : β → List (Token Name)}
    {middle : Rest} {next : α → Reader β} (hFirst : Foresees before reader between middle stop tokens)
    (hNext : ∀ value rest, reader stop tokens = .ok (value, rest) →
      Foresees (between value) (next value) left ends stop rest)
    (hDone : ∀ value, Completes middle ends (next value))
    (hEnds : ∀ after, ends after → middle after) :
    Foresees before (reader.andThen next) left ends stop tokens := by
  cases hResult : reader stop tokens with
  | error error =>
      have hHere : reader.andThen next stop tokens = .error error := by
        rw [Reader.andThen, hResult]
        rfl
      constructor
      · intro result rest hValue
        rw [hHere] at hValue
        cases hValue
      · intro other hOther
        rw [hHere] at hOther
        cases hOther
        obtain ⟨read, ahead, rfl, hFound, hOpener, hMore, hSame⟩ := hFirst.refused error hResult
        refine ⟨read, ahead, rfl, hFound, hOpener, fun hRead => ?_, fun stop' ahead' hFront => ?_⟩
        · exact (hMore hRead).andThen hDone
        · rw [Reader.andThen, hSame stop' ahead' hFront]
          rfl
  | ok found =>
      obtain ⟨value, rest⟩ := found
      obtain ⟨read, rfl, hBetween, hAgain⟩ := hFirst.found value rest hResult
      have hThen (stop' : Span) (rest' : Tokens) (h : Again middle stop rest stop' rest') :
          reader.andThen next stop' (read ++ rest') = next value stop' rest' := by
        rw [Reader.andThen, hAgain stop' rest' h]
        rfl
      have hHere := hThen stop rest (Or.inl (.refl stop rest))
      have hInner := hNext value rest hResult
      constructor
      · intro result last hValue
        rw [hHere] at hValue
        obtain ⟨further, rfl, hLeft, hAgain'⟩ := hInner.found result last hValue
        refine ⟨read ++ further, (List.append_assoc _ _ _).symm, ?_, fun stop' rest' hRest => ?_⟩
        · rw [unclosed_append, hBetween, hLeft]
        · rw [List.append_assoc, hThen stop' _ (hRest.append hEnds further)]
          exact hAgain' stop' rest' hRest
      · intro error hError
        rw [hHere] at hError
        obtain ⟨further, ahead, rfl, hFound, hOpener, hMore, hSame⟩ := hInner.refused error hError
        refine ⟨read ++ further, ahead, (List.append_assoc _ _ _).symm, hFound, ?_, fun _ => ?_, ?_⟩
        · rw [unclosed_append, hBetween]
          exact hOpener
        · by_cases hFurther : further = []
          · subst hFurther
            obtain ⟨more, result, hSupplied, hReads⟩ := hDone value
            refine ⟨more, result, hSupplied, fun stop' after hAfter => ⟨trivial, ?_⟩⟩
            obtain ⟨hMiddle, hResult⟩ := hReads stop' after hAfter
            rw [List.append_nil, Reader.after, hThen stop' _ (Or.inr hMiddle)]
            exact hResult
          · obtain ⟨more, result, hSupplied, hReads⟩ := hMore hFurther
            refine ⟨more, result, hSupplied, fun stop' after hAfter => ⟨trivial, ?_⟩⟩
            rw [Reader.after, List.append_assoc,
              hThen stop' _ (Or.inl (.of_read hFurther stop stop' ahead _))]
            exact (hReads stop' after hAfter).2
        · intro stop' ahead' hFront
          rw [List.append_assoc, hThen stop' _ (Or.inl (hFront.append further))]
          exact hSame stop' ahead' hFront

/-- A change to what is found changes nothing else. -/
theorem Foresees.map {left : List (Token Name)} {f : α → β}
    (h : Foresees before reader (fun _ => left) ends stop tokens) :
    Foresees before (reader.map f) (fun _ => left) ends stop tokens := by
  refine h.andThen (fun value rest _ => ?_) (fun value => completes_done ends (f value)) (fun _ => id)
  exact .take [] rfl (fun _ _ _ => rfl)

end

end Parser

end IntScript
