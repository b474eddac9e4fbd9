import IntScript.Proofs.Grammar.Readers

/-! Reading a list of tokens from place to place. The list may hold tokens for the end of the text anywhere,
or none at all; the walk stays at the first that it comes to, and behind the last token of the list it finds
one that is made up. It looks at the token at its place and at the one after that. Walks call each other, and
nothing says that they end: each is given with the depth of calls that it may use. -/
namespace IntScript

open IntScript.Parser

structure Cursor where
  tokens : List (Token Name)
  place : Nat

namespace Cursor

/-- The token that is found behind the last one. -/
def beyond (cursor : Cursor) : Token Name :=
  match cursor.tokens.getLast? with
  | some last => ⟨.endOfFile, Span.emptyAt last.span.limit⟩
  | none => ⟨.endOfFile, Span.origin⟩

def current (cursor : Cursor) : Token Name :=
  cursor.tokens[cursor.place]?.getD cursor.beyond

def next (cursor : Cursor) : Token Name :=
  cursor.tokens[cursor.place + 1]?.getD cursor.beyond

/-- A number of tokens further on. -/
def forward (cursor : Cursor) (count : Nat) : Cursor :=
  { cursor with place := cursor.place + count }

/-- Past the token at the place, unless it is one for the end. -/
def advance (cursor : Cursor) : Cursor :=
  if cursor.current.kind = .endOfFile then cursor else cursor.forward 1

/-- The tokens from the place on, up to the first one for the end. -/
def ahead (cursor : Cursor) : Tokens :=
  relevant (cursor.tokens.drop cursor.place)

/-- Where the walk ends: at the first token for the end, or behind the last one. -/
def stop (cursor : Cursor) : Span :=
  match (cursor.tokens.drop cursor.place).find? (fun token => token.kind == .endOfFile) with
  | some token => token.span
  | none => cursor.beyond.span

section

variable {cursor : Cursor} {token : Token Name} {rest : Tokens}

/-- A place behind the last token counts as the end, so the list need not hold a token for it. -/
theorem kind_beyond (cursor : Cursor) : cursor.beyond.kind = .endOfFile := by
  rw [beyond]
  split <;> rfl

/-- The token at the place is the first of those ahead, or it is one for the end. -/
theorem current_eq (cursor : Cursor) : cursor.current = Parser.current cursor.stop cursor.ahead := by
  have hPlace : cursor.tokens[cursor.place]? = (cursor.tokens.drop cursor.place).head? :=
    (List.head?_drop).symm
  rw [current, hPlace, stop, ahead]
  cases cursor.tokens.drop cursor.place with
  | nil =>
      have hKind := cursor.kind_beyond
      generalize cursor.beyond = last at hKind ⊢
      obtain ⟨kind, span⟩ := last
      cases hKind
      rfl
  | cons token rest =>
      obtain ⟨kind, span⟩ := token
      by_cases hEnd : kind = .endOfFile
      · subst hEnd
        rfl
      · simp [relevant, hEnd, Parser.current]

theorem forward_forward (cursor : Cursor) (count more : Nat) :
    (cursor.forward count).forward more = cursor.forward (count + more) := by
  rw [forward, forward, forward, Nat.add_assoc]

/-- A token ahead is one of the list behind the place, and it is not one for the end. -/
theorem drop_forward (cursor : Cursor) (h : cursor.ahead = token :: rest) :
    ∃ others, cursor.tokens.drop cursor.place = token :: others ∧ relevant others = rest ∧
      token.kind ≠ .endOfFile := by
  rw [ahead, relevant] at h
  cases hDrop : cursor.tokens.drop cursor.place with
  | nil =>
      rw [hDrop] at h
      cases h
  | cons first others =>
      rw [hDrop, List.takeWhile_cons] at h
      split at h
      next hKind =>
        obtain ⟨rfl, rfl⟩ := List.cons.inj h
        exact ⟨others, rfl, rfl, by simpa using hKind⟩
      next => cases h

theorem forward_one (h : cursor.ahead = token :: rest) :
    (cursor.forward 1).ahead = rest ∧ (cursor.forward 1).stop = cursor.stop := by
  obtain ⟨others, hDrop, hRest, hKind⟩ := drop_forward cursor h
  have hNext : (cursor.forward 1).tokens.drop (cursor.forward 1).place = others := by
    rw [forward, ← List.drop_drop, hDrop]
    rfl
  constructor
  · rw [ahead, hNext, hRest]
  · have hSkip : (token.kind == .endOfFile) = false := by simpa using hKind
    rw [stop, hNext, stop, hDrop, List.find?_cons, hSkip]
    rfl

/-- As long as no token for the end is reached, going on only takes tokens off the front. -/
theorem forward_count {count : Nat} (h : count ≤ cursor.ahead.length) :
    (cursor.forward count).ahead = cursor.ahead.drop count ∧
      (cursor.forward count).stop = cursor.stop := by
  induction count generalizing cursor with
  | zero => exact ⟨rfl, rfl⟩
  | succ count ih =>
      cases hAhead : cursor.ahead with
      | nil =>
          rw [hAhead] at h
          cases h
      | cons token rest =>
          obtain ⟨hRest, hStop⟩ := forward_one hAhead
          rw [hAhead, ← hRest] at h
          obtain ⟨hFurther, hSame⟩ := ih (Nat.le_of_succ_le_succ h)
          rw [forward_forward, Nat.add_comm] at hFurther hSame
          exact ⟨by rw [hFurther, hRest]; rfl, hSame.trans hStop⟩

theorem advance_eq (h : cursor.ahead = token :: rest) : cursor.advance = cursor.forward 1 := by
  have hKind : cursor.current.kind ≠ .endOfFile := by
    obtain ⟨_, -, -, hKind⟩ := drop_forward cursor h
    rw [current_eq, h]
    exact hKind
  rw [advance, if_neg hKind]

/-- The token after a first one that is ahead is ahead as well, or it is one for the end. -/
theorem next_eq (h : cursor.ahead = token :: rest) : cursor.next = Parser.current cursor.stop rest := by
  obtain ⟨hRest, hStop⟩ := forward_one h
  rw [← hRest, ← hStop, ← current_eq]
  rfl

end

end Cursor

/-- A walk comes to something or fails, somewhere in the list, or it is not done within its depth. -/
abbrev Walk := ExceptT ParseError (StateT Cursor Option)

namespace Walk

variable {α β : Type}

def go (walk : Walk α) (cursor : Cursor) : Option (Except ParseError α × Cursor) :=
  walk.run.run cursor

/-- An error ends the walk, and a value is handed on together with the place. -/
theorem go_bind (walk : Walk α) (further : α → Walk β) (cursor : Cursor) :
    (walk >>= further).go cursor =
      match walk.go cursor with
      | none => none
      | some (.error error, there) => some (.error error, there)
      | some (.ok value, there) => (further value).go there := by
  rw [go, ExceptT.run_bind, StateT.run_bind, go]
  cases walk.run.run cursor with
  | none => rfl
  | some found =>
      obtain ⟨outcome, there⟩ := found
      cases outcome <;> rfl

def exhausted : Walk α :=
  ExceptT.mk (fun _ => none)

def current : Walk (Token Name) :=
  return (← get).current

def next : Walk (Token Name) :=
  return (← get).next

def take : Walk (Token Name) := do
  let token ← current
  modify Cursor.advance
  return token

def takes (kind : TokenKind Name) : Walk Bool := do
  let token ← current
  if token.kind = kind then
    let _ ← take
    return true
  else
    return false

def delimiter (expected : Delimiter) : Walk Span := do
  let token ← current
  if token.kind = .delimiter expected then
    let _ ← take
    return token.span
  else
    throw (.expectedDelimiter expected token)

def closing (closer opener : Delimiter) (opened : Span) : Walk Span := do
  let token ← current
  if token.kind = .endOfFile then
    throw (.unclosedDelimiter opener opened token.span)
  else
    delimiter closer

def identifier (role : IdentifierRole) : Walk Name := do
  let token ← current
  match token.kind with
  | .identifier name =>
      let _ ← take
      return name
  | _ => throw (.expectedIdentifier role token)

mutual

def operand (depth level : Nat) : Walk Expr :=
  match depth, level with
  | 0, _ => exhausted
  | depth + 1, 0 => primary depth
  | depth + 1, level + 1 => do
      let left ← operand depth level
      operations depth level left

def operations (depth level : Nat) (left : Expr) : Walk Expr :=
  match depth with
  | 0 => exhausted
  | depth + 1 => do
      let token ← current
      match token.kind.operator?.filter (fun op => op.precedence = level + 1) with
      | some op =>
          let _ ← take
          let right ← operand depth level
          operations depth level (.binary op left right)
      | none => return left

def primary (depth : Nat) : Walk Expr :=
  match depth with
  | 0 => exhausted
  | depth + 1 => do
      let token ← current
      match token.kind with
      | .integer value =>
          let _ ← take
          return .literal value
      | .identifier name =>
          let _ ← take
          let behind ← current
          if behind.kind = .delimiter .openParen then
            let opened ← delimiter .openParen
            let values ← arguments depth opened
            return .call name values
          else
            return .reference name
      | .delimiter .openParen =>
          let opening ← take
          let inner ← operand depth BinaryOp.loosest
          let _ ← closing .closeParen .openParen opening.span
          return inner
      | _ => throw (.expectedExpression token)

def arguments (depth : Nat) (opened : Span) : Walk (List Expr) :=
  match depth with
  | 0 => exhausted
  | depth + 1 => do
      let token ← current
      if token.kind = .delimiter .closeParen then
        let _ ← closing .closeParen .openParen opened
        return []
      else
        furtherArguments depth opened

def furtherArguments (depth : Nat) (opened : Span) : Walk (List Expr) :=
  match depth with
  | 0 => exhausted
  | depth + 1 => do
      let first ← operand depth BinaryOp.loosest
      let more ← takes (.delimiter .comma)
      if more then
        let others ← furtherArguments depth opened
        return first :: others
      else
        let _ ← closing .closeParen .openParen opened
        return [first]

end

def expression (depth : Nat) : Walk Expr :=
  operand depth BinaryOp.loosest

def condition (depth : Nat) : Walk Expr := do
  let opened ← delimiter .openParen
  let value ← expression depth
  let _ ← closing .closeParen .openParen opened
  return value

def furtherParameters (depth : Nat) (opened : Span) : Walk (List Name) :=
  match depth with
  | 0 => exhausted
  | depth + 1 => do
      let first ← identifier .parameterName
      let more ← takes (.delimiter .comma)
      if more then
        let others ← furtherParameters depth opened
        return first :: others
      else
        let _ ← closing .closeParen .openParen opened
        return [first]

def parameters (depth : Nat) (opened : Span) : Walk (List Name) := do
  let token ← current
  if token.kind = .delimiter .closeParen then
    let _ ← closing .closeParen .openParen opened
    return []
  else
    furtherParameters depth opened

mutual

def statement (depth : Nat) : Walk Stmt :=
  match depth with
  | 0 => exhausted
  | depth + 1 => do
      let stmt ← bareStatement depth
      let _ ← takes (.delimiter .semicolon)
      return stmt

def bareStatement (depth : Nat) : Walk Stmt :=
  match depth with
  | 0 => exhausted
  | depth + 1 => do
      let token ← current
      match token.kind with
      | .keyword .function =>
          let _ ← take
          let name ← identifier .functionName
          let opened ← delimiter .openParen
          let names ← parameters depth opened
          let body ← block depth
          return .function name names body
      | .keyword .declare =>
          let _ ← take
          let name ← identifier .variableName
          let _ ← delimiter .assign
          let value ← expression depth
          return .declare name value
      | .keyword .loop =>
          let _ ← take
          let test ← condition depth
          let body ← block depth
          return .loop test body
      | .keyword .branch =>
          let _ ← take
          let test ← condition depth
          let positive ← block depth
          let more ← takes (.keyword .otherwise)
          if more then
            let negative ← block depth
            return .branch test positive negative
          else
            return .branch test positive []
      | .keyword .yield =>
          let _ ← take
          let value ← expression depth
          return .yield value
      | .identifier name =>
          let behind ← next
          if behind.kind = .delimiter .assign then
            let _ ← take
            let _ ← take
            let value ← expression depth
            return .assign name value
          else
            let value ← expression depth
            return .evaluate value
      | _ =>
          let value ← expression depth
          return .evaluate value

def block (depth : Nat) : Walk Block :=
  match depth with
  | 0 => exhausted
  | depth + 1 => do
      let opened ← delimiter .openBrace
      statements depth opened

def statements (depth : Nat) (opened : Span) : Walk Block :=
  match depth with
  | 0 => exhausted
  | depth + 1 => do
      let token ← current
      match token.kind with
      | .delimiter .closeBrace =>
          let _ ← take
          return []
      | .endOfFile => throw (.unclosedDelimiter .openBrace opened token.span)
      | .delimiter .semicolon =>
          let _ ← take
          statements depth opened
      | _ =>
          let first ← statement depth
          let others ← statements depth opened
          return first :: others

end

def program (depth : Nat) : Walk Block :=
  match depth with
  | 0 => exhausted
  | depth + 1 => do
      let token ← current
      match token.kind with
      | .endOfFile => return []
      | .delimiter .semicolon =>
          let _ ← take
          program depth
      | _ =>
          let first ← statement depth
          let others ← program depth
          return first :: others

end Walk

end IntScript
