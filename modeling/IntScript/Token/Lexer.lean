import IntScript.Diagnostic
import IntScript.Token

/-!
From text to tokens.

The text is cut from left to right into pieces, each the longest that can start where it starts:
blanks and comments, which are dropped, and tokens. `scan` does this without a table of names and
says how far it got; `lex` then numbers the identifiers it found, those before an error included.
-/

namespace IntScript

inductive LexError where
  /-- No piece starts with this character. -/
  | invalidCharacter (character : Char) (span : Span)
  /-- The digits denote more than the largest literal. -/
  | integerOutOfRange (digits : String) (span : Span)
deriving DecidableEq

def largestLiteral : Nat := 2147483647

namespace LexError

def span : LexError → Span
  | invalidCharacter _ span => span
  | integerOutOfRange _ span => span

def code : LexError → ErrorCode
  | invalidCharacter _ _ => .invalidCharacter
  | integerOutOfRange _ _ => .integerOutOfRange

def message : LexError → String
  | invalidCharacter character _ => s!"invalid character `{character}`"
  | integerOutOfRange digits _ => s!"integer literal `{digits}` is out of range"

def diagnostic (error : LexError) : Diagnostic :=
  match error with
  | invalidCharacter _ span =>
      { code := error.code
        message := error.message
        labels := [⟨true, span, "not valid here"⟩]
        notes := []
        help := [] }
  | integerOutOfRange _ span =>
      { code := error.code
        message := error.message
        labels := [⟨true, span, "literal does not fit"⟩]
        notes := [s!"the largest integer literal is {largestLiteral}"]
        help := [] }

end LexError

namespace Lexer

/-- Characters that only separate tokens: space, tab, carriage return, line feed, form feed. -/
def isBlank (c : Char) : Bool :=
  c == ' ' || c == '\t' || c == '\r' || c == '\n' || c == '\x0c'

/-- Characters an identifier may start with: the unaccented letters and the underscore. -/
def startsWord (c : Char) : Bool :=
  c.isAlpha || c == '_'

/-- Characters an identifier may go on with: those it may start with, and the digits. -/
def continuesWord (c : Char) : Bool :=
  c.isAlphanum || c == '_'

def byteLength (cs : List Char) : Nat :=
  cs.foldr (fun c bytes => c.utf8Size + bytes) 0

def decimal (digits : List Char) : Nat :=
  digits.foldl (fun value digit => value * 10 + (digit.toNat - '0'.toNat)) 0

/-- The longest operator or delimiter at the front, with the number of characters after the first
that belong to it. -/
def symbol? : Char → List Char → Option (TokenKind String × Nat)
  | '=', '=' :: _ => some (.operator .eq, 1)
  | '!', '=' :: _ => some (.operator .ne, 1)
  | '<', '=' :: _ => some (.operator .le, 1)
  | '>', '=' :: _ => some (.operator .ge, 1)
  | '|', '|' :: _ => some (.operator .or, 1)
  | '&', '&' :: _ => some (.operator .and, 1)
  | '+', _ => some (.operator .add, 0)
  | '-', _ => some (.operator .sub, 0)
  | '*', _ => some (.operator .mul, 0)
  | '/', _ => some (.operator .div, 0)
  | '%', _ => some (.operator .mod, 0)
  | '<', _ => some (.operator .lt, 0)
  | '>', _ => some (.operator .gt, 0)
  | '=', _ => some (.delimiter .assign, 0)
  | '(', _ => some (.delimiter .openParen, 0)
  | ')', _ => some (.delimiter .closeParen, 0)
  | '\x7b', _ => some (.delimiter .openBrace, 0)
  | '\x7d', _ => some (.delimiter .closeBrace, 0)
  | ',', _ => some (.delimiter .comma, 0)
  | ';', _ => some (.delimiter .semicolon, 0)
  | _, _ => none

/-- What the front of a text turns out to be. -/
inductive Piece where
  /-- A blank or a comment. -/
  | gap
  /-- A token. -/
  | token (kind : TokenKind String)
  /-- Nothing that may stand there. -/
  | refused (error : Span → LexError)

/-- The kind of a word: a keyword if it is spelled like one, else an identifier. -/
def wordKind (word : String) : TokenKind String :=
  match Keyword.ofSpelling? word with
  | some keyword => .keyword keyword
  | none => .identifier word

/-- The longest piece at the front of `c :: cs`, with the number of characters of `cs` in it. A
comment ends before the next line feed. -/
def piece (c : Char) (cs : List Char) : Piece × Nat :=
  if isBlank c then
    (.gap, 0)
  else if c == '/' && cs.head? == some '/' then
    (.gap, (cs.takeWhile (· != '\n')).length)
  else if startsWord c then
    let tail := cs.takeWhile continuesWord
    (.token (wordKind (String.ofList (c :: tail))), tail.length)
  else if c.isDigit then
    let tail := cs.takeWhile Char.isDigit
    let value := decimal (c :: tail)
    if value ≤ largestLiteral then
      (.token (.integer (Int32.ofNat value)), tail.length)
    else
      (.refused (.integerOutOfRange (String.ofList (c :: tail))), tail.length)
  else
    match symbol? c cs with
    | some (kind, length) => (.token kind, length)
    | none => (.refused (.invalidCharacter c), 0)

/-- Dropping characters leaves no more than there were. -/
theorem length_drop_le (count : Nat) (cs : List Char) : (cs.drop count).length ≤ cs.length := by
  rw [List.length_drop]
  exact Nat.sub_le _ _

/-- How far a text could be cut: the tokens up to its end or up to the error that stopped it. -/
structure Scan where
  tokens : List (Token String)
  error : Option LexError

/-- Cut a text that starts at byte `offset` of the source. At the end of the text stands the token
for it, with an empty span. -/
def scan (offset : Nat) : List Char → Scan
  | [] => ⟨[⟨.endOfFile, Span.ofRange offset offset⟩], none⟩
  | c :: cs =>
      let (front, length) := piece c cs
      let limit := offset + byteLength (c :: cs.take length)
      match front with
      | .gap => scan limit (cs.drop length)
      | .token kind =>
          let others := scan limit (cs.drop length)
          ⟨⟨kind, Span.ofRange offset limit⟩ :: others.tokens, others.error⟩
      | .refused error => ⟨[], some (error (Span.ofRange offset limit))⟩
termination_by cs => cs.length
decreasing_by
  · exact Nat.lt_succ_of_le (length_drop_le length cs)
  · exact Nat.lt_succ_of_le (length_drop_le length cs)

def internToken (token : Token String) (table : Interner) : Token Name × Interner :=
  match token.kind with
  | .identifier text =>
      let (name, table) := table.intern text
      (⟨.identifier name, token.span⟩, table)
  | .keyword k => (⟨.keyword k, token.span⟩, table)
  | .delimiter d => (⟨.delimiter d, token.span⟩, table)
  | .operator op => (⟨.operator op, token.span⟩, table)
  | .integer v => (⟨.integer v, token.span⟩, table)
  | .endOfFile => (⟨.endOfFile, token.span⟩, table)

/-- Number the identifiers of a list of tokens from left to right. -/
def internTokens : List (Token String) → Interner → List (Token Name) × Interner
  | [], table => ([], table)
  | token :: tokens, table =>
      let (token, table) := internToken token table
      let (tokens, table) := internTokens tokens table
      (token :: tokens, table)

end Lexer

/-- The tokens of a source text, ended by the token for its end, or the first error. Either way the
table gains the identifiers that were read. -/
def lex (source : String) (table : Interner) : Except LexError (List (Token Name)) × Interner :=
  let scan := Lexer.scan 0 source.toList
  let (tokens, table) := Lexer.internTokens scan.tokens table
  match scan.error with
  | some error => (.error error, table)
  | none => (.ok tokens, table)

end IntScript
