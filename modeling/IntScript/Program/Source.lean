import IntScript.Program.Parser.Statement
import IntScript.Token.Lexer

/-!
From tokens and from source text to programs.
-/

namespace IntScript

namespace Parser

/-- The tokens that are read: those before the first one for the end of the text. -/
def relevant (tokens : List (Token Name)) : Tokens :=
  tokens.takeWhile (fun token => token.kind != .endOfFile)

/-- Where errors at the end are reported: at the first token for the end of the text, or after the
last token if there is none. -/
def stopSpan (tokens : List (Token Name)) : Span :=
  match tokens.find? (fun token => token.kind == .endOfFile) with
  | some token => token.span
  | none =>
      match tokens.getLast? with
      | some token => Span.emptyAt token.span.limit
      | none => Span.origin

end Parser

/-- The program that a list of tokens spells, or the first error. Tokens after one for the end of
the text are ignored, and the list need not hold one. -/
def parse (tokens : List (Token Name)) : Except ParseError Block :=
  Parser.program (Parser.stopSpan tokens) (Parser.relevant tokens)

inductive SourceError where
  | lexical (error : LexError)
  | grammatical (error : ParseError)
deriving DecidableEq

namespace SourceError

def span : SourceError → Span
  | lexical error => error.span
  | grammatical error => error.span

def code : SourceError → ErrorCode
  | lexical error => error.code
  | grammatical error => error.code

def message (names : Interner) : SourceError → String
  | lexical error => error.message
  | grammatical error => error.message names

def diagnostic (names : Interner) : SourceError → Diagnostic
  | lexical error => error.diagnostic
  | grammatical error => error.diagnostic names

end SourceError

/-- The program of a source text. The whole text is cut into tokens before any is read, so an error
in a token wins over an earlier one in the grammar. -/
def parseSource (source : String) (table : Interner) : Except SourceError Block × Interner :=
  let (tokens, table) := lex source table
  (match tokens with
    | .error error => .error (.lexical error)
    | .ok tokens =>
        match parse tokens with
        | .error error => .error (.grammatical error)
        | .ok block => .ok block,
    table)

end IntScript
