import IntScript.Name
import IntScript.Operator
import IntScript.Span

/-!
Tokens: the words of a program.

A token is a keyword, a delimiter, an operator, an integer, an identifier or the end of the text,
together with the span it was read from. Identifiers are of a type of the reader's choice: the lexer
first finds their texts and only then numbers them.
-/

namespace IntScript

/-- The reserved words, named for what they introduce. -/
inductive Keyword where
  | function
  | declare
  | loop
  | branch
  | otherwise
  | yield
deriving DecidableEq

namespace Keyword

def all : List Keyword :=
  [function, declare, loop, branch, otherwise, yield]

def spelling : Keyword → String
  | function => "fun"
  | declare => "var"
  | loop => "while"
  | branch => "if"
  | otherwise => "else"
  | yield => "return"

/-- The keyword that is written like this, if there is one. -/
def ofSpelling? (word : String) : Option Keyword :=
  all.find? (fun k => k.spelling == word)

end Keyword

/-- Brackets, separators and the sign of assignment. -/
inductive Delimiter where
  | openParen
  | closeParen
  | openBrace
  | closeBrace
  | comma
  | semicolon
  | assign
deriving DecidableEq

namespace Delimiter

def all : List Delimiter :=
  [openParen, closeParen, openBrace, closeBrace, comma, semicolon, assign]

def spelling : Delimiter → String
  | openParen => "("
  | closeParen => ")"
  | openBrace => "\x7b"
  | closeBrace => "\x7d"
  | comma => ","
  | semicolon => ";"
  | assign => "="

end Delimiter

/-- What a token is, with identifiers given as `ν`. -/
inductive TokenKind (ν : Type) where
  | keyword (keyword : Keyword)
  | delimiter (delimiter : Delimiter)
  | operator (op : BinaryOp)
  | integer (value : Int32)
  | identifier (name : ν)
  | endOfFile
deriving DecidableEq

namespace TokenKind

variable {ν : Type}

/-- The kind as a message names it. Integers and identifiers are named by their class alone. -/
def describe : TokenKind ν → String
  | keyword k => s!"`{k.spelling}`"
  | delimiter d => s!"`{d.spelling}`"
  | operator op => s!"`{op.symbol}`"
  | integer _ => "integer literal"
  | identifier _ => "identifier"
  | endOfFile => "end of file"

def operator? : TokenKind ν → Option BinaryOp
  | operator op => some op
  | _ => none

end TokenKind

structure Token (ν : Type) where
  kind : TokenKind ν
  span : Span
deriving DecidableEq

end IntScript
