import IntScript.Text.Visible

/-!
Texts in quotes.

A quotation shows a text on one line, so that every character of it can be told. What is not visible
is written by a letter or by its number, after a backslash; so quotes and backslashes of the text get
a backslash too.
-/

namespace IntScript

namespace Text

/-- A code point in hexadecimal digits, in braces. -/
def numbered (point : Nat) : List Char :=
  '\\' :: 'u' :: '\x7b' :: (Nat.toDigits 16 point ++ ['\x7d'])

def quoteChar (c : Char) : List Char :=
  match c with
  | '"' => ['\\', '"']
  | '\\' => ['\\', '\\']
  | '\n' => ['\\', 'n']
  | '\r' => ['\\', 'r']
  | '\t' => ['\\', 't']
  | '\x00' => ['\\', '0']
  | c => if isVisible c then [c] else numbered c.toNat

def quote (text : String) : String :=
  String.ofList ('"' :: (text.toList.flatMap quoteChar ++ ['"']))

end Text

end IntScript
