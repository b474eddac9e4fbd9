import IntScript.Program

/-!
Programs as canonical text.

A block is laid out as lines, each indented by its nesting depth, with one statement to a line. An
operand gets parentheses only where precedence or association to the left would otherwise read the
text as another tree.
-/

namespace IntScript

namespace Expr

/-- Whether an operand needs parentheses under `parent`: it binds looser, or as loosely on the
right-hand side. -/
def needsParentheses (parent : BinaryOp) (isRight : Bool) : Expr → Bool
  | binary op _ _ =>
      parent.precedence < op.precedence || (isRight && op.precedence == parent.precedence)
  | _ => false

def parenthesize (wanted : Bool) (text : String) : String :=
  if wanted then "(" ++ text ++ ")" else text

mutual

def print (names : Interner) : Expr → String
  | literal value => toString value
  | reference name => names.lookup name
  | call callee arguments => names.lookup callee ++ "(" ++ printArguments names arguments ++ ")"
  | binary op left right =>
      parenthesize (left.needsParentheses op false) (print names left) ++ " " ++ op.symbol ++ " " ++
        parenthesize (right.needsParentheses op true) (print names right)

def printArguments (names : Interner) : List Expr → String
  | [] => ""
  | [argument] => print names argument
  | argument :: others => print names argument ++ ", " ++ printArguments names others

end

end Expr

structure Line where
  depth : Nat
  text : String

namespace Line

/-- The line with four spaces for each level of nesting, and a line feed. -/
def print (line : Line) : String :=
  String.ofList (List.replicate (4 * line.depth) ' ') ++ line.text ++ "\n"

end Line

namespace Stmt

/-- Lay out a block in braces after `header`, at the given depth. The last line is given as a text
of its own, because something may follow the closing brace on it. -/
def braced (depth : Nat) (header : String) (body : List Line) : List Line × String :=
  if body.isEmpty then
    ([], header ++ "\x7b\x7d")
  else
    (⟨depth, header ++ "\x7b"⟩ :: body, "\x7d")

mutual

def lines (names : Interner) (depth : Nat) : Stmt → List Line
  | function name parameters body =>
      let header := "fun " ++ names.lookup name ++ "(" ++
        ", ".intercalate (parameters.map names.lookup) ++ ") "
      let (before, last) := braced depth header (blockLines names (depth + 1) body)
      before ++ [⟨depth, last⟩]
  | declare name value =>
      [⟨depth, "var " ++ names.lookup name ++ " = " ++ value.print names⟩]
  | loop condition body =>
      let header := "while (" ++ condition.print names ++ ") "
      let (before, last) := braced depth header (blockLines names (depth + 1) body)
      before ++ [⟨depth, last⟩]
  | branch condition positive negative =>
      let header := "if (" ++ condition.print names ++ ") "
      let (before, last) := braced depth header (blockLines names (depth + 1) positive)
      if negative.isEmpty then
        before ++ [⟨depth, last⟩]
      else
        let (between, last) := braced depth (last ++ " else ") (blockLines names (depth + 1) negative)
        before ++ between ++ [⟨depth, last⟩]
  | assign name value => [⟨depth, names.lookup name ++ " = " ++ value.print names⟩]
  | yield value => [⟨depth, "return " ++ value.print names⟩]
  | evaluate value => [⟨depth, value.print names⟩]

def blockLines (names : Interner) (depth : Nat) : List Stmt → List Line
  | [] => []
  | stmt :: others => lines names depth stmt ++ blockLines names depth others

end

end Stmt

/-- The text of a program. -/
def printBlock (names : Interner) (block : Block) : String :=
  String.join ((Stmt.blockLines names 0 block).map Line.print)

end IntScript
