import IntScript.Program

/-!
Programs as nested lists: a text that shows the shape of the tree and nothing else.

An outline is not meant to be read back as a program.
-/

namespace IntScript

namespace Expr

mutual

/-- The nested-list form of an expression; operators and calls come in front of their operands. -/
def outline (names : Interner) : Expr → String
  | literal value => toString value
  | reference name => names.lookup name
  | call callee arguments =>
      "(call " ++ names.lookup callee ++ outlineArguments names arguments ++ ")"
  | binary op left right =>
      "(" ++ op.symbol ++ " " ++ outline names left ++ " " ++ outline names right ++ ")"

/-- The nested-list forms of arguments, each after a space. -/
def outlineArguments (names : Interner) : List Expr → String
  | [] => ""
  | argument :: others => " " ++ outline names argument ++ outlineArguments names others

end

end Expr

namespace Stmt

mutual

def outline (names : Interner) : Stmt → String
  | function name parameters body =>
      "(fun " ++ names.lookup name ++ " (" ++ " ".intercalate (parameters.map names.lookup) ++ ") " ++
        "(do" ++ outlineBlock names body ++ "))"
  | declare name value => "(var " ++ names.lookup name ++ " " ++ value.outline names ++ ")"
  | loop condition body =>
      "(while " ++ condition.outline names ++ " (do" ++ outlineBlock names body ++ "))"
  | branch condition positive negative =>
      "(if " ++ condition.outline names ++ " (do" ++ outlineBlock names positive ++ ") (do" ++
        outlineBlock names negative ++ "))"
  | assign name value => "(set " ++ names.lookup name ++ " " ++ value.outline names ++ ")"
  | yield value => "(return " ++ value.outline names ++ ")"
  | evaluate value => "(expr " ++ value.outline names ++ ")"

def outlineBlock (names : Interner) : List Stmt → String
  | [] => ""
  | stmt :: others => " " ++ outline names stmt ++ outlineBlock names others

end

end Stmt

def outlineBlock (names : Interner) (block : Block) : String :=
  "(do" ++ Stmt.outlineBlock names block ++ ")"

end IntScript
