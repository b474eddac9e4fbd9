import IntScript.Program

/-! Programs without some of the statements that can never be reached, for they follow a `return` of the
same block. -/
namespace IntScript

def Stmt.isYield : Stmt → Bool
  | .yield _ => true
  | _ => false

mutual

/-- The second statement is the first one, except that statements are left out of its blocks. -/
inductive Stmt.Prunes : Stmt → Stmt → Prop where
  | function (name : Name) (parameters : List Name) {body body' : Block}
      (pruned : Block.Prunes false body body') :
      Stmt.Prunes (.function name parameters body) (.function name parameters body')
  | declare (name : Name) (value : Expr) : Stmt.Prunes (.declare name value) (.declare name value)
  | loop (condition : Expr) {body body' : Block} (pruned : Block.Prunes false body body') :
      Stmt.Prunes (.loop condition body) (.loop condition body')
  | branch (condition : Expr) {positive positive' negative negative' : Block}
      (prunedPositive : Block.Prunes false positive positive')
      (prunedNegative : Block.Prunes false negative negative') :
      Stmt.Prunes (.branch condition positive negative) (.branch condition positive' negative')
  | assign (name : Name) (value : Expr) : Stmt.Prunes (.assign name value) (.assign name value)
  | yield (value : Expr) : Stmt.Prunes (.yield value) (.yield value)
  | evaluate (value : Expr) : Stmt.Prunes (.evaluate value) (.evaluate value)

/-- The second block is the first one, except that statements are left out of it and of the blocks in it.
Each of them follows a `return` of its own block; whether one of this block came before is `returned`. -/
inductive Block.Prunes : (returned : Bool) → Block → Block → Prop where
  | nil (returned : Bool) : Block.Prunes returned [] []
  | keep {returned : Bool} {stmt stmt' : Stmt} {others others' : Block}
      (pruned : Stmt.Prunes stmt stmt')
      (prunedOthers : Block.Prunes (returned || stmt.isYield) others others') :
      Block.Prunes returned (stmt :: others) (stmt' :: others')
  | drop (stmt : Stmt) {others others' : Block} (prunedOthers : Block.Prunes true others others') :
      Block.Prunes true (stmt :: others) others'

end

mutual

/-- Nothing needs to be left out. -/
theorem Stmt.Prunes.refl (stmt : Stmt) : stmt.Prunes stmt := by
  match stmt with
  | .function name parameters body => exact .function name parameters (Block.Prunes.refl false body)
  | .declare name value => exact .declare name value
  | .loop condition body => exact .loop condition (Block.Prunes.refl false body)
  | .branch condition positive negative =>
      exact .branch condition (Block.Prunes.refl false positive) (Block.Prunes.refl false negative)
  | .assign name value => exact .assign name value
  | .yield value => exact .yield value
  | .evaluate value => exact .evaluate value

theorem Block.Prunes.refl (returned : Bool) (block : Block) : Block.Prunes returned block block := by
  match block with
  | [] => exact .nil returned
  | stmt :: others => exact .keep (Stmt.Prunes.refl stmt) (Block.Prunes.refl _ others)

end

end IntScript
