import IntScript.Name
import IntScript.Operator

/-!
Programs as trees.

A program is a block, a block a list of statements. Names are numbered, literals are 32-bit
integers. A conditional without `else` has an empty second block. Equality of trees is decidable,
which is how a program is compared with what its printed form reads back as.
-/

namespace IntScript

inductive Expr where
  /-- An integer constant. -/
  | literal (value : Int32)
  /-- The value of a variable. -/
  | reference (name : Name)
  /-- A call of a function by its name. -/
  | call (callee : Name) (arguments : List Expr)
  /-- Two operands joined by an operator. -/
  | binary (op : BinaryOp) (left right : Expr)

inductive Stmt where
  /-- `fun name(parameters) { body }` -/
  | function (name : Name) (parameters : List Name) (body : List Stmt)
  /-- `var name = value`, a new variable of the current scope. -/
  | declare (name : Name) (value : Expr)
  /-- `while (condition) { body }` -/
  | loop (condition : Expr) (body : List Stmt)
  /-- `if (condition) { positive } else { negative }` -/
  | branch (condition : Expr) (positive negative : List Stmt)
  /-- `name = value`, a change of an existing variable. -/
  | assign (name : Name) (value : Expr)
  /-- `return value` -/
  | yield (value : Expr)
  /-- An expression evaluated for its effects. -/
  | evaluate (value : Expr)

/-- A program, a function body, a branch or a loop body. -/
abbrev Block := List Stmt

structure Function where
  name : Name
  parameters : List Name
  body : Block

namespace Function

def arity (function : Function) : Nat :=
  function.parameters.length

end Function

mutual

def Expr.decEq : (a b : Expr) → Decidable (a = b)
  | .literal u, .literal v =>
      if h : u = v then isTrue (by rw [h]) else isFalse (fun e => h (Expr.literal.inj e))
  | .reference m, .reference n =>
      if h : m = n then isTrue (by rw [h]) else isFalse (fun e => h (Expr.reference.inj e))
  | .call f xs, .call g ys =>
      if h : f = g then
        match Expr.decEqList xs ys with
        | isTrue hs => isTrue (by rw [h, hs])
        | isFalse hs => isFalse (fun e => hs (Expr.call.inj e).2)
      else isFalse (fun e => h (Expr.call.inj e).1)
  | .binary p a b, .binary q c d =>
      if h : p = q then
        match Expr.decEq a c with
        | isTrue hl =>
            match Expr.decEq b d with
            | isTrue hr => isTrue (by rw [h, hl, hr])
            | isFalse hr => isFalse (fun e => hr (Expr.binary.inj e).2.2)
        | isFalse hl => isFalse (fun e => hl (Expr.binary.inj e).2.1)
      else isFalse (fun e => h (Expr.binary.inj e).1)
  | .literal _, .reference _ | .literal _, .call _ _ | .literal _, .binary _ _ _
  | .reference _, .literal _ | .reference _, .call _ _ | .reference _, .binary _ _ _
  | .call _ _, .literal _ | .call _ _, .reference _ | .call _ _, .binary _ _ _
  | .binary _ _ _, .literal _ | .binary _ _ _, .reference _ | .binary _ _ _, .call _ _ =>
      isFalse (fun e => nomatch e)

def Expr.decEqList : (as bs : List Expr) → Decidable (as = bs)
  | [], [] => isTrue rfl
  | a :: as, b :: bs =>
      match Expr.decEq a b with
      | isTrue h =>
          match Expr.decEqList as bs with
          | isTrue hs => isTrue (by rw [h, hs])
          | isFalse hs => isFalse (fun e => hs (List.cons.inj e).2)
      | isFalse h => isFalse (fun e => h (List.cons.inj e).1)
  | [], _ :: _ | _ :: _, [] => isFalse (fun e => nomatch e)

end

instance : DecidableEq Expr := Expr.decEq

mutual

def Stmt.decEq : (a b : Stmt) → Decidable (a = b)
  | .function f ps body, .function g qs body' =>
      if h : f = g ∧ ps = qs then
        match Stmt.decEqList body body' with
        | isTrue hb => isTrue (by rw [h.1, h.2, hb])
        | isFalse hb => isFalse (fun e => hb (Stmt.function.inj e).2.2)
      else isFalse (fun e => h ⟨(Stmt.function.inj e).1, (Stmt.function.inj e).2.1⟩)
  | .declare m a, .declare n b =>
      if h : m = n ∧ a = b then isTrue (by rw [h.1, h.2]) else isFalse (fun e => h (Stmt.declare.inj e))
  | .loop c body, .loop d body' =>
      if h : c = d then
        match Stmt.decEqList body body' with
        | isTrue hb => isTrue (by rw [h, hb])
        | isFalse hb => isFalse (fun e => hb (Stmt.loop.inj e).2)
      else isFalse (fun e => h (Stmt.loop.inj e).1)
  | .branch c yes no, .branch d yes' no' =>
      if h : c = d then
        match Stmt.decEqList yes yes' with
        | isTrue hy =>
            match Stmt.decEqList no no' with
            | isTrue hn => isTrue (by rw [h, hy, hn])
            | isFalse hn => isFalse (fun e => hn (Stmt.branch.inj e).2.2)
        | isFalse hy => isFalse (fun e => hy (Stmt.branch.inj e).2.1)
      else isFalse (fun e => h (Stmt.branch.inj e).1)
  | .assign m a, .assign n b =>
      if h : m = n ∧ a = b then isTrue (by rw [h.1, h.2]) else isFalse (fun e => h (Stmt.assign.inj e))
  | .yield a, .yield b =>
      if h : a = b then isTrue (by rw [h]) else isFalse (fun e => h (Stmt.yield.inj e))
  | .evaluate a, .evaluate b =>
      if h : a = b then isTrue (by rw [h]) else isFalse (fun e => h (Stmt.evaluate.inj e))
  | .function .., .declare .. | .function .., .loop .. | .function .., .branch ..
  | .function .., .assign .. | .function .., .yield .. | .function .., .evaluate ..
  | .declare .., .function .. | .declare .., .loop .. | .declare .., .branch ..
  | .declare .., .assign .. | .declare .., .yield .. | .declare .., .evaluate ..
  | .loop .., .function .. | .loop .., .declare .. | .loop .., .branch ..
  | .loop .., .assign .. | .loop .., .yield .. | .loop .., .evaluate ..
  | .branch .., .function .. | .branch .., .declare .. | .branch .., .loop ..
  | .branch .., .assign .. | .branch .., .yield .. | .branch .., .evaluate ..
  | .assign .., .function .. | .assign .., .declare .. | .assign .., .loop ..
  | .assign .., .branch .. | .assign .., .yield .. | .assign .., .evaluate ..
  | .yield .., .function .. | .yield .., .declare .. | .yield .., .loop ..
  | .yield .., .branch .. | .yield .., .assign .. | .yield .., .evaluate ..
  | .evaluate .., .function .. | .evaluate .., .declare .. | .evaluate .., .loop ..
  | .evaluate .., .branch .. | .evaluate .., .assign .. | .evaluate .., .yield .. =>
      isFalse (fun e => nomatch e)

def Stmt.decEqList : (as bs : List Stmt) → Decidable (as = bs)
  | [], [] => isTrue rfl
  | a :: as, b :: bs =>
      match Stmt.decEq a b with
      | isTrue h =>
          match Stmt.decEqList as bs with
          | isTrue hs => isTrue (by rw [h, hs])
          | isFalse hs => isFalse (fun e => hs (List.cons.inj e).2)
      | isFalse h => isFalse (fun e => h (List.cons.inj e).1)
  | [], _ :: _ | _ :: _, [] => isFalse (fun e => nomatch e)

end

instance : DecidableEq Stmt := Stmt.decEq

end IntScript
