import IntScript.Scope
import IntScript.Fault

/-! How the blocks of a program lie in one another, which names a block declares, and which names a
statement uses. Nothing is said here about runs. -/
namespace IntScript

/-- A block, and the parameters that are declared with it if it is the body of a function. -/
structure Layer where
  parameters : List Name
  body : Block

inductive Part where
  | body | positive | negative
deriving DecidableEq

/-- The way from a block into a block of one of its statements. -/
structure Turn where
  index : Nat
  part : Part
deriving DecidableEq

/-- Where a block stands in a program: the way to it, its last turn first. One block encloses another if
its site is the end of the other's; the program encloses all. -/
abbrev Site := List Turn

/-- A block of the statement; empty if the statement has no such block. -/
def Stmt.layer : Stmt → Part → Layer
  | function _ parameters body, .body => ⟨parameters, body⟩
  | loop _ body, .body => ⟨[], body⟩
  | branch _ positive _, .positive => ⟨[], positive⟩
  | branch _ _ negative, .negative => ⟨[], negative⟩
  | _, _ => ⟨[], []⟩

/-- The block at a site; empty if the program has no such site. -/
def layerAt (program : Block) : Site → Layer
  | [] => ⟨[], program⟩
  | turn :: site =>
      match (layerAt program site).body[turn.index]? with
      | some stmt => stmt.layer turn.part
      | none => ⟨[], []⟩

/-- The site of a block of the statement that `others` follow in the block at `site`. -/
def inside (program : Block) (site : Site) (others : Block) (part : Part) : Site :=
  ⟨(layerAt program site).body.length - (others.length + 1), part⟩ :: site

inductive Sought where
  | integer (name : Name)
  | function (name : Name)
deriving DecidableEq

namespace Sought

def boundIn : Sought → Scope → Bool
  | integer name, scope => scope.integers.has name
  | function name, scope => scope.functions.has name

def fault : Sought → Fault Name
  | integer name => .undefinedVariable name
  | function name => .undefinedFunction name

end Sought

/-- The name is that of a parameter, or is declared by a `var` or a `fun` statement that stands in the
block itself, not in a block inside it. -/
def Layer.Declares (layer : Layer) : Sought → Prop
  | .integer name => name ∈ layer.parameters ∨ ∃ value, .declare name value ∈ layer.body
  | .function name => ∃ parameters body, .function name parameters body ∈ layer.body

namespace Expr

mutual

def uses : Expr → List Sought
  | literal _ => []
  | reference name => [.integer name]
  | call callee arguments => .function callee :: argumentUses arguments
  | binary _ left right => uses left ++ uses right

def argumentUses : List Expr → List Sought
  | [] => []
  | argument :: others => uses argument ++ argumentUses others

end

end Expr

/-- The occurrences of names in a statement, those in its blocks left out. -/
def Stmt.uses : Stmt → List Sought
  | function _ _ _ => []
  | declare _ value | yield value | evaluate value => value.uses
  | loop condition _ | branch condition _ _ => condition.uses
  | assign name value => .integer name :: value.uses

/-- The place at which a statement is first found holds that statement, though an equal one may
stand further on. -/
theorem getElem?_idxOf_of_mem {block : Block} {stmt : Stmt} (h : stmt ∈ block) :
    block[block.idxOf stmt]? = some stmt := by
  rw [List.getElem?_eq_getElem (List.idxOf_lt_length_of_mem h), List.getElem_idxOf]

/-- The way into a block of a statement leads to that block. -/
theorem layerAt_inside {program : Block} {site : Site} {before others : Block} {stmt : Stmt}
    (h : (layerAt program site).body = before ++ stmt :: others) (part : Part) :
    layerAt program (inside program site others part) = stmt.layer part := by
  have hIndex : (before ++ stmt :: others).length - (others.length + 1) = before.length := by
    rw [List.length_append, List.length_cons, Nat.add_sub_cancel]
  rw [inside, layerAt, h, hIndex]
  simp

end IntScript
