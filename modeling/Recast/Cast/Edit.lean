import Recast.Syntax.Line
import Recast.Syntax.Build
/-!
# Edits — the five ways in which a slot's expression changes

An edit touches the top of an expression and nothing below: a cast node comes, goes or gets another
target, or the type of an object creation loses its arguments.  Each keeps the lines and types that
the log reports; `Edit.apply` is the change itself.

Making an expression a cast to a type never puts a cast under a cast: an existing cast gets the new
target, or gives way to its operand where that has the type already.
-/
namespace Recast

/-- `line` is that of the cast node, `source` its target so far, `target` the type asked for. -/
inductive Edit
  | insert (line : UInt32) (target : Ty)
  | retarget (line : UInt32) (source target : Ty)
  | collapse (line : UInt32) (source target : Ty)
  | remove (line : UInt32) (source : Ty)
  | erase
deriving DecidableEq

namespace Edit

/-- The expression without the cast at its top. -/
def uncast : Expr → Expr
  | ⟨_, _, .cast x⟩ => x
  | e => e

def apply : Edit → Expr → Expr
  | insert line target, e => .cast line target e
  | retarget _ _ target, e => { e with ty := target }
  | collapse .., e => uncast e
  | remove .., e => uncast e
  | erase, e => { e with ty := e.ty.raw }

def applyAll (edits : List Edit) (e : Expr) : Expr := edits.foldl (fun e d => d.apply e) e

/-- The edit that gives `e` the type `target` by a cast. -/
def castTo (target : Ty) (e : Expr) : Edit :=
  match e.castOperand? with
  | some x => if x.ty = target then collapse e.line e.ty target else retarget e.line e.ty target
  | none => insert e.firstLine target

end Edit

end Recast
