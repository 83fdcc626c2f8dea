import Recast.Syntax.Tree
/-!
# Lines — the line on which an expression starts

The first known line in the order in which an expression is written.  `a.b(c)` and `a + b` start
with an operand, which is asked before the node itself; the parts that follow are asked last.  A
lambda's statements and a class body belong to other constructs and are not asked.
-/
namespace Recast

def knownLine? (line : UInt32) : Option UInt32 := if line = 0 then none else some line

mutual

def Expr.line? : Expr → Option UInt32
  | ⟨l, _, k⟩ => k.leadingLine?.or ((knownLine? l).or k.trailingLine?)

/-- Line of the operand that is written before the node's own symbol. -/
def ExprKind.leadingLine? : ExprKind → Option UInt32
  | .field (some q) _ => q.line?
  | .call q _ _ _ _ => q.line?
  | .binary _ l _ => l.line?
  | .unary .after _ x => x.line?
  | .instanceOf x _ => x.line?
  | .conditional c _ _ => c.line?
  | .index a _ => a.line?
  | .methodRef q _ => q.line?
  | .leaf _ | .field none _ | .delegate .. | .new .. | .newArray _ | .filledArray _ | .unary .before _ _
  | .cast _ | .lambda .. => none

/-- First line among the operands that are written after it. -/
def ExprKind.trailingLine? : ExprKind → Option UInt32
  | .call _ _ _ as _ => firstLine? as
  | .delegate _ _ _ as _ => firstLine? as
  | .new _ as _ _ => firstLine? as
  | .newArray ds => firstLine? ds
  | .filledArray es => firstInitLine? es
  | .binary _ _ r => r.line?
  | .unary .before _ x => x.line?
  | .conditional _ t f => t.line?.or f.line?
  | .index _ i => i.line?
  | .cast x => x.line?
  | .leaf _ | .field .. | .unary .after _ _ | .instanceOf .. | .lambda .. | .methodRef .. => none

def firstLine? : List Expr → Option UInt32
  | [] => none
  | e :: es => e.line?.or (firstLine? es)

def Init.line? : Init → Option UInt32
  | .expr e => e.line?
  | .array es => firstInitLine? es

def firstInitLine? : List Init → Option UInt32
  | [] => none
  | i :: is => i.line?.or (firstInitLine? is)

end

/-- The first known line of the expression, or 0. -/
def Expr.firstLine (e : Expr) : UInt32 := e.line?.getD 0

end Recast
