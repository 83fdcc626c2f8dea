import Recast.Syntax.Tree
/-!
# Building trees — expressions, statements and declarations from their parts

Each builder fixes what the construct determines: a literal's type, the type of an assignment,
the type of an object creation.
-/
namespace Recast

namespace Expr

def null (line : UInt32) : Expr := ⟨line, .root, .leaf .null⟩

def int (line : UInt32) (value : Int32) : Expr := ⟨line, .ofPrimitive .int, .leaf (.int value)⟩

def string (line : UInt32) (value : String) : Expr := ⟨line, .object .string, .leaf (.string value)⟩

def this (line : UInt32) (ty : Ty) : Expr := ⟨line, ty, .leaf .this⟩

def localVar (line : UInt32) (ty : Ty) (name : String) : Expr := ⟨line, ty, .leaf (.localVar name)⟩

/-- A class by name, as the qualifier of a static member. -/
def typeName (line : UInt32) (type : ClassType) : Expr := ⟨line, .object type, .leaf .typeName⟩

def cast (line : UInt32) (target : Ty) (operand : Expr) : Expr := ⟨line, target, .cast operand⟩

def binary (line : UInt32) (ty : Ty) (operator : BinaryOperator) (left right : Expr) : Expr :=
  ⟨line, ty, .binary operator left right⟩

/-- An assignment has the type of its left side. -/
def assign (line : UInt32) (left right : Expr) : Expr := binary line left.ty .assign left right

def conditional (line : UInt32) (ty : Ty) (condition whenTrue whenFalse : Expr) : Expr :=
  ⟨line, ty, .conditional condition whenTrue whenFalse⟩

/-- What stands in a slot whose expression has been taken out. -/
def placeholder : Expr := null 0

end Expr

namespace Stmt

/-- A declaration of one variable that is not final. -/
def declare (ty : Ty) (declarator : Declarator) : Stmt := .decl ⟨ty, false, [declarator]⟩

end Stmt

namespace Declarator

def named (name : String) : Declarator := ⟨name, 0, none⟩

def withDimension (d : Declarator) (dimension : UInt32) : Declarator := { d with dimension }

def withInit (d : Declarator) (init : Init) : Declarator := { d with init := some init }

def withExpr (d : Declarator) (value : Expr) : Declarator := d.withInit (.expr value)

end Declarator

/-- A public method without bounds and exceptions. -/
def MethodHead.named (name descriptor : String) (returns : Ty) : MethodHead :=
  ⟨AccessFlag.isPublic, name, descriptor, .empty, returns, none⟩

def Body.named (name : String) : Body := ⟨name, .empty, []⟩

end Recast
