import Recast.Cast.Plan
/-!
# Scope — what the enclosing declarations fix for a position

The innermost declaration gives the bounds of its type variables, the method its return type and
its exceptions.  A class body starts afresh: its members never see the method around it.  From the
scope and the construct comes the demand of each position.
-/
namespace Recast

structure Scope where
  bounds : TypeBounds
  returns : Option Ty
  thrown : Option (List Ty)

namespace Scope

def ofBounds (bounds : TypeBounds) : Scope := ⟨bounds, none, none⟩

/-- The functional interface behind a lambda is not known, so its result may be anything. -/
def inLambda (sc : Scope) : Scope := { sc with returns := some .root }

def ofConstructor (h : ConstructorHead) : Scope := ⟨h.bounds, none, h.exceptions⟩

def ofMethod (h : MethodHead) : Scope := ⟨h.bounds, some h.returns, h.exceptions⟩

def returnDemand (sc : Scope) : Option Demand := sc.returns.map (.fit · false)

/-- Only a single exception that is a type variable makes a demand. -/
def throwDemand (sc : Scope) : Option Demand :=
  match sc.thrown with
  | some [t] => if t.isVar then some (.thrown t) else none
  | _ => none

end Scope

namespace Demand

/-- An array creation with its elements in braces stands as it is; its elements are checked. -/
def ofInit (required : Ty) (value : Expr) : Option Demand :=
  if value.isFilledArray then none else some (.fit required false)

/-- The right side of `=` fits the left, unless it is a call with its type arguments written out. -/
def ofOperand (operator : BinaryOperator) (left right : Expr) : Option Demand :=
  if operator = .assign ∧ ¬ right.isExplicitCall then some (.fit left.ty false) else none

/-- A qualifier that is a class name is no value. -/
def ofQualifier (member : MemberRef) (qualifier : Expr) : Option Demand :=
  if qualifier.isTypeName then none else some (.declaring member.owner)

end Demand

namespace Ty

/-- The type of the elements in braces: one dimension less, while there is one. -/
def element (t : Ty) : Ty := if t.dimension > 0 then t.withDimension (t.dimension - 1) else t

/-- The type of a declared name, with the dimensions written after it. -/
def widen (t : Ty) (dimension : UInt32) : Ty := t.withDimension (t.dimension + dimension)

/-- The class an object creation names; empty where the type is not a class type. -/
def createdName : Ty → String
  | .object c => c.name
  | _ => ""

end Ty

end Recast
