import Recast.Hierarchy.Supertypes
/-!
# Overloads — when a member name and an argument count do not determine a method

Methods are inherited from every class above the owner, constructors from none.  A descriptor that
is declared again further up overrides and does not overload, so distinct descriptors count.
-/
namespace Recast

namespace ClassDecl

/-- Descriptors of the methods of one name and arity. -/
def descriptors (c : ClassDecl) (member : String) (arity : Nat) : List String :=
  (c.methods.filter fun m => m.name == member && m.arity? == some arity).map (·.descriptor)

end ClassDecl

namespace Hierarchy

/-- Classes whose methods answer to `member` on a use of `owner`. -/
def owners (h : Hierarchy) (owner member : String) : List String :=
  if member = MethodDecl.constructorName then [owner] else h.supertypeNames owner

def candidates (h : Hierarchy) (owner member : String) (arity : Nat) : List String :=
  (h.owners owner member).flatMap fun n =>
    match h.find? n with
    | some c => c.descriptors member arity
    | none => []

/-- Whether a call of `member` on `owner` with that many arguments has two candidates or more. -/
def overloaded (h : Hierarchy) (owner member : String) (arity : Nat) : Bool :=
  let ds := h.candidates owner member arity
  ds.any fun d => ds.any (· != d)

end Hierarchy

end Recast
