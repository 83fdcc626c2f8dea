import Recast.Ty.Basic
/-!
# Substitution — type arguments put in place of type parameters

A supertype is declared in terms of its class's parameters and used with the class's arguments.
Since an argument may be a wildcard, a type becomes an argument: `T` under `T ↦ ? extends N` is
`? extends N`.  Inside a bound the two wildcards meet: an upper bound of an upper bound stays one,
and bounds of opposite sense leave only `?`.

An array of a parameter takes its dimensions along when the argument is a plain type; for a
wildcard there is no such array, and the parameter stays.
-/
namespace Recast

/-- Arguments by position; surplus names or arguments stand for nothing. -/
structure Instantiation where
  parameters : List String
  arguments : List TypeArgument

namespace Instantiation

def find? : List String → List TypeArgument → String → Option TypeArgument
  | p :: ps, a :: as, n => if p = n then some a else find? ps as n
  | _, _, _ => none

def get? (i : Instantiation) (name : String) : Option TypeArgument :=
  find? i.parameters i.arguments name

def ofVar (i : Instantiation) (v : TypeVar) : TypeArgument :=
  match i.get? v.name with
  | some (.exact t) => .exact (t.withDimension (t.dimension + v.dimension))
  | some a => if v.dimension = 0 then a else .exact (.var v)
  | none => .exact (.var v)

end Instantiation

namespace TypeArgument

/-- `? extends A`, for an argument `A`. -/
def asUpper : TypeArgument → TypeArgument
  | .exact t => .upper t
  | .upper t => .upper t
  | .any => .any
  | .lower _ => .any

/-- `? super A`, for an argument `A`. -/
def asLower : TypeArgument → TypeArgument
  | .exact t => .lower t
  | .lower t => .lower t
  | .any => .any
  | .upper _ => .any

end TypeArgument

mutual

def ClassType.subst (i : Instantiation) : ClassType → ClassType
  | ⟨n, none, d⟩ => ⟨n, none, d⟩
  | ⟨n, some as, d⟩ => ⟨n, some (substArguments i as), d⟩

def Ty.subst (i : Instantiation) : Ty → TypeArgument
  | .primitive p d => .exact (.primitive p d)
  | .object c => .exact (.object (c.subst i))
  | .var v => i.ofVar v

def TypeArgument.subst (i : Instantiation) : TypeArgument → TypeArgument
  | .exact t => t.subst i
  | .any => .any
  | .upper t => (t.subst i).asUpper
  | .lower t => (t.subst i).asLower

def substArguments (i : Instantiation) : List TypeArgument → List TypeArgument
  | [] => []
  | a :: as => a.subst i :: substArguments i as

end

end Recast
