import Recast.Ty.Bounds
/-!
# Containment — when one type argument may stand for another

`List<A>` takes a `List<B>` when the argument `A` contains the argument `B`.  A wildcard contains
everything, `? extends U` what `U` accepts, `? super L` what accepts `L`, and a plain type what it
accepts itself.  `Ty.accepts` compares names and dimensions and descends into arguments; a type
variable is looked up in the bounds, in either direction, and an unbound one matches only itself.

`? super` swaps the two sides, so the recursion is on both types together.
-/
namespace Recast

namespace TypeBounds

/-- Name and effective dimension of each class bound of a variable. -/
def classBounds (b : TypeBounds) (v : TypeVar) : List (String × UInt32) :=
  ((b.get? v.name).getD []).filterMap fun t =>
    t.class?.map fun c => (c.name, c.dimension + v.dimension)

/-- Whether the variable has a bound in the class of `c`, arguments aside. -/
def boundedBy (b : TypeBounds) (v : TypeVar) (c : ClassType) : Bool :=
  (b.classBounds v).any fun p => p.1 == c.name && p.2 == c.dimension

end TypeBounds

mutual

/-- Whether an argument standing for `target` may be a `source`. -/
def Ty.accepts (b : TypeBounds) (target source : Ty) : Bool :=
  match target, source with
  | .primitive p d, .primitive q e => p == q && d == e
  | .primitive .., .object _ => false
  | .primitive .., .var _ => false
  | .object c, .object d => c.accepts b d
  | .object c, .var v => b.boundedBy v c
  | .object _, .primitive .. => false
  | .var v, .var w => v == w
  | .var v, .object c => b.boundedBy v c
  | .var _, .primitive .. => false
termination_by sizeOf target + sizeOf source

def ClassType.accepts (b : TypeBounds) (target source : ClassType) : Bool :=
  match target, source with
  | ⟨n, none, d⟩, ⟨m, none, e⟩ => n == m && d == e
  | ⟨_, none, _⟩, ⟨_, some _, _⟩ => false
  | ⟨_, some _, _⟩, ⟨_, none, _⟩ => false
  | ⟨n, some ts, d⟩, ⟨m, some ss, e⟩ =>
    n == m && d == e && (ts.isEmpty || ss.isEmpty || containsAll b ts ss)
termination_by sizeOf target + sizeOf source

def TypeArgument.contains (b : TypeBounds) (target source : TypeArgument) : Bool :=
  match target, source with
  | .any, _ => true
  | .upper u, .upper t => u.accepts b t
  | .upper u, .exact t => u.accepts b t
  | .upper _, .any => false
  | .upper _, .lower _ => false
  | .lower l, .lower t => t.accepts b l
  | .lower l, .exact t => t.accepts b l
  | .lower _, .any => false
  | .lower _, .upper _ => false
  | .exact t, .exact s => t.accepts b s
  | .exact _, .any => false
  | .exact _, .upper _ => false
  | .exact _, .lower _ => false
termination_by sizeOf target + sizeOf source

/-- Pairwise containment of two lists of one length. -/
def containsAll (b : TypeBounds) (targets sources : List TypeArgument) : Bool :=
  match targets, sources with
  | [], [] => true
  | t :: ts, s :: ss => t.contains b s && containsAll b ts ss
  | [], _ :: _ => false
  | _ :: _, [] => false
termination_by sizeOf targets + sizeOf sources

end

/-- Containment of argument lists: the diamond on either side fits everything. -/
def argumentsFit (b : TypeBounds) (targets sources : List TypeArgument) : Bool :=
  targets.isEmpty || sources.isEmpty || containsAll b targets sources

end Recast
