import Recast.Hierarchy.Assignable
import Recast.Hierarchy.Overloads
import Recast.Settings.Basic
/-!
# Facts — what the cast pass has to know about types

The pass infers nothing.  It reads the types recorded in the tree and asks four questions about
classes; any answers will do, and `Hierarchy.facts` gives those of a class hierarchy.  `Rules` are
such facts with the settings of a run.
-/
namespace Recast

/-- `assignable b target source` and `argumentsFit b targets sources` are read under the bounds `b`;
`overloaded owner member count` asks for more than one candidate. -/
structure TypeFacts where
  assignable : TypeBounds → ClassType → ClassType → Bool
  overloaded : String → String → Nat → Bool
  resolve? : String → Option ClassType
  argumentsFit : TypeBounds → List TypeArgument → List TypeArgument → Bool

def Hierarchy.facts (h : Hierarchy) : TypeFacts where
  assignable := h.assignable
  overloaded := h.overloaded
  resolve? := h.resolve?
  argumentsFit := Recast.argumentsFit

structure Rules where
  facts : TypeFacts
  settings : Settings

end Recast
