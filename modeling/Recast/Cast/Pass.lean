import Recast.Cast.Log
import Recast.Cast.Reconcile
/-!
# The cast pass — trees reconciled, with a report and a log

Erasure and overload resolution lose what regenerated source needs in order to compile as it did: a
value read back through a type variable needs a downcast, a `null` passed to an overloaded method a
cast that picks the overload.  A pass gives every slot of a tree the casts it needs and takes away
those it does not.

A pass remembers nothing but its report.  Single expressions add to it; a run starts it at zero and
hands it over at its end, so it stands at zero after a run, unless a fault ended the run.
-/
namespace Recast

structure CastPass where
  rules : Rules
  report : CastReport := {}

/-- What a call returns, the pass after it, and the events meanwhile.  A fault comes without a value: what the tree looks
like that a failing call has rewritten in part, and that is to be thrown away, is not represented. -/
structure Outcome (α : Type) where
  result : Except CastError α
  pass : CastPass
  events : List LogEvent

namespace CastPass

/-- A pass with the default settings. -/
def ofFacts (facts : TypeFacts) : CastPass := { rules := ⟨facts, {}⟩ }

def withSettings (p : CastPass) (settings : Settings) : CastPass :=
  { p with rules := { p.rules with settings } }

/-- The steps of the visits, faults and what would follow them included. -/
def stepsOf (p : CastPass) (visits : List Visit) : List Step := visits.flatMap (·.steps p.rules)

/-- The outcome of a single call: its changes are added to the report. -/
def single {α : Type} (p : CastPass) (steps : List Step) (value : α) : Outcome α where
  result :=
    match steps.findSome? (·.fault?) with
    | some e => .error e
    | none => .ok value
  pass := { p with report := p.report + .ofSteps (Step.taken steps) }
  events := (Step.taken steps).filterMap (·.event?)

/-- The outcome of a run over a whole tree.  Where there is a fault the value is left out: of a unit or body that has been
rewritten up to there nothing is kept but the report and the events. -/
def whole {α : Type} (p : CastPass) (steps : List Step) (value : α) : Outcome (CastReport × α) :=
  match steps.findSome? (·.fault?) with
  | some e =>
    { result := .error e
      pass := { p with report := .ofSteps (Step.taken steps) }
      events := (Step.taken steps).filterMap (·.event?) }
  | none =>
    { result := .ok (.ofSteps steps, value)
      pass := { p with report := {} }
      events := steps.filterMap (·.event?) ++ [(CastReport.ofSteps steps).event] }

/-- Every type declared in the unit. -/
def run (p : CastPass) (u : CompilationUnit) : Outcome (CastReport × CompilationUnit) :=
  p.whole (p.stepsOf (u.visits p.rules.settings.anonymousClassBodies)) (u.reconcile p.rules)

/-- The members of one class body. -/
def runBody (p : CastPass) (b : Body) : Outcome (CastReport × Body) :=
  p.whole (p.stepsOf (b.visits p.rules.settings.anonymousClassBodies)) (b.reconcile p.rules)

/-- One expression against a type; `forced` asks for a cast whenever the class names differ. -/
def reconcile (p : CastPass) (bounds : TypeBounds) (required : Ty) (e : Expr) (forced : Bool) : Outcome Expr :=
  p.single
    (p.stepsOf (e.visits p.rules.settings.anonymousClassBodies (.ofBounds bounds) (some (.fit required forced))))
    (e.reconcile p.rules (.ofBounds bounds) (some (.fit required forced)))

/-- A cast of one expression; its parts are left alone. -/
def addCast (p : CastPass) (target : Ty) (e : Expr) : Outcome Expr :=
  p.single [.edit (.castTo target e)] ((Edit.castTo target e).apply e)

end CastPass

/-- A run with a pass of its own and the default settings. -/
def CompilationUnit.addCasts (facts : TypeFacts) (u : CompilationUnit) : Outcome (CastReport × CompilationUnit) :=
  (CastPass.ofFacts facts).run u

end Recast
