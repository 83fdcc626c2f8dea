import Recast.Ty.Source
import Recast.Cast.Visit
import Recast.Settings.LogLevel
/-!
# Log — the steps a run takes, and what it tells about them

The steps of a run come from its visits: the edits of each slot, a note for each skipped member, and
a fault for a call with fewer parameter types than arguments.  A run ends at its first fault, so of
its steps only those before count as taken.

The report counts the edits taken.  Every step but an erasure is told as an event; an erasure shows
in the report alone.
-/
namespace Recast

/-- A tree at odds with itself: a call without a resolved type for each argument. -/
inductive CastError
  | missingParameterTypes (site : CallSite)
deriving DecidableEq

namespace CastError

/-- The member that is called, behind its class. -/
def member : CastError → String
  | .missingParameterTypes s => s.owner ++ "." ++ s.member

def message : CastError → String
  | e@(.missingParameterTypes s) =>
    "call to " ++ e.member ++ " has " ++ toString s.arguments ++ " argument(s) but only " ++
      toString s.parameters ++ " resolved parameter type(s)"

end CastError

inductive Step
  | edit (edit : Edit)
  | skip (what : Skipped)
  | fault (error : CastError)
deriving DecidableEq

namespace CallSite

def fault? (s : CallSite) : Option CastError :=
  if s.parameters < s.arguments then some (.missingParameterTypes s) else none

end CallSite

namespace Visit

def steps (r : Rules) : Visit → List Step
  | .slot sc d e => (r.edits sc.bounds d e).map .edit
  | .call s => s.fault?.toList.map .fault
  | .skip w => [.skip w]

end Visit

namespace Step

def edit? : Step → Option Edit
  | .edit e => some e
  | _ => none

def fault? : Step → Option CastError
  | .fault e => some e
  | _ => none

/-- The steps before the first fault. -/
def taken (steps : List Step) : List Step := steps.takeWhile (·.fault?.isNone)

end Step

/-! ## Report -/

/-- How often each kind of edit was made. -/
structure CastReport where
  inserted : Nat := 0
  retargeted : Nat := 0
  collapsed : Nat := 0
  removed : Nat := 0
  erased : Nat := 0
deriving DecidableEq

namespace CastReport

def empty : CastReport := {}

def isEmpty (r : CastReport) : Bool := r == empty

def add (a b : CastReport) : CastReport where
  inserted := a.inserted + b.inserted
  retargeted := a.retargeted + b.retargeted
  collapsed := a.collapsed + b.collapsed
  removed := a.removed + b.removed
  erased := a.erased + b.erased

instance : Add CastReport := ⟨add⟩

def ofEdit : Edit → CastReport
  | .insert .. => { inserted := 1 }
  | .retarget .. => { retargeted := 1 }
  | .collapse .. => { collapsed := 1 }
  | .remove .. => { removed := 1 }
  | .erase => { erased := 1 }

def ofEdits : List Edit → CastReport
  | [] => empty
  | e :: es => ofEdit e + ofEdits es

def ofSteps (steps : List Step) : CastReport := ofEdits (steps.filterMap (·.edit?))

theorem add_assoc (a b c : CastReport) : a + b + c = a + (b + c) := by
  simp only [HAdd.hAdd, Add.add, add, mk.injEq]
  simp only [Nat.add_eq, Nat.add_assoc, and_self]

theorem empty_add (a : CastReport) : empty + a = a := by
  simp only [HAdd.hAdd, Add.add, add, empty]
  simp only [Nat.add_eq, Nat.zero_add]

theorem ofEdits_append : ∀ ds es : List Edit, ofEdits (ds ++ es) = ofEdits ds + ofEdits es
  | [], es => (empty_add _).symm
  | d :: ds, es => by
    rw [List.cons_append, ofEdits, ofEdits_append ds es, ← add_assoc]
    rfl

theorem ofSteps_append (xs ys : List Step) : ofSteps (xs ++ ys) = ofSteps xs + ofSteps ys := by
  rw [ofSteps, List.filterMap_append, ofEdits_append]
  rfl

end CastReport

/-! ## Events -/

inductive LogValue
  | number (n : Nat)
  | text (s : String)
deriving DecidableEq

structure LogEvent where
  level : LogLevel
  message : String
  fields : List (String × LogValue)
deriving DecidableEq

namespace Edit

def event? : Edit → Option LogEvent
  | .insert line target =>
    some ⟨.trace, "inserted cast", [("line", .number line.toNat), ("cast", .text target.source)]⟩
  | .retarget line source target =>
    some ⟨.trace, "retargeted cast",
      [("line", .number line.toNat), ("from", .text source.source), ("to", .text target.source)]⟩
  | .collapse line source target =>
    some ⟨.trace, "collapsed cast onto an operand of type " ++ target.source,
      [("line", .number line.toNat), ("cast", .text source.source)]⟩
  | .remove line source =>
    some ⟨.trace, "removed redundant cast", [("line", .number line.toNat), ("cast", .text source.source)]⟩
  | .erase => none

end Edit

namespace Skipped

def event : Skipped → LogEvent
  | .field => ⟨.debug, "skipping synthetic field", []⟩
  | .constructor descriptor => ⟨.debug, "skipping generated constructor", [("descriptor", .text descriptor)]⟩
  | .method name descriptor =>
    ⟨.debug, "skipping generated method", [("name", .text name), ("descriptor", .text descriptor)]⟩

end Skipped

namespace Step

def event? : Step → Option LogEvent
  | .edit e => e.event?
  | .skip w => some w.event
  | .fault _ => none

end Step

namespace CastReport

def counts (r : CastReport) : List (String × Nat) :=
  [("inserted", r.inserted), ("retargeted", r.retargeted), ("collapsed", r.collapsed),
   ("removed", r.removed), ("erased", r.erased)]

/-- The closing event of a run. -/
def event (r : CastReport) : LogEvent :=
  ⟨.debug, "cast reconciliation finished", r.counts.map fun (n, k) => (n, .number k)⟩

end CastReport

end Recast
