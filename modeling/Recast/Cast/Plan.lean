import Recast.Cast.Facts
import Recast.Cast.Edit
/-!
# Plan — what a slot demands of its expression, and the edits that meet the demand

A slot is a position with a type to fit: an argument, an initializer, a returned or assigned value,
a branch of a conditional, the qualifier of a field.  A demand says which type and why; the facts
turn it into a required type and into whether the slot is forced, as the arguments of an overloaded
call are.

Verdicts look at the expression's own type and kind, and at the type under a cast; they look at
nothing that meeting the demands of its parts could change.  So a slot's edits may be planned on the
expression as it stands and applied after its parts have been reconciled.
-/
namespace Recast

/-- `argument` is a parameter type with the call it belongs to; `declaring` asks for the class that
declares a field; `thrown` is the single type variable that a member throws. -/
inductive Demand
  | fit (ty : Ty) (forced : Bool)
  | argument (ty : Ty) (owner member : String) (count : Nat)
  | declaring (owner : String)
  | thrown (ty : Ty)

/-- The type a demand asks for, and whether the slot is forced. -/
def TypeFacts.required? (f : TypeFacts) : Demand → Option (Ty × Bool)
  | .fit t forced => some (t, forced)
  | .argument t owner member count => some (t, f.overloaded owner member count)
  | .declaring owner => (f.resolve? owner).map fun c => (.object c, false)
  | .thrown _ => none

inductive Verdict
  | keep
  | cast (target : Ty)
  | eraseAndCast (target : Ty)
deriving DecidableEq

namespace TypeFacts

/-- A target for casting a `source` that does not fit: a cast between parameterizations whose
arguments disagree does not compile, a cast to the raw type does. -/
def castTarget (f : TypeFacts) (b : TypeBounds) (target source : ClassType) : ClassType :=
  match target.arguments, source.arguments with
  | some ts, some ss => if f.argumentsFit b ts ss then target else target.raw
  | _, _ => target

/-- A forced slot casts whenever the class names differ; an object creation so cast gives up its
type arguments. -/
def classVerdict (f : TypeFacts) (b : TypeBounds) (forced isNew : Bool) (target source : ClassType) : Verdict :=
  if forced ∧ target.name ≠ source.name then
    if isNew then .eraseAndCast (.object target) else .cast (.object target)
  else if f.assignable b target source then .keep
  else .cast (.object (f.castTarget b target source))

def verdict (f : TypeFacts) (b : TypeBounds) (forced : Bool) (required : Ty) (e : Expr) : Verdict :=
  if e.ty = required ∨ required.isRoot then .keep
  else match required, e.ty with
    | .object target, .object source => f.classVerdict b forced e.isNew target source
    | .object _, .var _ => .cast required
    | .var _, .object _ => .cast required
    | .var _, .var _ => .cast required
    | _, _ => .keep

/-- A cast is redundant where its operand fits without it. -/
def redundant (f : TypeFacts) (b : TypeBounds) (required : Ty) (e : Expr) : Bool :=
  match required.class?, e.castOperand?.bind (·.ty.class?) with
  | some target, some source => f.assignable b target source
  | _, _ => false

end TypeFacts

namespace Verdict

def edits (e : Expr) : Verdict → List Edit
  | .keep => []
  | .cast target => [.castTo target e]
  | .eraseAndCast target => [.erase, .castTo target e]

end Verdict

namespace Rules

/-- A bare `null` fits everywhere, and needs a cast only to pick an overload. -/
def fitEdits (r : Rules) (b : TypeBounds) (required : Ty) (forced : Bool) (e : Expr) : List Edit :=
  if e.isNull then if forced then [.castTo required e] else []
  else
    let made := (r.facts.verdict b forced required e).edits e
    let e' := Edit.applyAll made e
    if !forced && r.settings.removeRedundantCasts && r.facts.redundant b required e' then
      made ++ [.remove e'.line e'.ty]
    else made

def edits (r : Rules) (b : TypeBounds) (d : Demand) (e : Expr) : List Edit :=
  match d with
  | .thrown t => if e.ty = t then [] else [.castTo t e]
  | d =>
    match r.facts.required? d with
    | some (required, forced) => r.fitEdits b required forced e
    | none => []

/-- The edits at a position, which need not be a slot. -/
def editsAt (r : Rules) (b : TypeBounds) (d : Option Demand) (e : Expr) : List Edit :=
  match d with
  | some d => r.edits b d e
  | none => []

end Rules

end Recast
