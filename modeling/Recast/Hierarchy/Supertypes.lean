import Recast.Hierarchy.Basic
import Recast.Ty.Substitution
/-!
# Supertypes — what a use of a class is also a use of

The direct supertypes of a use are the declared ones with the use's arguments put in; a use whose
arguments do not match the parameters in number, the raw use among them, has raw supertypes.  An
interface that declares no superclass is still below the root.

Both searches go breadth first and enter each class name once.  A name enters only if it is new,
and only registered names have supertypes, so a search ends on every hierarchy: each step either
uses up a registered name or shortens the queue.  Cycles and supertypes that grow with each step
(`class C<T> extends D<C<T>>`) are no exception.
-/
namespace Recast

namespace ClassDecl

/-- Supertypes as declared, in the order superclass, interfaces, implicit root. -/
def declaredSupertypes (c : ClassDecl) : List ClassType :=
  c.superclass.toList ++ c.interfaces ++
    if c.kind = .interface ∧ c.superclass.isNone then [.root] else []

/-- The declared supertypes for a use of the class with the given arguments. -/
def instantiate (c : ClassDecl) (arguments : Option (List TypeArgument)) (declared : ClassType) : ClassType :=
  if c.parameters = [] then declared
  else match arguments with
    | some as => if as.length = c.parameters.length then declared.subst ⟨c.parameters, as⟩ else declared.raw
    | none => declared.raw

end ClassDecl

namespace Hierarchy

def directSupertypes (h : Hierarchy) (use : ClassType) : List ClassType :=
  match h.find? use.name with
  | some c => c.declaredSupertypes.map (c.instantiate use.arguments)
  | none => []

/-- Number of registered declarations whose name a search has not entered. -/
def unseen (h : Hierarchy) (seen : List String) : Nat :=
  h.classes.countP fun c => !seen.contains c.name

theorem unseen_cons_le (h : Hierarchy) (seen : List String) (n : String) :
    h.unseen (n :: seen) ≤ h.unseen seen :=
  List.countP_mono_left fun c _ hc => by simp_all

theorem unseen_cons_lt {h : Hierarchy} {seen : List String} {c : ClassDecl} {n : String}
    (hc : h.find? n = some c) (hn : seen.contains n = false) : h.unseen (n :: seen) < h.unseen seen := by
  have hname : c.name = n := by simpa using List.find?_some hc
  obtain ⟨as, bs, hcs⟩ := List.append_of_mem (List.mem_of_find?_eq_some hc)
  have ha := List.countP_mono_left (l := as) (p := fun c => !(n :: seen).contains c.name)
    (q := fun c => !seen.contains c.name) fun c _ hc => by simp_all
  have hb := List.countP_mono_left (l := bs) (p := fun c => !(n :: seen).contains c.name)
    (q := fun c => !seen.contains c.name) fun c _ hc => by simp_all
  simp only [unseen, hcs, List.countP_append, List.countP_cons, hname, hn]
  simp only [List.contains_cons, beq_self_eq_true, Bool.true_or, Bool.not_true, Bool.false_eq_true,
    if_false, Bool.not_false, if_true] at ha hb ⊢
  omega

theorem directSupertypes_eq_nil {h : Hierarchy} {use : ClassType} (hu : h.find? use.name = none) :
    h.directSupertypes use = [] := by
  simp [directSupertypes, hu]

/-- Entering a new name makes progress: a registered name is used up, or nothing joins the queue. -/
theorem enter_decreases (h : Hierarchy) {seen : List String} {c : ClassType} (rest : List ClassType)
    (hn : ¬ seen.contains c.name = true) :
    Prod.Lex (· < ·) (· < ·) (h.unseen (c.name :: seen), (rest ++ h.directSupertypes c).length)
      (h.unseen seen, (c :: rest).length) := by
  cases hc : h.find? c.name with
  | some d => exact Prod.Lex.left _ _ (unseen_cons_lt hc (by simpa using hn))
  | none =>
    rw [directSupertypes_eq_nil hc, List.append_nil]
    rcases Nat.lt_or_eq_of_le (h.unseen_cons_le seen c.name) with hlt | heq
    · exact Prod.Lex.left _ _ hlt
    · rw [heq]
      exact Prod.Lex.right _ (by simp)

/-- First use of the class `target` in the queue or above it. -/
def search (h : Hierarchy) (target : String) (seen : List String) (queue : List ClassType) :
    Option ClassType :=
  match queue with
  | [] => none
  | c :: rest =>
    if c.name = target then some c
    else if seen.contains c.name then h.search target seen rest
    else h.search target (c.name :: seen) (rest ++ h.directSupertypes c)
termination_by (h.unseen seen, queue.length)
decreasing_by
  · exact Prod.Lex.right _ (by simp)
  · exact h.enter_decreases rest (by assumption)

/-- The use of `target` that a use of a class implies, the class itself included. -/
def supertype? (h : Hierarchy) (use : ClassType) (target : String) : Option ClassType :=
  h.search target [] [use]

/-- The first class that a search enters is the one it starts from. -/
theorem supertype?_self (h : Hierarchy) (c : ClassType) : h.supertype? c c.name = some c := by
  unfold supertype?
  rw [search, if_pos rfl]

def namesAbove (h : Hierarchy) (seen : List String) (queue : List ClassType) : List String :=
  match queue with
  | [] => []
  | c :: rest =>
    if seen.contains c.name then h.namesAbove seen rest
    else c.name :: h.namesAbove (c.name :: seen) (rest ++ h.directSupertypes c)
termination_by (h.unseen seen, queue.length)
decreasing_by
  · exact Prod.Lex.right _ (by simp)
  · exact h.enter_decreases rest (by assumption)

/-- The class and everything above it by name, nearest first. -/
def supertypeNames (h : Hierarchy) (name : String) : List String :=
  h.namesAbove [] [.ofName name]

end Hierarchy

end Recast
