import Mathlib.Data.List.Forall2
import Recast.Proofs.Bare
import Recast.Proofs.Run
import Recast.Proofs.Trace
/-!
# Frame — what a run leaves as it was

The positions of a reconciled tree answer those of the tree one to one, and in each stands the same expression, the
walked one, or the one of a slot that the run came by (`CompilationUnit.keeps`).  With the bare tree, which a run
keeps, this says how far a run reaches: casts come, go and change their targets, and an object creation can lose its
type arguments, but only where it comes to stand under a cast.
-/
namespace Recast

/-- **What a part becomes** in a tree reconciled with the given visits. -/
inductive Part.Kept (r : Rules) (vs : List Visit) : Part → Part → Prop
  | declared (t : Ty) : Kept r vs (.declared t) (.declared t)
  | untouched (e : Expr) : Kept r vs (.position e) (.position e)
  | walked (sc : Scope) (e : Expr) : Kept r vs (.position e) (.position (e.reconcile r sc none))
  | settled (sc : Scope) (d : Demand) (e : Expr) (h : .slot sc d e ∈ vs) :
    Kept r vs (.position e) (.position (e.reconcile r sc (some d)))

theorem Part.Kept.mono {r : Rules} {vs ws : List Visit} {x y : Part} (hsub : vs ⊆ ws) (h : Kept r vs x y) :
    Kept r ws x y := by
  cases h with
  | declared t => exact .declared t
  | untouched e => exact .untouched e
  | walked sc e => exact .walked sc e
  | settled sc d e h => exact .settled sc d e (hsub h)

/-- **The parts before and after** answer one to one. -/
def Rules.Keeps (r : Rules) (vs : List Visit) (xs ys : List Part) : Prop := List.Forall₂ (Part.Kept r vs) xs ys

/-- What became of each part: the slot it was settled as, if any, is one that the run came by. -/
theorem Rules.Accounts.keeps {r : Rules} {vs : List Visit} {xs ys : List Part} (h : r.Accounts vs xs ys) :
    r.Keeps vs xs ys := by
  unfold Keeps
  induction h with
  | nil => exact List.Forall₂.nil
  | part h _ ih =>
    refine List.Forall₂.cons ?_ (ih.imp fun _ _ => .mono (List.subset_append_right _ _))
    cases h with
    | declared t => exact .declared t
    | untouched e => exact .untouched e
    | walked sc e => exact .walked sc e
    | settled sc d e => exact .settled sc d e List.mem_cons_self
  | call s _ ih => exact ih.imp fun _ _ => .mono (List.subset_cons_self _ _)
  | skip w _ ih => exact ih.imp fun _ _ => .mono (List.subset_cons_self _ _)
  | reorder hp _ ih => exact ih.imp fun _ _ => .mono hp.subset

variable (r : Rules)

/-- **The positions of a reconciled unit**, each with what became of it. -/
theorem CompilationUnit.keeps (u : CompilationUnit) : r.Keeps (u.visits r.anonymous) u.parts (u.reconcile r).parts :=
  (u.traces r).accounts.keeps

/-- **The expression of a position before and after**: the same but for casts.  An object creation whose type has
changed has lost its type arguments and stands directly under a cast. -/
structure Expr.Recasts (e e' : Expr) : Prop where
  bare : e'.bare = e.bare
  core : e'.core.ty = e.core.ty ∨
    e.core.isNew = true ∧ e'.core.isNew = true ∧ e'.core.ty = e.core.ty.raw ∧ e'.isCast = true

theorem Expr.Recasts.refl (e : Expr) : e.Recasts e := ⟨rfl, .inl rfl⟩

theorem Expr.recasts_walk (sc : Scope) (e : Expr) : e.Recasts (e.reconcile r sc none) := by
  refine ⟨e.bare_reconcile r sc none, .inl ?_⟩
  rw [core_walk, (e.core.walk_alike r sc).ty]

/-- Only where an object creation gives up its type arguments does what stands under the casts change. -/
theorem Edit.Planned.recasts {e : Expr} {es : List Edit} (h : Planned e es) : e.Recasts (applyAll es e) := by
  refine ⟨h.bare_applyAll, ?_⟩
  cases h with
  | erase line t hw =>
    obtain ⟨l, s, k⟩ := e
    cases k with
    | new desc as ps b => exact .inr ⟨rfl, rfl, rfl, rfl⟩
    | _ => cases hw
  | _ => exact .inl rfl

theorem Expr.recasts_reconcile (sc : Scope) (d : Demand) (e : Expr) : e.Recasts (e.reconcile r sc (some d)) := by
  have hsettled := (r.planned sc.bounds d e).recasts
  have hwalked := (r.settle sc.bounds d e).recasts_walk r sc
  have halike := (r.settle sc.bounds d e).core.walk_alike r sc
  rw [← reconcile_some] at hwalked
  refine ⟨hwalked.bare.trans hsettled.bare, ?_⟩
  rw [reconcile_some, core_walk, halike.ty, halike.isNew, ((r.settle sc.bounds d e).walk_alike r sc).isCast]
  exact hsettled.core

theorem Part.Kept.recasts {vs : List Visit} {x y : Part} (h : Kept r vs x y) :
    Option.Rel Expr.Recasts x.position? y.position? := by
  cases h with
  | declared t => exact .none
  | untouched e => exact .some (.refl e)
  | walked sc e => exact .some (e.recasts_walk r sc)
  | settled sc d e h => exact .some (e.recasts_reconcile r sc d)

/-- **A run touches nothing but casts.**  Without its casts, and with its object creations raw, the tree that comes out
is the tree that went in; and the one thing a position can lose under its casts is the type arguments of an object
creation, for a cast right above. -/
theorem CastPass.run_touches_casts_only (p : CastPass) (u u' : CompilationUnit) (report : CastReport)
    (hrun : (p.run u).result = .ok (report, u')) :
    u'.bare = u.bare ∧ List.Forall₂ Expr.Recasts u.positions u'.positions := by
  obtain ⟨-, rfl⟩ := run_ok hrun
  refine ⟨u.bare_reconcile p.rules, ?_⟩
  exact List.rel_filterMap (fun _ _ h => h.recasts) (u.keeps p.rules)

theorem CastPass.run_touches_casts_only_readBack :
    (CompilationUnit.readBack (.cast 3 (.ofVar "T") (.localVar 3 .root "value"))).bare =
        (CompilationUnit.readBack (.localVar 3 .root "value")).bare ∧
      List.Forall₂ Expr.Recasts (CompilationUnit.readBack (.localVar 3 .root "value")).positions
        (CompilationUnit.readBack (.cast 3 (.ofVar "T") (.localVar 3 .root "value"))).positions :=
  run_touches_casts_only _ _ _ _ run_readBack

end Recast
