import Mathlib.Data.List.Forall2
import Recast.Proofs.Trace
/-!
# Within — a run reconciles what it comes by

A position is left, or it is reconciled in some scope and for some demand, and then all the visits of its expression
are among those of the run (`CompilationUnit.within`).  So what holds of the edits of a whole run holds of the edits
inside any one of its expressions, however deep they are.
-/
namespace Recast

/-- **What becomes of a part** under a run with the given visits: those of a reconciled expression are among them. -/
inductive Part.Within (r : Rules) (vs : List Visit) : Part → Part → Prop
  | declared (t : Ty) : Within r vs (.declared t) (.declared t)
  | untouched (e : Expr) : Within r vs (.position e) (.position e)
  | reconciled (sc : Scope) (d : Option Demand) (e : Expr) (h : e.visits r.anonymous sc d ⊆ vs) :
    Within r vs (.position e) (.position (e.reconcile r sc d))

theorem Part.Within.mono {r : Rules} {vs ws : List Visit} {x y : Part} (hsub : vs ⊆ ws) (h : Within r vs x y) :
    Within r ws x y := by
  cases h with
  | declared t => exact .declared t
  | untouched e => exact .untouched e
  | reconciled sc d e h => exact .reconciled sc d e (List.Subset.trans h hsub)

/-- **The parts before and after**, one to one. -/
def Rules.Within (r : Rules) (vs : List Visit) (xs ys : List Part) : Prop := List.Forall₂ (Part.Within r vs) xs ys

namespace Rules.Within

variable {r : Rules} {vs ws : List Visit} {xs ys xs' ys' : List Part}

theorem mono (hsub : vs ⊆ ws) (h : r.Within vs xs ys) : r.Within ws xs ys := h.imp fun _ _ => .mono hsub

theorem nil : r.Within vs [] [] := List.Forall₂.nil

/-- What a run does not enter stays. -/
theorem unseen (xs : List Part) : r.Within vs xs xs := by
  refine List.forall₂_same.2 fun x _ => ?_
  cases x with
  | position e => exact .untouched e
  | declared t => exact .declared t

theorem append (hv : r.Within vs xs ys) (hw : r.Within ws xs' ys') : r.Within (vs ++ ws) (xs ++ xs') (ys ++ ys') :=
  List.rel_append (hv.mono (List.subset_append_left vs ws)) (hw.mono (List.subset_append_right vs ws))

/-- The same for parts that a run comes by in the other order. -/
theorem append_swap (hv : r.Within vs xs ys) (hw : r.Within ws xs' ys') :
    r.Within (ws ++ vs) (xs ++ xs') (ys ++ ys') :=
  List.rel_append (hv.mono (List.subset_append_right ws vs)) (hw.mono (List.subset_append_left ws vs))

theorem call (s : CallSite) (h : r.Within vs xs ys) : r.Within (.call s :: vs) xs ys :=
  h.mono (List.subset_cons_self _ _)

theorem declared (t : Ty) (h : r.Within vs xs ys) : r.Within vs (.declared t :: xs) (.declared t :: ys) :=
  List.Forall₂.cons (.declared t) h

theorem append_declaredParts (ts : List Ty) (h : r.Within vs xs ys) :
    r.Within vs (xs ++ declaredParts ts) (ys ++ declaredParts ts) :=
  List.rel_append h (unseen (declaredParts ts))

/-- **A position**, with what is below it. -/
theorem position (sc : Scope) (d : Option Demand) (e : Expr) (h : r.Within (e.kind.visits r.anonymous sc e.ty) xs ys) :
    r.Within (e.visits r.anonymous sc d) (.position e :: xs) (.position (e.reconcile r sc d) :: ys) := by
  refine List.Forall₂.cons (.reconciled sc d e (List.Subset.refl _)) (h.mono ?_)
  rw [Expr.visits_eq]
  exact List.subset_append_right _ _

end Rules.Within

variable (r : Rules)

mutual

theorem Expr.within (sc : Scope) : ∀ (d : Option Demand) (e : Expr),
    r.Within (e.visits r.anonymous sc d) e.parts (e.reconcile r sc d).parts
  | d, ⟨l, t, k⟩ => by
    have hplan := (r.planned_editsAt sc.bounds ⟨l, t, k⟩ d).walk r sc
    have hparts : (Expr.reconcile r sc d ⟨l, t, k⟩).kind.parts = (k.reconcile r sc t).parts := by
      rw [Expr.reconcile_eq_applyAll]
      exact hplan.inner_parts
    rw [Expr.parts_eq (Expr.reconcile r sc d ⟨l, t, k⟩), hparts]
    exact .position sc d ⟨l, t, k⟩ (k.within sc t)

theorem ExprKind.within (sc : Scope) (t : Ty) : ∀ k : ExprKind,
    r.Within (k.visits r.anonymous sc t) k.parts (k.reconcile r sc t).parts
  | .leaf _ | .field none _ | .lambda _ none => .nil
  | .methodRef q _ => .unseen q.parts
  | .field (some q) _ => q.within sc _
  | .call q m _ as ps =>
    .call _ (.append_declaredParts ps (.append_swap (q.within sc none) (withinArguments sc _ ps as)))
  | .delegate _ o _ as ps => .call _ (.append_declaredParts ps (withinArguments sc _ ps as))
  | .new _ as ps none => .call _ (.append_declaredParts ps (withinArguments sc _ ps as))
  | .new _ as ps (some b) => by
    refine .call _ (.append (.append_declaredParts ps (withinArguments sc _ ps as)) ?_)
    split
    · exact b.within
    · exact .unseen b.parts
  | .newArray ds => withinExprs sc ds
  | .filledArray es => withinInits sc _ es
  | .binary _ x y => .append (x.within sc none) (y.within sc _)
  | .unary _ _ x => x.within sc none
  | .instanceOf x _ => x.within sc none
  | .conditional c x y => .append (.append (c.within sc none) (x.within sc _)) (y.within sc _)
  | .index a i => .append (a.within sc none) (i.within sc none)
  | .cast ⟨_, t, k⟩ => k.within sc t
  | .lambda _ (some ss) => withinStmts _ ss

theorem withinArguments (sc : Scope) (d : Ty → Demand) : ∀ (ps : List Ty) (as : List Expr),
    r.Within (visitArguments r.anonymous sc d ps as) (argumentParts as) (argumentParts (reconcileArguments r sc d ps as))
  | [], [] | _ :: _, [] => .nil
  | [], _ :: _ => .unseen _
  | _ :: ps, a :: as => .append_swap (a.within sc _) (withinArguments sc d ps as)

theorem withinExprs (sc : Scope) : ∀ es : List Expr,
    r.Within (visitExprs r.anonymous sc es) (argumentParts es) (argumentParts (reconcileExprs r sc es))
  | [] => .nil
  | e :: es => .append (e.within sc none) (withinExprs sc es)

theorem Init.within (sc : Scope) (t : Ty) : ∀ i : Init,
    r.Within (i.visits r.anonymous sc t) i.parts (i.reconcile r sc t).parts
  | .expr e => e.within sc _
  | .array es => withinInits sc _ es

theorem withinInits (sc : Scope) (t : Ty) : ∀ is : List Init,
    r.Within (visitInits r.anonymous sc t is) (initParts is) (initParts (reconcileInits r sc t is))
  | [] => .nil
  | i :: is => .append (i.within sc t) (withinInits sc t is)

theorem Declarator.within (sc : Scope) (t : Ty) : ∀ d : Declarator,
    r.Within (d.visits r.anonymous sc t) d.parts (d.reconcile r sc t).parts
  | ⟨_, _, none⟩ => .nil
  | ⟨_, _, some i⟩ => i.within sc _

theorem withinDeclarators (sc : Scope) (t : Ty) : ∀ ds : List Declarator,
    r.Within (visitDeclarators r.anonymous sc t ds) (declaratorParts ds)
      (declaratorParts (reconcileDeclarators r sc t ds))
  | [] => .nil
  | d :: ds => .append (d.within sc t) (withinDeclarators sc t ds)

theorem LocalDecl.within (sc : Scope) : ∀ l : LocalDecl,
    r.Within (l.visits r.anonymous sc) l.parts (l.reconcile r sc).parts
  | ⟨t, _, ds⟩ => .declared t (withinDeclarators sc t ds)

theorem withinLocals (sc : Scope) : ∀ ls : List LocalDecl,
    r.Within (visitLocals r.anonymous sc ls) (localParts ls) (localParts (reconcileLocals r sc ls))
  | [] => .nil
  | l :: ls => .append (l.within sc) (withinLocals sc ls)

theorem Stmt.within (sc : Scope) : ∀ s : Stmt,
    r.Within (s.visits r.anonymous sc) s.parts (s.reconcile r sc).parts
  | .expr e => e.within sc none
  | .decl l => l.within sc
  | .ret none | .jump _ _ | .bytecode _ => .nil
  | .ret (some e) => e.within sc _
  | .throw e => e.within sc _
  | .ifThen c ss none => .append (c.within sc none) (withinStmts sc ss)
  | .ifThen c ss (some ts) => .append (.append (c.within sc none) (withinStmts sc ss)) (withinStmts sc ts)
  | .whileLoop _ c ss => .append (c.within sc none) (withinStmts sc ss)
  | .forLoop is none us ss => .append (.append (withinStmts sc is) (withinExprs sc us)) (withinStmts sc ss)
  | .forLoop is (some c) us ss =>
    .append (.append (.append (withinStmts sc is) (c.within sc none)) (withinExprs sc us)) (withinStmts sc ss)
  | .forEach t _ e ss => .declared t (.append (e.within sc none) (withinStmts sc ss))
  | .switch e bs => .append (e.within sc none) (withinBlocks sc bs)
  | .synchronized e ss => .append (e.within sc none) (withinStmts sc ss)
  | .tryBlock ls ss cs none => .append (.append (withinLocals sc ls) (withinStmts sc ss)) (withinCatches sc cs)
  | .tryBlock ls ss cs (some fs) =>
    .append (.append (.append (withinLocals sc ls) (withinStmts sc ss)) (withinCatches sc cs)) (withinStmts sc fs)
  | .block _ ss => withinStmts sc ss
  | .type t => t.within
  | .assert c none => c.within sc none
  | .assert c (some m) => .append (c.within sc none) (m.within sc none)

theorem withinStmts (sc : Scope) : ∀ ss : List Stmt,
    r.Within (visitStmts r.anonymous sc ss) (stmtParts ss) (stmtParts (reconcileStmts r sc ss))
  | [] => .nil
  | s :: ss => .append (s.within sc) (withinStmts sc ss)

theorem withinLabels (sc : Scope) : ∀ ls : List (Option Expr),
    r.Within (visitLabels r.anonymous sc ls) (labelParts ls) (labelParts (reconcileLabels r sc ls))
  | [] => .nil
  | none :: ls => withinLabels sc ls
  | some e :: ls => .append (e.within sc none) (withinLabels sc ls)

theorem SwitchBlock.within (sc : Scope) : ∀ b : SwitchBlock,
    r.Within (b.visits r.anonymous sc) b.parts (b.reconcile r sc).parts
  | ⟨ls, ss⟩ => .append (withinLabels sc ls) (withinStmts sc ss)

theorem withinBlocks (sc : Scope) : ∀ bs : List SwitchBlock,
    r.Within (visitBlocks r.anonymous sc bs) (blockParts bs) (blockParts (reconcileBlocks r sc bs))
  | [] => .nil
  | b :: bs => .append (b.within sc) (withinBlocks sc bs)

theorem CatchClause.within (sc : Scope) : ∀ c : CatchClause,
    r.Within (c.visits r.anonymous sc) c.parts (c.reconcile r sc).parts
  | ⟨_, _, ss⟩ => withinStmts sc ss

theorem withinCatches (sc : Scope) : ∀ cs : List CatchClause,
    r.Within (visitCatches r.anonymous sc cs) (catchParts cs) (catchParts (reconcileCatches r sc cs))
  | [] => .nil
  | c :: cs => .append (c.within sc) (withinCatches sc cs)

theorem TypeDecl.within : ∀ t : TypeDecl, r.Within (t.visits r.anonymous) t.parts (t.reconcile r).parts
  | ⟨_, _, _, none⟩ => .nil
  | ⟨_, _, _, some b⟩ => b.within

theorem Body.within : ∀ b : Body, r.Within (b.visits r.anonymous) b.parts (b.reconcile r).parts
  | ⟨_, b, ms⟩ => withinMembers b ms

theorem Member.within (b : TypeBounds) : ∀ m : Member,
    r.Within (m.visits r.anonymous b) m.parts (m.reconcile r b).parts
  | .field f t ds => by
    simp only [Member.reconcile, Member.visits, Member.parts]
    refine .declared t ?_
    split
    · exact .unseen _
    · exact withinDeclarators _ t ds
  | .staticInit _ none | .constructor _ none => .nil
  | .staticInit _ (some ss) => withinStmts _ ss
  | .constructor h (some ss) => by
    simp only [Member.reconcile, Member.visits, Member.parts]
    split
    · exact .unseen _
    · exact withinStmts _ ss
  | .method h none => .declared h.returns .nil
  | .method h (some ss) => by
    simp only [Member.reconcile, Member.visits, Member.parts]
    refine .declared h.returns ?_
    split
    · exact .unseen _
    · exact withinStmts _ ss
  | .type t => t.within

theorem withinMembers (b : TypeBounds) : ∀ ms : List Member,
    r.Within (visitMembers r.anonymous b ms) (memberParts ms) (memberParts (reconcileMembers r b ms))
  | [] => .nil
  | m :: ms => .append (m.within b) (withinMembers b ms)

end

/-- **Each position of a unit**, with what a run over the unit makes of it. -/
theorem CompilationUnit.within (u : CompilationUnit) :
    r.Within (u.visits r.anonymous) u.parts (u.reconcile r).parts := by
  obtain ⟨ts⟩ := u
  simp only [CompilationUnit.visits, CompilationUnit.reconcile, CompilationUnit.parts]
  induction ts with
  | nil => exact .nil
  | cons t ts ih => exact .append (t.within r) ih

end Recast
