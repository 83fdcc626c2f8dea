import Mathlib.Data.List.Forall2
import Recast.Proofs.Nodes
import Recast.Proofs.Revisit
import Recast.Proofs.Run
/-!
# Tours — a run comes by every node

The visits of a tree check every call among its nodes, and check them in the order of the nodes.  And the nodes of the
reconciled tree answer those of the tree one to one, as long as no call is short: each expression has been walked in
some scope, each class body reconciled by itself (`CompilationUnit.tours`).

So the nodes, which are listed without a scope, a demand or a type fact, say where a run fails: at the first call that
is short (`CastPass.run_rejects`).
-/
namespace Recast

/-- What type a run may leave a node with: its own, or the raw one of an object creation. -/
def Expr.Retypes (e : Expr) (t : Ty) : Prop := t = e.ty ∨ e.isNew = true ∧ t = e.ty.raw

/-- **What becomes of a node.**  A body has met no fault, since none of its calls is short. -/
inductive Node.Toured (r : Rules) : Node → Node → Prop
  | expr (sc : Scope) (l : UInt32) (t t' : Ty) (k : ExprKind) (ht : Expr.Retypes ⟨l, t, k⟩ t') :
    Toured r (.expr ⟨l, t, k⟩) (.expr ⟨l, t', k.reconcile r sc t⟩)
  | body (b : Body) (h : (b.nodes r.anonymous).findSome? (·.fault?) = none) : Toured r (.body b) (.body (b.reconcile r))

/-- **The visits of a tree, its nodes, and the nodes of the reconciled tree.** -/
structure Rules.Tours (r : Rules) (vs : List Visit) (xs ys : List Node) : Prop where
  fault : vs.findSome? (·.fault?) = xs.findSome? (·.fault?)
  nodes : xs.findSome? (·.fault?) = none → List.Forall₂ (Node.Toured r) xs ys

theorem Node.ofExpr_of_not_cast {e : Expr} (h : e.isCast = false) : ofExpr e = [.expr e] := by
  unfold ofExpr
  rw [h, if_neg Bool.false_ne_true]

theorem Node.ofExpr_of_cast {e : Expr} (h : e.isCast = true) : ofExpr e = [] := by
  unfold ofExpr
  rw [h, if_pos rfl]

theorem Expr.isCast_reconcile (r : Rules) (sc : Scope) (l : UInt32) (t t' : Ty) (k : ExprKind) :
    isCast ⟨l, t', k.reconcile r sc t⟩ = isCast ⟨l, t, k⟩ := by
  have hkind : isCast ⟨l, t', k.reconcile r sc t⟩ = isCast ⟨l, t, k.reconcile r sc t⟩ := by
    cases k.reconcile r sc t <;> rfl
  exact hkind.trans (walk_alike r sc ⟨l, t, k⟩).isCast

theorem Expr.isCast_of_call? {e : Expr} {c : Call} (h : e.call? = some c) : e.isCast = false := by
  obtain ⟨l, t, k⟩ := e
  cases k <;> first | rfl | cases h

theorem Node.fault?_expr {e : Expr} {c : Call} (h : e.call? = some c) : (Node.expr e).fault? = c.site.fault? := by
  simp only [fault?, call?, h, Option.bind_some]

/-- Edits bring casts and take them; the node is one of the types that a run may leave it with. -/
theorem Edit.Planned.nodes_applyAll {e : Expr} {es : List Edit} (h : Planned e es) (a : Bool) :
    ∃ t, e.Retypes t ∧ (applyAll es e).nodes a = Node.ofExpr { e with ty := t } ++ e.kind.nodes a := by
  obtain ⟨l, s, k⟩ := e
  cases h with
  | erase line t hw => exact ⟨s.raw, .inr ⟨hw, rfl⟩, rfl⟩
  | _ => exact ⟨s, .inl rfl, rfl⟩

namespace Rules.Tours

variable {r : Rules} {vs ws : List Visit} {xs ys xs' ys' : List Node}

theorem nil : r.Tours [] [] [] := ⟨rfl, fun _ => .nil⟩

theorem skip (w : Skipped) : r.Tours [.skip w] [] [] := ⟨rfl, fun _ => .nil⟩

theorem append (hv : r.Tours vs xs ys) (hw : r.Tours ws xs' ys') : r.Tours (vs ++ ws) (xs ++ xs') (ys ++ ys') := by
  refine ⟨by rw [List.findSome?_append, List.findSome?_append, hv.fault, hw.fault], fun h => ?_⟩
  rw [List.findSome?_append, Option.or_eq_none_iff] at h
  exact List.rel_append (hv.nodes h.1) (hw.nodes h.2)

theorem slot (sc : Scope) (d : Option Demand) (e : Expr) (h : r.Tours vs xs ys) :
    r.Tours (Visit.at? sc d e ++ vs) xs ys := by
  cases d with
  | none => exact h
  | some d => exact ⟨h.fault, h.nodes⟩

variable {sc : Scope} {l : UInt32} {t t' : Ty} {k : ExprKind}

/-- An expression that is no call, with what is below it. -/
theorem plain (hcall : Expr.call? ⟨l, t, k⟩ = none) (ht : Expr.Retypes ⟨l, t, k⟩ t') (h : r.Tours vs xs ys) :
    r.Tours vs (Node.ofExpr ⟨l, t, k⟩ ++ xs) (Node.ofExpr ⟨l, t', k.reconcile r sc t⟩ ++ ys) := by
  cases hc : Expr.isCast ⟨l, t, k⟩ with
  | true =>
    rw [Node.ofExpr_of_cast hc, Node.ofExpr_of_cast ((Expr.isCast_reconcile r sc l t t' k).trans hc)]
    exact h
  | false =>
    rw [Node.ofExpr_of_not_cast hc, Node.ofExpr_of_not_cast ((Expr.isCast_reconcile r sc l t t' k).trans hc)]
    have hfault : (Node.expr ⟨l, t, k⟩).fault? = none := by simp only [Node.fault?, Node.call?, hcall, Option.bind_none]
    refine ⟨?_, fun hn => ?_⟩
    · rw [h.fault, List.singleton_append, List.findSome?_cons, hfault]
    · rw [List.singleton_append, List.findSome?_cons, hfault] at hn
      exact .cons (.expr sc l t t' k ht) (h.nodes hn)

/-- A call: where it is short, nothing behind it matters. -/
theorem call (c : Call) (hcall : Expr.call? ⟨l, t, k⟩ = some c) (ht : Expr.Retypes ⟨l, t, k⟩ t')
    (h : ¬ c.Short → r.Tours vs xs ys) :
    r.Tours (.call c.site :: vs) (Node.ofExpr ⟨l, t, k⟩ ++ xs) (Node.ofExpr ⟨l, t', k.reconcile r sc t⟩ ++ ys) := by
  have hc := Expr.isCast_of_call? hcall
  rw [Node.ofExpr_of_not_cast hc, Node.ofExpr_of_not_cast ((Expr.isCast_reconcile r sc l t t' k).trans hc)]
  have hvisit : (Visit.call c.site).fault? = c.site.fault? := rfl
  by_cases hshort : c.Short
  · have hfault := (c.fault?_site_eq_some _).2 ⟨hshort, rfl⟩
    refine ⟨?_, fun hn => ?_⟩
    · rw [List.singleton_append, List.findSome?_cons, List.findSome?_cons, Node.fault?_expr hcall, hvisit, hfault]
    · rw [List.singleton_append, List.findSome?_cons, Node.fault?_expr hcall, hfault] at hn
      cases hn
  · have hfault := c.fault?_site_eq_none.2 hshort
    refine ⟨?_, fun hn => ?_⟩
    · rw [List.singleton_append, List.findSome?_cons, List.findSome?_cons, Node.fault?_expr hcall, hvisit, hfault]
      exact (h hshort).fault
    · rw [List.singleton_append, List.findSome?_cons, Node.fault?_expr hcall, hfault] at hn
      exact .cons (.expr sc l t t' k ht) ((h hshort).nodes hn)

end Rules.Tours

variable (r : Rules)

mutual

theorem Expr.tours (sc : Scope) : ∀ (d : Option Demand) (e : Expr),
    r.Tours (e.visits r.anonymous sc d) (e.nodes r.anonymous) ((e.reconcile r sc d).nodes r.anonymous)
  | d, ⟨l, t, k⟩ => by
    have hplan := (r.planned_editsAt sc.bounds ⟨l, t, k⟩ d).walk r sc
    obtain ⟨t', ht, hnodes⟩ := hplan.nodes_applyAll r.anonymous
    have hretypes : Expr.Retypes ⟨l, t, k⟩ t' := by
      have halike := Expr.walk_alike r sc ⟨l, t, k⟩
      unfold Expr.Retypes at ht
      rwa [halike.ty, halike.isNew] at ht
    rw [Expr.reconcile_eq_applyAll, hnodes]
    exact .slot sc d _ (k.tours sc l t t' hretypes)

theorem ExprKind.tours (sc : Scope) (l : UInt32) (t t' : Ty) : ∀ k : ExprKind, Expr.Retypes ⟨l, t, k⟩ t' →
    r.Tours (k.visits r.anonymous sc t) (Node.ofExpr ⟨l, t, k⟩ ++ k.nodes r.anonymous)
      (Node.ofExpr ⟨l, t', k.reconcile r sc t⟩ ++ (k.reconcile r sc t).nodes r.anonymous)
  | .leaf _, ht | .field none _, ht | .lambda _ none, ht | .methodRef _ _, ht => .plain rfl ht .nil
  | .field (some q) m, ht => .plain rfl ht (q.tours sc _)
  | .call q m ts as ps, ht =>
    .call ⟨m.owner, m.name, false, as, ps⟩ rfl ht fun h =>
      .append (toursArguments sc _ ps as (Nat.not_lt.1 h)) (q.tours sc none)
  | .delegate s o desc as ps, ht =>
    .call ⟨o.name, MethodDecl.constructorName, false, as, ps⟩ rfl ht fun h =>
      toursArguments sc _ ps as (Nat.not_lt.1 h)
  | .new desc as ps none, ht =>
    .call ⟨t.createdName, MethodDecl.constructorName, true, as, ps⟩ rfl ht fun h =>
      toursArguments sc _ ps as (Nat.not_lt.1 h)
  | .new desc as ps (some b), ht => by
    refine .call ⟨t.createdName, MethodDecl.constructorName, true, as, ps⟩ rfl ht fun h =>
      .append (toursArguments sc _ ps as (Nat.not_lt.1 h)) ?_
    split
    · exact b.tours
    · exact .nil
  | .newArray ds, ht => .plain rfl ht (toursExprs sc ds)
  | .filledArray es, ht => .plain rfl ht (toursInits sc _ es)
  | .binary o x y, ht => .plain rfl ht (.append (x.tours sc none) (y.tours sc _))
  | .unary _ _ x, ht => .plain rfl ht (x.tours sc none)
  | .instanceOf x _, ht => .plain rfl ht (x.tours sc none)
  | .conditional c x y, ht => .plain rfl ht (.append (.append (c.tours sc none) (x.tours sc _)) (y.tours sc _))
  | .index a i, ht => .plain rfl ht (.append (a.tours sc none) (i.tours sc none))
  | .cast x, ht => .plain rfl ht (x.tours sc none)
  | .lambda _ (some ss), ht => .plain rfl ht (toursStmts _ ss)

theorem toursArguments (sc : Scope) (d : Ty → Demand) : ∀ (ps : List Ty) (as : List Expr), as.length ≤ ps.length →
    r.Tours (visitArguments r.anonymous sc d ps as) (argumentNodes r.anonymous as)
      (argumentNodes r.anonymous (reconcileArguments r sc d ps as))
  | [], [], _ | _ :: _, [], _ => .nil
  | _ :: ps, a :: as, h => .append (toursArguments sc d ps as (Nat.le_of_succ_le_succ h)) (a.tours sc _)

theorem toursExprs (sc : Scope) : ∀ es : List Expr,
    r.Tours (visitExprs r.anonymous sc es) (exprNodes r.anonymous es) (exprNodes r.anonymous (reconcileExprs r sc es))
  | [] => .nil
  | e :: es => .append (e.tours sc none) (toursExprs sc es)

theorem Init.tours (sc : Scope) (t : Ty) : ∀ i : Init,
    r.Tours (i.visits r.anonymous sc t) (i.nodes r.anonymous) ((i.reconcile r sc t).nodes r.anonymous)
  | .expr e => e.tours sc _
  | .array es => toursInits sc _ es

theorem toursInits (sc : Scope) (t : Ty) : ∀ is : List Init,
    r.Tours (visitInits r.anonymous sc t is) (initNodes r.anonymous is)
      (initNodes r.anonymous (reconcileInits r sc t is))
  | [] => .nil
  | i :: is => .append (i.tours sc t) (toursInits sc t is)

theorem Declarator.tours (sc : Scope) (t : Ty) : ∀ d : Declarator,
    r.Tours (d.visits r.anonymous sc t) (d.nodes r.anonymous) ((d.reconcile r sc t).nodes r.anonymous)
  | ⟨_, _, none⟩ => .nil
  | ⟨_, _, some i⟩ => i.tours sc _

theorem toursDeclarators (sc : Scope) (t : Ty) : ∀ ds : List Declarator,
    r.Tours (visitDeclarators r.anonymous sc t ds) (declaratorNodes r.anonymous ds)
      (declaratorNodes r.anonymous (reconcileDeclarators r sc t ds))
  | [] => .nil
  | d :: ds => .append (d.tours sc t) (toursDeclarators sc t ds)

theorem LocalDecl.tours (sc : Scope) : ∀ l : LocalDecl,
    r.Tours (l.visits r.anonymous sc) (l.nodes r.anonymous) ((l.reconcile r sc).nodes r.anonymous)
  | ⟨t, _, ds⟩ => toursDeclarators sc t ds

theorem toursLocals (sc : Scope) : ∀ ls : List LocalDecl,
    r.Tours (visitLocals r.anonymous sc ls) (localNodes r.anonymous ls)
      (localNodes r.anonymous (reconcileLocals r sc ls))
  | [] => .nil
  | l :: ls => .append (l.tours sc) (toursLocals sc ls)

theorem Stmt.tours (sc : Scope) : ∀ s : Stmt,
    r.Tours (s.visits r.anonymous sc) (s.nodes r.anonymous) ((s.reconcile r sc).nodes r.anonymous)
  | .expr e => e.tours sc none
  | .decl l => l.tours sc
  | .ret none | .jump _ _ | .bytecode _ => .nil
  | .ret (some e) => e.tours sc _
  | .throw e => e.tours sc _
  | .ifThen c ss none => .append (c.tours sc none) (toursStmts sc ss)
  | .ifThen c ss (some ts) => .append (.append (c.tours sc none) (toursStmts sc ss)) (toursStmts sc ts)
  | .whileLoop _ c ss => .append (c.tours sc none) (toursStmts sc ss)
  | .forLoop is none us ss => .append (.append (toursStmts sc is) (toursExprs sc us)) (toursStmts sc ss)
  | .forLoop is (some c) us ss =>
    .append (.append (.append (toursStmts sc is) (c.tours sc none)) (toursExprs sc us)) (toursStmts sc ss)
  | .forEach _ _ e ss => .append (e.tours sc none) (toursStmts sc ss)
  | .switch e bs => .append (e.tours sc none) (toursBlocks sc bs)
  | .synchronized e ss => .append (e.tours sc none) (toursStmts sc ss)
  | .tryBlock ls ss cs none => .append (.append (toursLocals sc ls) (toursStmts sc ss)) (toursCatches sc cs)
  | .tryBlock ls ss cs (some fs) =>
    .append (.append (.append (toursLocals sc ls) (toursStmts sc ss)) (toursCatches sc cs)) (toursStmts sc fs)
  | .block _ ss => toursStmts sc ss
  | .type t => t.tours
  | .assert c none => c.tours sc none
  | .assert c (some m) => .append (c.tours sc none) (m.tours sc none)

theorem toursStmts (sc : Scope) : ∀ ss : List Stmt,
    r.Tours (visitStmts r.anonymous sc ss) (stmtNodes r.anonymous ss) (stmtNodes r.anonymous (reconcileStmts r sc ss))
  | [] => .nil
  | s :: ss => .append (s.tours sc) (toursStmts sc ss)

theorem toursLabels (sc : Scope) : ∀ ls : List (Option Expr),
    r.Tours (visitLabels r.anonymous sc ls) (labelNodes r.anonymous ls)
      (labelNodes r.anonymous (reconcileLabels r sc ls))
  | [] => .nil
  | none :: ls => toursLabels sc ls
  | some e :: ls => .append (e.tours sc none) (toursLabels sc ls)

theorem SwitchBlock.tours (sc : Scope) : ∀ b : SwitchBlock,
    r.Tours (b.visits r.anonymous sc) (b.nodes r.anonymous) ((b.reconcile r sc).nodes r.anonymous)
  | ⟨ls, ss⟩ => .append (toursLabels sc ls) (toursStmts sc ss)

theorem toursBlocks (sc : Scope) : ∀ bs : List SwitchBlock,
    r.Tours (visitBlocks r.anonymous sc bs) (blockNodes r.anonymous bs)
      (blockNodes r.anonymous (reconcileBlocks r sc bs))
  | [] => .nil
  | b :: bs => .append (b.tours sc) (toursBlocks sc bs)

theorem CatchClause.tours (sc : Scope) : ∀ c : CatchClause,
    r.Tours (c.visits r.anonymous sc) (c.nodes r.anonymous) ((c.reconcile r sc).nodes r.anonymous)
  | ⟨_, _, ss⟩ => toursStmts sc ss

theorem toursCatches (sc : Scope) : ∀ cs : List CatchClause,
    r.Tours (visitCatches r.anonymous sc cs) (catchNodes r.anonymous cs)
      (catchNodes r.anonymous (reconcileCatches r sc cs))
  | [] => .nil
  | c :: cs => .append (c.tours sc) (toursCatches sc cs)

theorem TypeDecl.tours : ∀ t : TypeDecl,
    r.Tours (t.visits r.anonymous) (t.nodes r.anonymous) ((t.reconcile r).nodes r.anonymous)
  | ⟨_, _, _, none⟩ => .nil
  | ⟨_, _, _, some b⟩ => b.tours

theorem Body.tours : ∀ b : Body,
    r.Tours (b.visits r.anonymous) (b.nodes r.anonymous) ((b.reconcile r).nodes r.anonymous)
  | ⟨n, b, ms⟩ => by
    have hmembers := toursMembers b ms
    -- the body itself is a node without a fault
    exact ⟨hmembers.fault, fun h => .cons (.body ⟨n, b, ms⟩ h) (hmembers.nodes h)⟩

theorem Member.tours (b : TypeBounds) : ∀ m : Member,
    r.Tours (m.visits r.anonymous b) (m.nodes r.anonymous) ((m.reconcile r b).nodes r.anonymous)
  | .field f t ds => by
    simp only [Member.reconcile, Member.visits, Member.nodes]
    split
    · exact .skip _
    · exact toursDeclarators _ t ds
  | .staticInit _ none => .nil
  | .staticInit _ (some ss) => toursStmts _ ss
  | .constructor h none => by
    simp only [Member.reconcile, Member.visits, Member.nodes]
    split
    · exact .skip _
    · exact .nil
  | .constructor h (some ss) => by
    simp only [Member.reconcile, Member.visits, Member.nodes]
    split
    · exact .skip _
    · exact toursStmts _ ss
  | .method h none => by
    simp only [Member.reconcile, Member.visits, Member.nodes]
    split
    · exact .skip _
    · exact .nil
  | .method h (some ss) => by
    simp only [Member.reconcile, Member.visits, Member.nodes]
    split
    · exact .skip _
    · exact toursStmts _ ss
  | .type t => t.tours

theorem toursMembers (b : TypeBounds) : ∀ ms : List Member,
    r.Tours (visitMembers r.anonymous b ms) (memberNodes r.anonymous ms)
      (memberNodes r.anonymous (reconcileMembers r b ms))
  | [] => .nil
  | m :: ms => .append (m.tours b) (toursMembers b ms)

end

/-- **A run over a unit comes by every node.** -/
theorem CompilationUnit.tours (u : CompilationUnit) :
    r.Tours (u.visits r.anonymous) (u.nodes r.anonymous) ((u.reconcile r).nodes r.anonymous) := by
  obtain ⟨ts⟩ := u
  simp only [CompilationUnit.visits, CompilationUnit.reconcile, CompilationUnit.nodes]
  induction ts with
  | nil => exact .nil
  | cons t ts ih => exact .append (t.tours r) ih

/-! ## Where a run fails -/

/-- The first fault among the nodes is that of the first call that is short. -/
theorem Node.findSome?_fault? (xs : List Node) :
    xs.findSome? (·.fault?) = (xs.filterMap (·.call?)).findSome? (·.site.fault?) := by
  rw [← List.head?_filterMap, ← List.head?_filterMap, List.filterMap_filterMap]
  rfl

/-- **A run fails with the fault of the first call that is short.** -/
theorem CastPass.run_error_iff (p : CastPass) (u : CompilationUnit) (e : CastError) :
    (p.run u).result = .error e ↔ (u.calls p.rules.anonymous).findSome? (·.site.fault?) = some e := by
  have hrun : (p.run u).result = .error e ↔ (p.stepsOf (u.visits p.rules.anonymous)).findSome? (·.fault?) = some e :=
    whole_error_iff
  rw [hrun, fault?_stepsOf, (u.tours p.rules).fault, Node.findSome?_fault?]
  rfl

/-- A call that is short makes a run fail, though it need not be the one that is reported. -/
theorem CastPass.exists_run_error_iff (p : CastPass) (u : CompilationUnit) :
    (∃ e, (p.run u).result = .error e) ↔ ∃ c ∈ u.calls p.rules.anonymous, c.Short := by
  simp only [run_error_iff]
  rw [← Option.isSome_iff_exists, List.findSome?_isSome_iff]
  constructor
  · rintro ⟨c, hc, hfault⟩
    obtain ⟨e, he⟩ := Option.isSome_iff_exists.1 hfault
    exact ⟨c, hc, ((c.fault?_site_eq_some e).1 he).1⟩
  · rintro ⟨c, hc, hshort⟩
    exact ⟨c, hc, Option.isSome_iff_exists.2 ⟨_, (c.fault?_site_eq_some _).2 ⟨hshort, rfl⟩⟩⟩

/-- **Exactly the inconsistent units are rejected.**  A run fails where a call is short, and only there; of several it
reports the one that comes first in a walk.  Neither the type facts have a say in it, nor whether needless casts are
removed, nor what the pass has counted before. -/
theorem CastPass.run_rejects (p : CastPass) (u : CompilationUnit) :
    ((∃ error, (p.run u).result = .error error) ↔ ∃ c ∈ u.calls p.rules.anonymous, c.Short) ∧
    (∀ error, (p.run u).result = .error error ↔
      ∃ before c after, u.calls p.rules.anonymous = before ++ c :: after ∧ (∀ b ∈ before, ¬ b.Short) ∧ c.Short ∧
        error = .missingParameterTypes c.site) ∧
    ∀ (facts : TypeFacts) (remove : Bool) (counted : CastReport) (error : CastError),
      ((CastPass.mk ⟨facts, { p.rules.settings with removeRedundantCasts := remove }⟩ counted).run u).result =
        .error error ↔ (p.run u).result = .error error := by
  refine ⟨p.exists_run_error_iff u, fun error => ?_, fun facts remove counted error => ?_⟩
  · rw [run_error_iff, List.findSome?_eq_some_iff]
    simp only [Call.fault?_site_eq_none, Call.fault?_site_eq_some]
    constructor
    · rintro ⟨before, c, after, hcalls, ⟨hshort, herror⟩, hbefore⟩
      exact ⟨before, c, after, hcalls, hbefore, hshort, herror⟩
    · rintro ⟨before, c, after, hcalls, hbefore, hshort, herror⟩
      exact ⟨before, c, after, hcalls, ⟨hshort, herror⟩, hbefore⟩
  · rw [run_error_iff, run_error_iff]

end Recast
