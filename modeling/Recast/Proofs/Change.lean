import Recast.Proofs.Run
import Recast.Proofs.Revisit
/-!
# Change — a report is empty when nothing has changed, and only then

Edits of one slot do not cancel out: what they leave has another type or stands under another number of casts
(`Edit.Planned.changes`), and the walk behind them changes neither.  Nor does a slot make up for another, since every
slot is in a place of its own.  So a tree comes out as it went in exactly when none of its slots has an edit, by one
induction over the tree with a case for each constructor (`CompilationUnit.reconcile_eq_self_iff`).
-/
namespace Recast

namespace Rules

variable (r : Rules)

theorem editsOf_call (s : CallSite) (vs : List Visit) : r.editsOf (.call s :: vs) = r.editsOf vs := rfl

theorem editsOf_append_eq_nil_iff (vs ws : List Visit) :
    r.editsOf (vs ++ ws) = [] ↔ r.editsOf vs = [] ∧ r.editsOf ws = [] := by
  rw [editsOf_append, List.append_eq_nil_iff]

theorem editsOf_at? (sc : Scope) (d : Option Demand) (e : Expr) :
    r.editsOf (Visit.at? sc d e) = r.editsAt sc.bounds d e := by
  cases d with
  | none => rfl
  | some d => exact List.append_nil _

end Rules

variable (r : Rules)

/-- An expression that is left as it was had no edit. -/
theorem Expr.editsAt_of_reconcile_eq_self {sc : Scope} {d : Option Demand} {e : Expr} (h : e.reconcile r sc d = e) :
    r.editsAt sc.bounds d e = [] := by
  refine Classical.byContradiction fun hne => ?_
  have hplan := r.planned_editsAt sc.bounds e d
  rw [reconcile_eq_applyAll, hplan.applyAll_walk] at h
  rcases hplan.changes hne with hdepth | hty
  · refine hdepth ?_
    rw [← castDepth_walk r sc (Edit.applyAll _ e), h]
  · refine hty ?_
    rw [← (walk_alike r sc (Edit.applyAll _ e)).ty, h]

mutual

theorem Expr.reconcile_eq_self_iff (sc : Scope) : ∀ (d : Option Demand) (e : Expr),
    e.reconcile r sc d = e ↔ r.editsOf (e.visits r.anonymous sc d) = []
  | d, ⟨l, t, k⟩ => by
    have hkind := k.reconcile_eq_self_iff sc t
    rw [Expr.visits_eq, r.editsOf_append_eq_nil_iff, r.editsOf_at?]
    constructor
    · intro h
      have hedits := Expr.editsAt_of_reconcile_eq_self r h
      unfold Expr.reconcile at h
      rw [hedits] at h
      exact ⟨hedits, hkind.1 (congrArg Expr.kind h)⟩
    · rintro ⟨hedits, hparts⟩
      unfold Expr.reconcile
      rw [hedits, hkind.2 hparts]
      rfl

theorem ExprKind.reconcile_eq_self_iff (sc : Scope) (t : Ty) : ∀ k : ExprKind,
    k.reconcile r sc t = k ↔ r.editsOf (k.visits r.anonymous sc t) = []
  | .leaf _ | .field none _ | .lambda _ none | .methodRef _ _ => iff_of_true rfl rfl
  | .field (some q) m => by
    simp only [ExprKind.reconcile, ExprKind.visits, ExprKind.field.injEq, Option.some.injEq, and_true,
      q.reconcile_eq_self_iff sc]
  | .call q m ts as ps => by
    simp only [ExprKind.reconcile, ExprKind.visits, ExprKind.call.injEq, true_and, and_true, r.editsOf_call,
      r.editsOf_append_eq_nil_iff, q.reconcile_eq_self_iff sc, reconcileArguments_eq_self_iff sc _ ps as]
    exact and_comm
  | .delegate s o desc as ps => by
    simp only [ExprKind.reconcile, ExprKind.visits, ExprKind.delegate.injEq, true_and, and_true, r.editsOf_call,
      reconcileArguments_eq_self_iff sc _ ps as]
  | .new desc as ps none => by
    simp only [ExprKind.reconcile, ExprKind.visits, ExprKind.new.injEq, true_and, and_true, r.editsOf_call,
      reconcileArguments_eq_self_iff sc _ ps as]
  | .new desc as ps (some b) => by
    simp only [ExprKind.reconcile, ExprKind.visits, ExprKind.new.injEq, Option.some.injEq, true_and, r.editsOf_call,
      r.editsOf_append_eq_nil_iff, reconcileArguments_eq_self_iff sc _ ps as]
    split
    · rw [b.reconcile_eq_self_iff]
    · exact and_congr_right fun _ => iff_of_true rfl rfl
  | .newArray ds => by
    simp only [ExprKind.reconcile, ExprKind.visits, ExprKind.newArray.injEq, reconcileExprs_eq_self_iff sc ds]
  | .filledArray es => by
    simp only [ExprKind.reconcile, ExprKind.visits, ExprKind.filledArray.injEq, reconcileInits_eq_self_iff sc _ es]
  | .binary o x y => by
    simp only [ExprKind.reconcile, ExprKind.visits, ExprKind.binary.injEq, true_and, r.editsOf_append_eq_nil_iff,
      x.reconcile_eq_self_iff sc, y.reconcile_eq_self_iff sc]
  | .unary _ _ x => by
    simp only [ExprKind.reconcile, ExprKind.visits, ExprKind.unary.injEq, true_and, x.reconcile_eq_self_iff sc]
  | .instanceOf x _ => by
    simp only [ExprKind.reconcile, ExprKind.visits, ExprKind.instanceOf.injEq, and_true, x.reconcile_eq_self_iff sc]
  | .conditional c x y => by
    simp only [ExprKind.reconcile, ExprKind.visits, ExprKind.conditional.injEq, r.editsOf_append_eq_nil_iff, and_assoc,
      c.reconcile_eq_self_iff sc, x.reconcile_eq_self_iff sc, y.reconcile_eq_self_iff sc]
  | .index a i => by
    simp only [ExprKind.reconcile, ExprKind.visits, ExprKind.index.injEq, r.editsOf_append_eq_nil_iff,
      a.reconcile_eq_self_iff sc, i.reconcile_eq_self_iff sc]
  | .cast x => by
    simp only [ExprKind.reconcile, ExprKind.visits, ExprKind.cast.injEq, x.reconcile_eq_self_iff sc]
  | .lambda _ (some ss) => by
    simp only [ExprKind.reconcile, ExprKind.visits, ExprKind.lambda.injEq, Option.some.injEq, true_and,
      reconcileStmts_eq_self_iff _ ss]

theorem reconcileArguments_eq_self_iff (sc : Scope) (d : Ty → Demand) : ∀ (ps : List Ty) (as : List Expr),
    reconcileArguments r sc d ps as = as ↔ r.editsOf (visitArguments r.anonymous sc d ps as) = []
  | [], [] | _ :: _, [] | [], _ :: _ => iff_of_true rfl rfl
  | _ :: ps, a :: as => by
    simp only [reconcileArguments, visitArguments, List.cons.injEq, r.editsOf_append_eq_nil_iff,
      a.reconcile_eq_self_iff sc, reconcileArguments_eq_self_iff sc d ps as]
    exact and_comm

theorem reconcileExprs_eq_self_iff (sc : Scope) : ∀ es : List Expr,
    reconcileExprs r sc es = es ↔ r.editsOf (visitExprs r.anonymous sc es) = []
  | [] => iff_of_true rfl rfl
  | e :: es => by
    simp only [reconcileExprs, visitExprs, List.cons.injEq, r.editsOf_append_eq_nil_iff, e.reconcile_eq_self_iff sc,
      reconcileExprs_eq_self_iff sc es]

theorem Init.reconcile_eq_self_iff (sc : Scope) (t : Ty) : ∀ i : Init,
    i.reconcile r sc t = i ↔ r.editsOf (i.visits r.anonymous sc t) = []
  | .expr e => by simp only [Init.reconcile, Init.visits, Init.expr.injEq, e.reconcile_eq_self_iff sc]
  | .array es => by simp only [Init.reconcile, Init.visits, Init.array.injEq, reconcileInits_eq_self_iff sc _ es]

theorem reconcileInits_eq_self_iff (sc : Scope) (t : Ty) : ∀ is : List Init,
    reconcileInits r sc t is = is ↔ r.editsOf (visitInits r.anonymous sc t is) = []
  | [] => iff_of_true rfl rfl
  | i :: is => by
    simp only [reconcileInits, visitInits, List.cons.injEq, r.editsOf_append_eq_nil_iff, i.reconcile_eq_self_iff sc t,
      reconcileInits_eq_self_iff sc t is]

theorem Declarator.reconcile_eq_self_iff (sc : Scope) (t : Ty) : ∀ d : Declarator,
    d.reconcile r sc t = d ↔ r.editsOf (d.visits r.anonymous sc t) = []
  | ⟨_, _, none⟩ => iff_of_true rfl rfl
  | ⟨_, _, some i⟩ => by
    simp only [Declarator.reconcile, Declarator.visits, Declarator.mk.injEq, Option.some.injEq, true_and,
      i.reconcile_eq_self_iff sc]

theorem reconcileDeclarators_eq_self_iff (sc : Scope) (t : Ty) : ∀ ds : List Declarator,
    reconcileDeclarators r sc t ds = ds ↔ r.editsOf (visitDeclarators r.anonymous sc t ds) = []
  | [] => iff_of_true rfl rfl
  | d :: ds => by
    simp only [reconcileDeclarators, visitDeclarators, List.cons.injEq, r.editsOf_append_eq_nil_iff,
      d.reconcile_eq_self_iff sc t, reconcileDeclarators_eq_self_iff sc t ds]

theorem LocalDecl.reconcile_eq_self_iff (sc : Scope) : ∀ l : LocalDecl,
    l.reconcile r sc = l ↔ r.editsOf (l.visits r.anonymous sc) = []
  | ⟨t, _, ds⟩ => by
    simp only [LocalDecl.reconcile, LocalDecl.visits, LocalDecl.mk.injEq, true_and,
      reconcileDeclarators_eq_self_iff sc t ds]

theorem reconcileLocals_eq_self_iff (sc : Scope) : ∀ ls : List LocalDecl,
    reconcileLocals r sc ls = ls ↔ r.editsOf (visitLocals r.anonymous sc ls) = []
  | [] => iff_of_true rfl rfl
  | l :: ls => by
    simp only [reconcileLocals, visitLocals, List.cons.injEq, r.editsOf_append_eq_nil_iff, l.reconcile_eq_self_iff sc,
      reconcileLocals_eq_self_iff sc ls]

theorem Stmt.reconcile_eq_self_iff (sc : Scope) : ∀ s : Stmt,
    s.reconcile r sc = s ↔ r.editsOf (s.visits r.anonymous sc) = []
  | .expr e => by simp only [Stmt.reconcile, Stmt.visits, Stmt.expr.injEq, e.reconcile_eq_self_iff sc]
  | .decl l => by simp only [Stmt.reconcile, Stmt.visits, Stmt.decl.injEq, l.reconcile_eq_self_iff sc]
  | .ret none | .jump _ _ | .bytecode _ => iff_of_true rfl rfl
  | .ret (some e) => by
    simp only [Stmt.reconcile, Stmt.visits, Stmt.ret.injEq, Option.some.injEq, e.reconcile_eq_self_iff sc]
  | .throw e => by simp only [Stmt.reconcile, Stmt.visits, Stmt.throw.injEq, e.reconcile_eq_self_iff sc]
  | .ifThen c ss none => by
    simp only [Stmt.reconcile, Stmt.visits, Stmt.ifThen.injEq, and_true, r.editsOf_append_eq_nil_iff,
      c.reconcile_eq_self_iff sc, reconcileStmts_eq_self_iff sc ss]
  | .ifThen c ss (some ts) => by
    simp only [Stmt.reconcile, Stmt.visits, Stmt.ifThen.injEq, Option.some.injEq, r.editsOf_append_eq_nil_iff,
      and_assoc, c.reconcile_eq_self_iff sc, reconcileStmts_eq_self_iff sc ss, reconcileStmts_eq_self_iff sc ts]
  | .whileLoop _ c ss => by
    simp only [Stmt.reconcile, Stmt.visits, Stmt.whileLoop.injEq, true_and, r.editsOf_append_eq_nil_iff,
      c.reconcile_eq_self_iff sc, reconcileStmts_eq_self_iff sc ss]
  | .forLoop is none us ss => by
    simp only [Stmt.reconcile, Stmt.visits, Stmt.forLoop.injEq, true_and, r.editsOf_append_eq_nil_iff, and_assoc,
      reconcileStmts_eq_self_iff sc is, reconcileExprs_eq_self_iff sc us, reconcileStmts_eq_self_iff sc ss]
  | .forLoop is (some c) us ss => by
    simp only [Stmt.reconcile, Stmt.visits, Stmt.forLoop.injEq, Option.some.injEq, r.editsOf_append_eq_nil_iff,
      and_assoc, reconcileStmts_eq_self_iff sc is, c.reconcile_eq_self_iff sc, reconcileExprs_eq_self_iff sc us,
      reconcileStmts_eq_self_iff sc ss]
  | .forEach _ _ e ss => by
    simp only [Stmt.reconcile, Stmt.visits, Stmt.forEach.injEq, true_and, r.editsOf_append_eq_nil_iff,
      e.reconcile_eq_self_iff sc, reconcileStmts_eq_self_iff sc ss]
  | .switch e bs => by
    simp only [Stmt.reconcile, Stmt.visits, Stmt.switch.injEq, r.editsOf_append_eq_nil_iff,
      e.reconcile_eq_self_iff sc, reconcileBlocks_eq_self_iff sc bs]
  | .synchronized e ss => by
    simp only [Stmt.reconcile, Stmt.visits, Stmt.synchronized.injEq, r.editsOf_append_eq_nil_iff,
      e.reconcile_eq_self_iff sc, reconcileStmts_eq_self_iff sc ss]
  | .tryBlock ls ss cs none => by
    simp only [Stmt.reconcile, Stmt.visits, Stmt.tryBlock.injEq, and_true, r.editsOf_append_eq_nil_iff, and_assoc,
      reconcileLocals_eq_self_iff sc ls, reconcileStmts_eq_self_iff sc ss, reconcileCatches_eq_self_iff sc cs]
  | .tryBlock ls ss cs (some fs) => by
    simp only [Stmt.reconcile, Stmt.visits, Stmt.tryBlock.injEq, Option.some.injEq, r.editsOf_append_eq_nil_iff,
      and_assoc, reconcileLocals_eq_self_iff sc ls, reconcileStmts_eq_self_iff sc ss,
      reconcileCatches_eq_self_iff sc cs, reconcileStmts_eq_self_iff sc fs]
  | .block _ ss => by
    simp only [Stmt.reconcile, Stmt.visits, Stmt.block.injEq, true_and, reconcileStmts_eq_self_iff sc ss]
  | .type t => by simp only [Stmt.reconcile, Stmt.visits, Stmt.type.injEq, t.reconcile_eq_self_iff]
  | .assert c none => by
    simp only [Stmt.reconcile, Stmt.visits, Stmt.assert.injEq, and_true, c.reconcile_eq_self_iff sc]
  | .assert c (some m) => by
    simp only [Stmt.reconcile, Stmt.visits, Stmt.assert.injEq, Option.some.injEq, r.editsOf_append_eq_nil_iff,
      c.reconcile_eq_self_iff sc, m.reconcile_eq_self_iff sc]

theorem reconcileStmts_eq_self_iff (sc : Scope) : ∀ ss : List Stmt,
    reconcileStmts r sc ss = ss ↔ r.editsOf (visitStmts r.anonymous sc ss) = []
  | [] => iff_of_true rfl rfl
  | s :: ss => by
    simp only [reconcileStmts, visitStmts, List.cons.injEq, r.editsOf_append_eq_nil_iff, s.reconcile_eq_self_iff sc,
      reconcileStmts_eq_self_iff sc ss]

theorem reconcileLabels_eq_self_iff (sc : Scope) : ∀ ls : List (Option Expr),
    reconcileLabels r sc ls = ls ↔ r.editsOf (visitLabels r.anonymous sc ls) = []
  | [] => iff_of_true rfl rfl
  | none :: ls => by
    simp only [reconcileLabels, visitLabels, List.cons.injEq, true_and, reconcileLabels_eq_self_iff sc ls]
  | some e :: ls => by
    simp only [reconcileLabels, visitLabels, List.cons.injEq, Option.some.injEq, r.editsOf_append_eq_nil_iff,
      e.reconcile_eq_self_iff sc, reconcileLabels_eq_self_iff sc ls]

theorem SwitchBlock.reconcile_eq_self_iff (sc : Scope) : ∀ b : SwitchBlock,
    b.reconcile r sc = b ↔ r.editsOf (b.visits r.anonymous sc) = []
  | ⟨ls, ss⟩ => by
    simp only [SwitchBlock.reconcile, SwitchBlock.visits, SwitchBlock.mk.injEq, r.editsOf_append_eq_nil_iff,
      reconcileLabels_eq_self_iff sc ls, reconcileStmts_eq_self_iff sc ss]

theorem reconcileBlocks_eq_self_iff (sc : Scope) : ∀ bs : List SwitchBlock,
    reconcileBlocks r sc bs = bs ↔ r.editsOf (visitBlocks r.anonymous sc bs) = []
  | [] => iff_of_true rfl rfl
  | b :: bs => by
    simp only [reconcileBlocks, visitBlocks, List.cons.injEq, r.editsOf_append_eq_nil_iff, b.reconcile_eq_self_iff sc,
      reconcileBlocks_eq_self_iff sc bs]

theorem CatchClause.reconcile_eq_self_iff (sc : Scope) : ∀ c : CatchClause,
    c.reconcile r sc = c ↔ r.editsOf (c.visits r.anonymous sc) = []
  | ⟨_, _, ss⟩ => by
    simp only [CatchClause.reconcile, CatchClause.visits, CatchClause.mk.injEq, true_and,
      reconcileStmts_eq_self_iff sc ss]

theorem reconcileCatches_eq_self_iff (sc : Scope) : ∀ cs : List CatchClause,
    reconcileCatches r sc cs = cs ↔ r.editsOf (visitCatches r.anonymous sc cs) = []
  | [] => iff_of_true rfl rfl
  | c :: cs => by
    simp only [reconcileCatches, visitCatches, List.cons.injEq, r.editsOf_append_eq_nil_iff,
      c.reconcile_eq_self_iff sc, reconcileCatches_eq_self_iff sc cs]

theorem TypeDecl.reconcile_eq_self_iff : ∀ t : TypeDecl, t.reconcile r = t ↔ r.editsOf (t.visits r.anonymous) = []
  | ⟨_, _, _, none⟩ => iff_of_true rfl rfl
  | ⟨_, _, _, some b⟩ => by
    simp only [TypeDecl.reconcile, TypeDecl.visits, TypeDecl.mk.injEq, Option.some.injEq, true_and,
      b.reconcile_eq_self_iff]

/-- **A body comes out as it went in** exactly when none of its slots has an edit. -/
theorem Body.reconcile_eq_self_iff : ∀ b : Body, b.reconcile r = b ↔ r.editsOf (b.visits r.anonymous) = []
  | ⟨_, b, ms⟩ => by
    simp only [Body.reconcile, Body.visits, Body.mk.injEq, true_and, reconcileMembers_eq_self_iff b ms]

theorem Member.reconcile_eq_self_iff (b : TypeBounds) : ∀ m : Member,
    m.reconcile r b = m ↔ r.editsOf (m.visits r.anonymous b) = []
  | .field f t ds => by
    simp only [Member.reconcile, Member.visits, Member.field.injEq, true_and]
    split
    · exact iff_of_true rfl rfl
    · exact reconcileDeclarators_eq_self_iff _ t ds
  | .staticInit _ none => iff_of_true rfl rfl
  | .staticInit _ (some ss) => by
    simp only [Member.reconcile, Member.visits, Member.staticInit.injEq, Option.some.injEq, true_and,
      reconcileStmts_eq_self_iff _ ss]
  | .constructor h none => by
    refine iff_of_true rfl ?_
    simp only [Member.visits]
    split <;> rfl
  | .constructor h (some ss) => by
    simp only [Member.reconcile, Member.visits, Member.constructor.injEq, Option.some.injEq, true_and]
    split
    · exact iff_of_true rfl rfl
    · exact reconcileStmts_eq_self_iff _ ss
  | .method h none => by
    refine iff_of_true rfl ?_
    simp only [Member.visits]
    split <;> rfl
  | .method h (some ss) => by
    simp only [Member.reconcile, Member.visits, Member.method.injEq, Option.some.injEq, true_and]
    split
    · exact iff_of_true rfl rfl
    · exact reconcileStmts_eq_self_iff _ ss
  | .type t => by simp only [Member.reconcile, Member.visits, Member.type.injEq, t.reconcile_eq_self_iff]

theorem reconcileMembers_eq_self_iff (b : TypeBounds) : ∀ ms : List Member,
    reconcileMembers r b ms = ms ↔ r.editsOf (visitMembers r.anonymous b ms) = []
  | [] => iff_of_true rfl rfl
  | m :: ms => by
    simp only [reconcileMembers, visitMembers, List.cons.injEq, r.editsOf_append_eq_nil_iff,
      m.reconcile_eq_self_iff b, reconcileMembers_eq_self_iff b ms]

end

/-- **A unit comes out as it went in** exactly when none of its slots has an edit. -/
theorem CompilationUnit.reconcile_eq_self_iff (u : CompilationUnit) :
    u.reconcile r = u ↔ r.editsOf (u.visits r.anonymous) = [] := by
  obtain ⟨ts⟩ := u
  simp only [CompilationUnit.reconcile, CompilationUnit.visits, CompilationUnit.mk.injEq]
  induction ts with
  | nil => exact iff_of_true rfl rfl
  | cons t ts ih =>
    rw [List.map_cons, List.flatMap_cons, List.cons.injEq, r.editsOf_append_eq_nil_iff, t.reconcile_eq_self_iff, ih]

/-- A run that meets neither a fault nor a slot with edits hands over the unit it was given. -/
theorem CastPass.run_of_no_edits (p : CastPass) (u : CompilationUnit)
    (hfault : ∀ s, .call s ∈ u.visits p.rules.anonymous → s.fault? = none)
    (hedits : p.rules.editsOf (u.visits p.rules.anonymous) = []) : (p.run u).result = .ok (.empty, u) := by
  have hreport := beq_iff_eq.1 ((p.report_isEmpty_iff _).2 hedits)
  have hsame := (u.reconcile_eq_self_iff p.rules).2 hedits
  have hrun := p.whole_of_no_fault (u.reconcile p.rules) ((p.findSome?_fault?_stepsOf _).2 hfault)
  rw [hreport] at hrun
  refine hrun.trans ?_
  rw [hsame]

/-- **A report is empty when nothing has changed, and only then**, for the run over a unit and for the one over a class
body. -/
theorem CastPass.run_reports_change (p : CastPass) :
    (∀ (u u' : CompilationUnit) (report : CastReport), (p.run u).result = .ok (report, u') →
      (report.isEmpty = true ↔ u' = u)) ∧
    ∀ (b b' : Body) (report : CastReport), (p.runBody b).result = .ok (report, b') →
      (report.isEmpty = true ↔ b' = b) := by
  refine ⟨fun u u' report hrun => ?_, fun b b' report hrun => ?_⟩
  · obtain ⟨rfl, rfl⟩ := run_ok hrun
    rw [report_isEmpty_iff, u.reconcile_eq_self_iff]
  · obtain ⟨rfl, rfl⟩ := runBody_ok hrun
    rw [report_isEmpty_iff, b.reconcile_eq_self_iff]

theorem CastPass.run_reports_change_readBack :
    (CastReport.isEmpty { inserted := 1 } = true ↔
      CompilationUnit.readBack (.cast 3 (.ofVar "T") (.localVar 3 .root "value")) =
        .readBack (.localVar 3 .root "value")) ∧
    (CastReport.isEmpty { inserted := 1 } = true ↔
      Body.readBack (.cast 3 (.ofVar "T") (.localVar 3 .root "value")) = .readBack (.localVar 3 .root "value")) :=
  have h := run_reports_change (CastPass.ofFacts Hierarchy.empty.facts)
  ⟨h.1 _ _ _ run_readBack, h.2 _ _ _ runBody_readBack⟩

end Recast
