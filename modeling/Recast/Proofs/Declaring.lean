import Recast.Proofs.Literals
import Recast.Proofs.Trace
/-!
# Declaring — a value in a declaration and in an assignment

`T x = e;` and `x = e;` ask one thing of the value, to fit `T`.  So both walk it alike, with one exception: a call with
its type arguments written out has its type from them and not from erasure, and an assignment takes it as it is, while a
declaration puts it into a slot.  Where the type recorded for the call does not fit there, the declaration gives it a
cast (`CastPass.declaring_and_assigning`).
-/
namespace Recast

/-- `t x = e;`. -/
def Stmt.declares (t : Ty) (x : String) (e : Expr) : Stmt := .declare t ((Declarator.named x).withExpr e)

/-- `x = e;` for a local variable; the lines are those of the assignment and of the variable. -/
def Stmt.assigns (l m : UInt32) (t : Ty) (x : String) (e : Expr) : Stmt := .expr (.assign l (.localVar m t x) e)

/-- The outcome where a cast is put around the expression, before anything else is done. -/
def Outcome.underCast (line : UInt32) (target : Ty) (o : Outcome Expr) : Outcome Expr where
  result := o.result.map (.cast line target)
  pass := { o.pass with report := .ofEdit (.insert line target) + o.pass.report }
  events := (Edit.insert line target).event?.toList ++ o.events

namespace Expr

variable {e : Expr}

theorem isCast_of_isExplicitCall (h : e.isExplicitCall = true) : e.isCast = false := by
  obtain ⟨l, t, k⟩ := e
  cases k with
  | cast x => cases h
  | _ => rfl

theorem isNull_of_isExplicitCall (h : e.isExplicitCall = true) : e.isNull = false := by
  obtain ⟨l, t, k⟩ := e
  cases k with
  | leaf k => cases h
  | _ => rfl

end Expr

/-- The right side of an assignment is in a slot unless it is a call with its type arguments written out. -/
theorem Demand.ofOperand_assign (left right : Expr) :
    ofOperand .assign left right = if right.isExplicitCall = true then none else some (.fit left.ty false) := by
  unfold ofOperand
  cases right.isExplicitCall <;> rfl

/-- An expression under no cast whose type fits is left as it is. -/
theorem Rules.fitEdits_eq_nil (r : Rules) {b : TypeBounds} {required : Ty} {forced : Bool} {e : Expr}
    (hn : e.isNull = false) (hc : e.isCast = false) (hv : r.facts.verdict b forced required e = .keep) :
    r.fitEdits b required forced e = [] := by
  unfold fitEdits
  simp only [hn, Bool.false_eq_true, if_false, hv, Verdict.edits, Edit.applyAll, List.foldl_nil,
    removal_of_not_cast r b required forced hc]

namespace CastPass

variable (p : CastPass) (sc : Scope) (t : Ty) (x : String) (e : Expr)

/-! ## An expression in a slot -/

theorem stepsOf_visits (d : Option Demand) :
    p.stepsOf (e.visits p.rules.anonymous sc d) =
      (p.rules.editsAt sc.bounds d e).map .edit ++ p.stepsOf (e.visits p.rules.anonymous sc none) := by
  rw [Expr.visits_eq, Expr.visits_eq p.rules.anonymous sc none]
  cases d with
  | none => rfl
  | some d => exact List.flatMap_cons

/-- An expression with nothing to be edited is walked as one that is in no slot. -/
theorem walkExpr_of_no_edits {d : Option Demand} (h : p.rules.editsAt sc.bounds d e = []) :
    p.walkExpr sc d e = p.walkExpr sc none e := by
  unfold walkExpr
  rw [stepsOf_visits, Expr.reconcile_eq_applyAll, h]
  rfl

theorem single_insert (line : UInt32) (target : Ty) (steps : List Step) (e : Expr) :
    p.single (.edit (.insert line target) :: steps) (.cast line target e) =
      (p.single steps e).underCast line target := by
  have hreport : p.report + CastReport.ofSteps (.edit (.insert line target) :: Step.taken steps) =
      .ofEdit (.insert line target) + (p.report + .ofSteps (Step.taken steps)) := by
    rw [← CastReport.add_assoc, CastReport.add_comm (.ofEdit _) p.report, CastReport.add_assoc]
    rfl
  have htaken : Step.taken (.edit (.insert line target) :: steps) =
      .edit (.insert line target) :: Step.taken steps := rfl
  unfold single Outcome.underCast
  rw [htaken, hreport, List.findSome?_cons]
  cases steps.findSome? (·.fault?) <;> rfl

/-- An expression that is only to get a cast is walked as one that is in no slot, under the cast. -/
theorem walkExpr_of_insert {d : Option Demand} {line : UInt32} {target : Ty}
    (h : p.rules.editsAt sc.bounds d e = [.insert line target]) :
    p.walkExpr sc d e = (p.walkExpr sc none e).underCast line target := by
  unfold walkExpr
  rw [stepsOf_visits, Expr.reconcile_eq_applyAll, h, ← single_insert]
  rfl

/-! ## The two statements -/

theorem walkDeclarator_withExpr (hfill : e.isFilledArray = false) :
    p.walkDeclarator sc t ((Declarator.named x).withExpr e) =
      (p.walkExpr sc (some (.fit t false)) e).map (Declarator.named x).withExpr := by
  unfold walkDeclarator walkExpr
  rw [map_single]
  simp only [Declarator.named, Declarator.withExpr, Declarator.withInit, Declarator.visits, Declarator.reconcile,
    Init.visits, Init.reconcile, Ty.widen_zero, Demand.ofInit_of_not_filled t hfill]

theorem walkStmts_declares (hfill : e.isFilledArray = false) :
    p.walkStmts sc [.declares t x e] =
      (p.walkExpr sc (some (.fit t false)) e).map fun e' => [.declares t x e'] := by
  unfold Stmt.declares
  rw [walkStmts_declare, walkDeclarator_withExpr p sc t x e hfill, Outcome.map_map]
  rfl

theorem walkStmts_assigns (l m : UInt32) :
    p.walkStmts sc [.assigns l m t x e] =
      (p.walkExpr sc (Demand.ofOperand .assign (.localVar m t x) e) e).map fun e' => [.assigns l m t x e'] := by
  unfold walkExpr walkStmts
  rw [map_single]
  simp only [Stmt.assigns, Expr.assign, Expr.binary, Expr.localVar, visitStmts, reconcileStmts, Stmt.visits,
    Stmt.reconcile, Expr.visits_eq, ExprKind.visits, Visit.at?, List.nil_append, List.append_nil]
  rfl

/-- **A value is treated alike in a declaration and in an assignment**, unless it is a call with its type arguments
written out.  An assignment leaves such a call under no cast.  So does a declaration where the recorded type fits; where
it does not, the declaration puts a cast around what the assignment leaves, and reports one insertion more. -/
theorem declaring_and_assigning (l m : UInt32) (hfill : e.isFilledArray = false) :
    ∃ o : Outcome Expr, p.walkStmts sc [.assigns l m t x e] = o.map (fun e' => [.assigns l m t x e']) ∧
      (e.isExplicitCall = false ∨ p.rules.facts.verdict sc.bounds false t e = .keep →
        p.walkStmts sc [.declares t x e] = o.map fun e' => [.declares t x e']) ∧
      (e.isExplicitCall = true →
        (∀ e', o.result = .ok e' → e'.isExplicitCall = true) ∧
        (p.rules.facts.verdict sc.bounds false t e ≠ .keep →
          ∃ u, p.rules.facts.verdict sc.bounds false t e = .cast u ∧
            p.walkStmts sc [.declares t x e] = (o.underCast e.firstLine u).map fun e' => [.declares t x e'])) := by
  refine ⟨_, p.walkStmts_assigns sc t x e l m, ?_⟩
  rw [p.walkStmts_declares sc t x e hfill, Demand.ofOperand_assign]
  cases hcall : e.isExplicitCall with
  | false => exact ⟨fun _ => rfl, nofun⟩
  | true =>
    rw [if_pos rfl]
    have hnull := Expr.isNull_of_isExplicitCall hcall
    have hcast := Expr.isCast_of_isExplicitCall hcall
    refine ⟨fun hkeep => ?_, fun _ => ⟨fun e' he' => ?_, fun hne => ?_⟩⟩
    · have hedits : p.rules.editsAt sc.bounds (some (.fit t false)) e = [] :=
        p.rules.fitEdits_eq_nil hnull hcast (hkeep.resolve_left nofun)
      exact congrArg _ (p.walkExpr_of_no_edits sc e hedits)
    · obtain ⟨-, rfl⟩ := single_ok_iff.1 he'
      exact (e.walk_alike p.rules sc).isExplicitCall.trans hcall
    · cases hv : p.rules.facts.verdict sc.bounds false t e with
      | keep => exact absurd hv hne
      | eraseAndCast u => cases (TypeFacts.verdict_eraseAndCast hv).1
      | cast u =>
        have hedits : p.rules.editsAt sc.bounds (some (.fit t false)) e = [.insert e.firstLine u] :=
          p.rules.fitEdits_eq_insert sc.bounds t false hnull hcast hv
        exact ⟨u, rfl, congrArg _ (p.walkExpr_of_insert sc e hedits)⟩

end CastPass

/-- `this.<T>get()`, where erasure has left the type of the method's result. -/
def Expr.getExplicit : Expr :=
  ⟨2, .root, .call (.this 2 (.ofClass "Box")) ⟨"Box", "get", "()Ljava/lang/Object;"⟩ (some [.exact (.ofVar "T")]) [] []⟩

namespace CastPass

/-- `T x = this.<T>get();` gets a cast that `x = this.<T>get();` does not get. -/
theorem declaring_and_assigning_get :
    Expr.getExplicit.isFilledArray = false ∧
    ∃ o : Outcome Expr,
      (ofFacts Hierarchy.empty.facts).walkStmts (.ofBounds .empty) [.assigns 2 2 (.ofVar "T") "x" .getExplicit] =
        o.map (fun e' => [.assigns 2 2 (.ofVar "T") "x" e']) ∧
      (ofFacts Hierarchy.empty.facts).walkStmts (.ofBounds .empty) [.declares (.ofVar "T") "x" .getExplicit] =
        (o.underCast 2 (.ofVar "T")).map fun e' => [.declares (.ofVar "T") "x" e'] := by
  obtain ⟨o, hassign, -, hcall⟩ := declaring_and_assigning (ofFacts Hierarchy.empty.facts) (.ofBounds .empty)
    (.ofVar "T") "x" .getExplicit 2 2 rfl
  have hverdict : (ofFacts Hierarchy.empty.facts).rules.facts.verdict (Scope.ofBounds .empty).bounds false (.ofVar "T")
      .getExplicit = .cast (.ofVar "T") := by
    with_unfolding_all rfl
  obtain ⟨-, hcast⟩ := hcall rfl
  rw [hverdict] at hcast
  obtain ⟨u, hu, hdeclare⟩ := hcast nofun
  obtain rfl := Verdict.cast.inj hu
  exact ⟨rfl, o, hassign, hdeclare⟩

/-- **A declaration can add a cast where an assignment adds none.** -/
theorem exists_declaring_casts :
    ¬ ∀ (p : CastPass) (sc : Scope) (t : Ty) (x : String) (l m : UInt32) (e : Expr), e.isFilledArray = false →
      ∃ o : Outcome Expr, p.walkStmts sc [.declares t x e] = o.map (fun e' => [.declares t x e']) ∧
        p.walkStmts sc [.assigns l m t x e] = o.map fun e' => [.assigns l m t x e'] := by
  intro hall
  obtain ⟨o, hdeclare, hassign⟩ := hall (ofFacts Hierarchy.empty.facts) (.ofBounds .empty) (.ofVar "T") "x" 2 2
    .getExplicit rfl
  have hdeclared : ((ofFacts Hierarchy.empty.facts).walkStmts (.ofBounds .empty)
      [.declares (.ofVar "T") "x" .getExplicit]).pass.report = { inserted := 1 } := by
    with_unfolding_all rfl
  have hassigned : ((ofFacts Hierarchy.empty.facts).walkStmts (.ofBounds .empty)
      [.assigns 2 2 (.ofVar "T") "x" .getExplicit]).pass.report = {} := rfl
  rw [hdeclare] at hdeclared
  rw [hassign] at hassigned
  exact absurd (hdeclared.symm.trans hassigned) (by decide)

end CastPass

end Recast
