import Recast.Cast.Pass
/-!
# Runs — what a run that succeeds hands over

A run that succeeds has met no fault; its report counts the edits of the slots it came by, and its value is the
reconciled tree (`CastPass.whole_ok`).  The report is empty exactly when no slot had an edit
(`CastPass.report_isEmpty_iff`).
-/
namespace Recast

/-- The edits of the slot, if the visit is one. -/
def Visit.edits (r : Rules) : Visit → List Edit
  | .slot sc d e => r.edits sc.bounds d e
  | .call _ => []
  | .skip _ => []

/-- The fault of the call site, if the visit is one that has a fault. -/
def Visit.fault? : Visit → Option CastError
  | .slot .. => none
  | .call s => s.fault?
  | .skip _ => none

/-- The edits of all the slots among the visits. -/
def Rules.editsOf (r : Rules) (vs : List Visit) : List Edit := vs.flatMap (Visit.edits r)

theorem Rules.editsOf_append (r : Rules) (vs ws : List Visit) : r.editsOf (vs ++ ws) = r.editsOf vs ++ r.editsOf ws :=
  List.flatMap_append

theorem Rules.editsOf_eq_nil_iff (r : Rules) (vs : List Visit) :
    r.editsOf vs = [] ↔ ∀ sc d e, .slot sc d e ∈ vs → r.edits sc.bounds d e = [] := by
  unfold editsOf
  rw [List.flatMap_eq_nil_iff]
  constructor
  · intro h sc d e hv
    exact h _ hv
  · intro h v hv
    cases v with
    | slot sc d e => exact h sc d e hv
    | call s => rfl
    | skip w => rfl

theorem Visit.filterMap_edit?_steps (r : Rules) (v : Visit) : (v.steps r).filterMap (·.edit?) = v.edits r := by
  cases v with
  | slot sc d e =>
    simp only [Visit.steps, Visit.edits, List.filterMap_map]
    exact List.filterMap_some
  | call s => cases hf : s.fault? <;> simp [Visit.steps, Visit.edits, hf, Step.edit?]
  | skip w => rfl

theorem Visit.findSome?_fault?_steps (r : Rules) (v : Visit) : (v.steps r).findSome? (·.fault?) = v.fault? := by
  cases v with
  | slot sc d e =>
    simp only [Visit.steps, Visit.fault?, List.findSome?_map]
    exact List.findSome?_eq_none_iff.2 fun _ _ => rfl
  | call s => cases hf : s.fault? <;> simp [Visit.steps, Visit.fault?, hf, Step.fault?]
  | skip w => rfl

namespace CastReport

theorem add_eq (a b : CastReport) : a + b =
    ⟨a.inserted + b.inserted, a.retargeted + b.retargeted, a.collapsed + b.collapsed, a.removed + b.removed,
      a.erased + b.erased⟩ := rfl

theorem add_comm (a b : CastReport) : a + b = b + a := by
  simp only [add_eq, Nat.add_comm]

/-- Every edit counts for something, and counts are never taken back. -/
theorem ofEdits_eq_empty_iff : ∀ es : List Edit, ofEdits es = empty ↔ es = []
  | [] => by simp [ofEdits]
  | e :: es => by
    rw [ofEdits, add_eq]
    cases e <;> simp [ofEdit, empty]

end CastReport

namespace CastPass

variable {α : Type} {p : CastPass} {steps : List Step} {value value' : α} {report : CastReport}

theorem filterMap_edit?_stepsOf (p : CastPass) (vs : List Visit) :
    (p.stepsOf vs).filterMap (·.edit?) = p.rules.editsOf vs := by
  unfold stepsOf Rules.editsOf
  rw [List.filterMap_flatMap]
  congr 1
  funext v
  exact v.filterMap_edit?_steps p.rules

theorem report_isEmpty_iff (p : CastPass) (vs : List Visit) :
    (CastReport.ofSteps (p.stepsOf vs)).isEmpty = true ↔ p.rules.editsOf vs = [] := by
  unfold CastReport.isEmpty CastReport.ofSteps
  rw [filterMap_edit?_stepsOf, beq_iff_eq, CastReport.ofEdits_eq_empty_iff]

/-- **What a run ends with**: its first fault, or the report of all its steps and the reconciled tree. -/
theorem result_whole (p : CastPass) (steps : List Step) (value : α) : (p.whole steps value).result =
    match steps.findSome? (·.fault?) with
    | some e => .error e
    | none => .ok (.ofSteps steps, value) := by
  unfold whole
  cases steps.findSome? (·.fault?) <;> rfl

theorem whole_error_iff {e : CastError} :
    (p.whole steps value).result = .error e ↔ steps.findSome? (·.fault?) = some e := by
  rw [result_whole]
  cases steps.findSome? (·.fault?) <;> simp

/-- **A run that succeeds**: no fault, the report of all its steps, the reconciled tree. -/
theorem whole_ok (h : (p.whole steps value).result = .ok (report, value')) :
    steps.findSome? (·.fault?) = none ∧ report = .ofSteps steps ∧ value' = value := by
  unfold whole at h
  cases hf : steps.findSome? (·.fault?) with
  | some e => simp [hf] at h
  | none =>
    simp only [hf, Except.ok.injEq, Prod.mk.injEq] at h
    exact ⟨rfl, h.1.symm, h.2.symm⟩

theorem whole_of_no_fault (p : CastPass) (value : α) (hf : steps.findSome? (·.fault?) = none) :
    (p.whole steps value).result = .ok (.ofSteps steps, value) := by
  unfold whole
  rw [hf]

theorem run_ok {u u' : CompilationUnit} (h : (p.run u).result = .ok (report, u')) :
    report = .ofSteps (p.stepsOf (u.visits p.rules.settings.anonymousClassBodies)) ∧ u' = u.reconcile p.rules :=
  (whole_ok h).2

theorem runBody_ok {b b' : Body} (h : (p.runBody b).result = .ok (report, b')) :
    report = .ofSteps (p.stepsOf (b.visits p.rules.settings.anonymousClassBodies)) ∧ b' = b.reconcile p.rules :=
  (whole_ok h).2

/-- **The first fault of a run is that of the first faulty call site** it comes by, whatever the rules. -/
theorem fault?_stepsOf (p : CastPass) : ∀ vs : List Visit,
    (p.stepsOf vs).findSome? (·.fault?) = vs.findSome? (·.fault?)
  | [] => rfl
  | v :: vs => by
    have hsteps : p.stepsOf (v :: vs) = v.steps p.rules ++ p.stepsOf vs := List.flatMap_cons
    rw [hsteps, List.findSome?_append, v.findSome?_fault?_steps, p.fault?_stepsOf vs, List.findSome?_cons]
    cases v.fault? <;> rfl

/-- **A single call that succeeds** has met no fault, and hands over the reconciled expression. -/
theorem single_ok_iff {vs : List Visit} :
    (p.single (p.stepsOf vs) value).result = .ok value' ↔ vs.findSome? (·.fault?) = none ∧ value' = value := by
  rw [← p.fault?_stepsOf]
  unfold single
  cases (p.stepsOf vs).findSome? (·.fault?) <;> simp [eq_comm]

/-- A run meets a fault where a call among the visits has one, and nowhere else. -/
theorem findSome?_fault?_stepsOf (p : CastPass) (vs : List Visit) :
    (p.stepsOf vs).findSome? (·.fault?) = none ↔ ∀ s, .call s ∈ vs → s.fault? = none := by
  rw [fault?_stepsOf, List.findSome?_eq_none_iff]
  constructor
  · intro h s hs
    exact h _ hs
  · intro h v hv
    cases v with
    | slot sc d e => rfl
    | call s => exact h s hv
    | skip w => rfl

end CastPass

/-- `T get() { return flag ? value : null; }` in the body of a class. -/
def Body.readBack (value : Expr) : Body :=
  ⟨"Box", .empty,
    [.method (.named "get" "()Ljava/lang/Object;" (.ofVar "T"))
      (some [.ret (some (.conditional 3 (.ofVar "T") (.localVar 3 (.ofPrimitive .boolean) "flag") value (.null 4)))])]⟩

/-- The same in a unit of its own. -/
def CompilationUnit.readBack (value : Expr) : CompilationUnit :=
  ⟨[⟨.ordinary, AccessFlag.isPublic, "Box", some (.readBack value)⟩]⟩

/-- A value read through the root gets the cast that erasure has lost; the `null` beside it needs none. -/
theorem CastPass.run_readBack : ((CastPass.ofFacts Hierarchy.empty.facts).run (.readBack (.localVar 3 .root "value"))).result =
    .ok ({ inserted := 1 }, .readBack (.cast 3 (.ofVar "T") (.localVar 3 .root "value"))) := by
  with_unfolding_all rfl

theorem CastPass.runBody_readBack :
    ((CastPass.ofFacts Hierarchy.empty.facts).runBody (.readBack (.localVar 3 .root "value"))).result =
      .ok ({ inserted := 1 }, .readBack (.cast 3 (.ofVar "T") (.localVar 3 .root "value"))) := by
  with_unfolding_all rfl

end Recast
