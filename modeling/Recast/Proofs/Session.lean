import Recast.Proofs.Bodies
/-!
# Sessions — calls on one pass, one after the other

A pass is called any number of times: for units, for bodies, for single expressions; and any call may meet a fault.
What a call answers depends on the rules of the pass and on nothing that was called before (`CastPass.answer_serve`).

The report is all that the calls leave behind.  A single call adds what it has changed, up to its fault if it meets one.
A run starts the report at zero.  If it succeeds it hands its changes over and leaves none; if it fails, what it had
changed before its fault stays in the report, though the tree it had changed is to be discarded, and single calls
afterwards add to it (`CastPass.session_keeps_report`).
-/
namespace Recast

namespace Outcome

variable {α β : Type}

/-- What a call returns, put another way. -/
def map (f : α → β) (o : Outcome α) : Outcome β := ⟨o.result.map f, o.pass, o.events⟩

theorem map_map {γ : Type} (f : α → β) (g : β → γ) (o : Outcome α) : (o.map f).map g = o.map (g ∘ f) := by
  unfold map
  cases o.result <;> rfl

/-- What the caller gets to see; of the pass there is only the report to see. -/
def answer (o : Outcome α) : Except CastError α × List LogEvent := (o.result, o.events)

end Outcome

namespace CastPass

/-- **A call on a pass**: a run over a unit or a body, or a single call for an expression. -/
inductive Request
  | run (u : CompilationUnit)
  | runBody (b : Body)
  | reconcile (bounds : TypeBounds) (required : Ty) (e : Expr) (forced : Bool)
  | addCast (target : Ty) (e : Expr)

/-- What a call returns where it succeeds. -/
inductive Reply
  | unit (report : CastReport) (u : CompilationUnit)
  | body (report : CastReport) (b : Body)
  | expr (e : Expr)

def Request.isRun : Request → Bool
  | .run _ => true
  | .runBody _ => true
  | .reconcile .. => false
  | .addCast .. => false

def serve (p : CastPass) : Request → Outcome Reply
  | .run u => (p.run u).map fun out => Reply.unit out.1 out.2
  | .runBody b => (p.runBody b).map fun out => Reply.body out.1 out.2
  | .reconcile bounds required e forced => (p.reconcile bounds required e forced).map .expr
  | .addCast target e => (p.addCast target e).map .expr

/-- The pass after a session. -/
def after (p : CastPass) (qs : List Request) : CastPass := qs.foldl (fun p q => (p.serve q).pass) p

/-- The answers of a session, each call on the pass that the calls before have left. -/
def answers (p : CastPass) : List Request → List (Except CastError Reply × List LogEvent)
  | [] => []
  | q :: qs => (p.serve q).answer :: (p.serve q).pass.answers qs

/-- A pass with the same rules that has not been called. -/
def fresh (p : CastPass) : CastPass := { p with report := {} }

/-- The steps of a call, its fault and what would follow it included. -/
def stepsIn (p : CastPass) : Request → List Step
  | .run u => p.stepsOf (u.visits p.rules.anonymous)
  | .runBody b => p.stepsOf (b.visits p.rules.anonymous)
  | .reconcile bounds required e forced =>
    p.stepsOf (e.visits p.rules.anonymous (.ofBounds bounds) (some (.fit required forced)))
  | .addCast target e => [.edit (.castTo target e)]

/-- **What a call changes**: the edits it makes, up to its fault if it meets one. -/
def changes (p : CastPass) (q : Request) : CastReport := .ofSteps (Step.taken (p.stepsIn q))

/-- **What a run leaves in the report**: nothing if it succeeds, and what it has changed if it fails. -/
def leaves (p : CastPass) (q : Request) : CastReport :=
  if (p.serve q).result.isOk then .empty else p.changes q

variable {p p' : CastPass} {q : Request}

/-! ## One call -/

theorem answer_whole {α : Type} (p p' : CastPass) (steps : List Step) (value : α) :
    (p.whole steps value).answer = (p'.whole steps value).answer := by
  unfold whole
  cases steps.findSome? (·.fault?) <;> rfl

theorem rules_whole {α : Type} (p : CastPass) (steps : List Step) (value : α) :
    (p.whole steps value).pass.rules = p.rules := by
  unfold whole
  cases steps.findSome? (·.fault?) <;> rfl

theorem report_whole {α : Type} (p : CastPass) (steps : List Step) (value : α) :
    (p.whole steps value).pass.report =
      if (p.whole steps value).result.isOk then .empty else .ofSteps (Step.taken steps) := by
  unfold whole
  cases steps.findSome? (·.fault?) <;> rfl

theorem map_single {α β : Type} (p : CastPass) (steps : List Step) (value : α) (f : α → β) :
    (p.single steps value).map f = p.single steps (f value) := by
  unfold single Outcome.map
  cases steps.findSome? (·.fault?) <;> rfl

theorem isOk_map {α β : Type} (f : α → β) (o : Outcome α) : (o.map f).result.isOk = o.result.isOk := by
  unfold Outcome.map
  cases o.result <;> rfl

theorem answer_map {α β : Type} {o o' : Outcome α} (f : α → β) (h : o.answer = o'.answer) :
    (o.map f).answer = (o'.map f).answer := by
  obtain ⟨hresult, hevents⟩ := Prod.mk.inj h
  exact Prod.ext (congrArg (Except.map f) hresult) hevents

/-- **What a call answers depends on the rules alone.** -/
theorem answer_serve (h : p.rules = p'.rules) (q : Request) : (p.serve q).answer = (p'.serve q).answer := by
  obtain ⟨r, report⟩ := p
  obtain ⟨r', report'⟩ := p'
  obtain rfl : r = r' := h
  cases q with
  | run u => exact answer_map _ (answer_whole ⟨r, report⟩ ⟨r, report'⟩ _ _)
  | runBody b => exact answer_map _ (answer_whole ⟨r, report⟩ ⟨r, report'⟩ _ _)
  | reconcile bounds required e forced => rfl
  | addCast target e => rfl

theorem rules_serve (p : CastPass) (q : Request) : (p.serve q).pass.rules = p.rules := by
  cases q with
  | run u => exact rules_whole p _ _
  | runBody b => exact rules_whole p _ _
  | reconcile bounds required e forced => rfl
  | addCast target e => rfl

theorem changes_congr (h : p.rules = p'.rules) (q : Request) : p.changes q = p'.changes q := by
  obtain ⟨r, report⟩ := p
  obtain ⟨r', report'⟩ := p'
  obtain rfl : r = r' := h
  cases q <;> rfl

theorem leaves_congr (h : p.rules = p'.rules) (q : Request) : p.leaves q = p'.leaves q := by
  unfold leaves
  rw [(Prod.mk.inj (answer_serve h q)).1, changes_congr h]

/-- A single call adds what it changes, whether it succeeds or not. -/
theorem report_serve_single (hq : q.isRun = false) : (p.serve q).pass.report = p.report + p.changes q := by
  cases q with
  | run u => cases hq
  | runBody b => cases hq
  | reconcile bounds required e forced => rfl
  | addCast target e => rfl

/-- A run forgets what was in the report before. -/
theorem report_serve_run (hq : q.isRun = true) : (p.serve q).pass.report = p.leaves q := by
  cases q with
  | run u =>
    unfold leaves
    rw [serve, isOk_map]
    exact report_whole p _ _
  | runBody b =>
    unfold leaves
    rw [serve, isOk_map]
    exact report_whole p _ _
  | reconcile bounds required e forced => cases hq
  | addCast target e => cases hq

/-! ## A session -/

theorem rules_after (p : CastPass) : ∀ qs : List Request, (p.after qs).rules = p.rules
  | [] => rfl
  | q :: qs => ((p.serve q).pass.rules_after qs).trans (p.rules_serve q)

theorem after_append (p : CastPass) (qs rs : List Request) : p.after (qs ++ rs) = (p.after qs).after rs :=
  List.foldl_append

theorem answers_eq_map (p : CastPass) : ∀ qs : List Request,
    p.answers qs = qs.map fun q => (p.fresh.serve q).answer
  | [] => rfl
  | q :: qs => by
    have hrules : p.fresh.rules = p.rules := rfl
    have hfresh : (p.serve q).pass.fresh = p.fresh := congrArg (CastPass.mk · {}) (p.rules_serve q)
    rw [answers, answers_eq_map, hfresh, List.map_cons, answer_serve hrules q]

/-- Single calls add up. -/
theorem report_after_singles (p : CastPass) : ∀ qs : List Request, (∀ q ∈ qs, q.isRun = false) →
    (p.after qs).report = p.report + .sum (qs.map p.changes)
  | [], _ => by
    rw [CastReport.add_comm]
    exact (CastReport.empty_add p.report).symm
  | q :: qs, h => by
    have hrest := (p.serve q).pass.report_after_singles qs fun s hs => h s (List.mem_cons_of_mem q hs)
    have hsame : (p.serve q).pass.changes = p.changes := funext (changes_congr (p.rules_serve q))
    rw [report_serve_single (h q List.mem_cons_self), hsame, CastReport.add_assoc] at hrest
    exact hrest

/-- **A pass keeps nothing but its report.**  Its rules stay; every call of a session answers as on a pass that has not
been called.  The report afterwards is the sum of what the single calls have changed since the last run, and of what
this run has left: nothing where it succeeded, and the changes before its fault where it failed. -/
theorem session_keeps_report (p : CastPass) (qs : List Request) :
    (p.after qs).rules = p.rules ∧ p.answers qs = qs.map (fun q => (p.fresh.serve q).answer) ∧
    ((∀ q ∈ qs, q.isRun = false) → (p.after qs).report = p.report + .sum (qs.map p.changes)) ∧
    ∀ before q after, qs = before ++ q :: after → q.isRun = true → (∀ s ∈ after, s.isRun = false) →
      (p.after qs).report = p.leaves q + .sum (after.map p.changes) := by
  refine ⟨p.rules_after qs, p.answers_eq_map qs, p.report_after_singles qs, ?_⟩
  rintro before q after rfl hq hafter
  have hrules : (p.after before).rules = p.rules := p.rules_after before
  have hserved : ((p.after before).serve q).pass.rules = p.rules := (rules_serve _ q).trans hrules
  have hsame : ((p.after before).serve q).pass.changes = p.changes := funext (changes_congr hserved)
  rw [after_append]
  change (((p.after before).serve q).pass.after after).report = _
  rw [report_after_singles _ after hafter, report_serve_run hq, leaves_congr hrules, hsame]

end CastPass

/-- `T kept = value; put(kept);` in a method, where the parameter type of `put` has not been resolved. -/
def CompilationUnit.putUnresolved (value : Expr) : CompilationUnit :=
  ⟨[⟨.ordinary, AccessFlag.isPublic, "Box", some ⟨"Box", .empty,
    [.method (.named "fill" "()V" (.ofPrimitive .void))
      (some [.declare (.ofVar "T") ((Declarator.named "kept").withExpr value),
        .expr ⟨3, .ofPrimitive .void, .call (.this 3 (.ofClass "Box")) ⟨"Box", "put", "(Ljava/lang/Object;)V"⟩ none
          [.localVar 3 (.ofVar "T") "kept"] []⟩])]⟩⟩]⟩

namespace CastPass

/-- A run that fails at its second statement has given the first a cast. -/
theorem leaves_putUnresolved : (CastPass.ofFacts Hierarchy.empty.facts).leaves
    (.run (.putUnresolved (.localVar 2 .root "value"))) = { inserted := 1 } := by
  with_unfolding_all rfl

/-- One cast before the fault of the run, and one by the call that follows. -/
theorem session_keeps_report_putUnresolved :
    ((CastPass.ofFacts Hierarchy.empty.facts).after [.addCast (.ofVar "T") (.localVar 1 .root "value")]).report =
      { inserted := 1 } ∧
    ((CastPass.ofFacts Hierarchy.empty.facts).after [.run (.putUnresolved (.localVar 2 .root "value")),
      .addCast (.ofVar "T") (.localVar 4 .root "value")]).report = { inserted := 2 } := by
  obtain ⟨-, -, hsingles, -⟩ := session_keeps_report (CastPass.ofFacts Hierarchy.empty.facts)
    [.addCast (.ofVar "T") (.localVar 1 .root "value")]
  obtain ⟨-, -, -, hrun⟩ := session_keeps_report (CastPass.ofFacts Hierarchy.empty.facts)
    [.run (.putUnresolved (.localVar 2 .root "value")), .addCast (.ofVar "T") (.localVar 4 .root "value")]
  refine ⟨hsingles fun q hq => ?_, (hrun [] _ _ rfl rfl fun q hq => ?_).trans ?_⟩
  · cases List.mem_singleton.1 hq
    rfl
  · cases List.mem_singleton.1 hq
    rfl
  · rw [leaves_putUnresolved]
    rfl

/-- **What a failed run has changed is taken for changes of single calls**: after it the report is not empty, though
there has been no such call since. -/
theorem exists_failed_run_leaves_changes :
    ¬ ∀ (p : CastPass) (before : List Request) (q : Request) (after : List Request), q.isRun = true →
      (∀ s ∈ after, s.isRun = false) → (p.after (before ++ q :: after)).report = .sum (after.map p.changes) := by
  intro hall
  have hempty := hall (CastPass.ofFacts Hierarchy.empty.facts) []
    (.run (.putUnresolved (.localVar 2 .root "value"))) [] rfl nofun
  have hleft : ((CastPass.ofFacts Hierarchy.empty.facts).after
      [.run (.putUnresolved (.localVar 2 .root "value"))]).report = { inserted := 1 } := by
    with_unfolding_all rfl
  rw [List.nil_append, hleft] at hempty
  exact absurd hempty (by decide)

end CastPass

end Recast
