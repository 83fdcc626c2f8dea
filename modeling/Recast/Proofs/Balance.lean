import Recast.Proofs.Run
import Recast.Proofs.Trace
/-!
# Balance — every cast is accounted for

The cast nodes of a tree are those at the tops of its positions, since the operand of a cast stands in the position of
the cast.  An insertion puts one there, a collapse and a removal take one away, and a retargeting and an erasure leave
their number (`Edit.Planned.balances`).  A walk moves none.  Each slot settles one position, so what the report counts
is the difference over the whole tree, in members that are skipped and in bodies that are not entered none at all
(`CastPass.run_balances`).
-/
namespace Recast

/-- The casts at the top of an expression, the outermost first. -/
def Expr.topCasts : Expr → List Expr
  | ⟨l, t, .cast x⟩ => ⟨l, t, .cast x⟩ :: x.topCasts
  | _ => []

def Part.casts : Part → List Expr
  | position e => e.topCasts
  | declared _ => []

def castsOf (xs : List Part) : List Expr := xs.flatMap Part.casts

/-- **The cast nodes in an expression**, itself and everything below it. -/
def Expr.casts (e : Expr) : List Expr := castsOf e.parts

/-- **The cast nodes in a unit**, skipped members and bodies that are not entered included. -/
def CompilationUnit.casts (u : CompilationUnit) : List Expr := castsOf u.parts

namespace Expr

theorem length_topCasts : ∀ e : Expr, e.topCasts.length = e.castDepth
  | ⟨l, t, k⟩ => by
    cases k with
    | cast x => exact congrArg (· + 1) (length_topCasts x)
    | _ => rfl

theorem topCasts_eq_nil_iff {e : Expr} : e.topCasts = [] ↔ e.isCast = false := by
  obtain ⟨l, t, k⟩ := e
  cases k <;> simp [topCasts, isCast]

theorem topCasts_of_not_cast {e : Expr} (h : e.isCast = false) : e.topCasts = [] := topCasts_eq_nil_iff.2 h

/-- A cast is one more than there are in its operand. -/
theorem casts_cast (l : UInt32) (t : Ty) (x : Expr) :
    Expr.casts ⟨l, t, .cast x⟩ = ⟨l, t, .cast x⟩ :: x.casts := by
  unfold casts castsOf
  rw [parts_eq, parts_eq x, List.flatMap_cons, List.flatMap_cons, ExprKind.parts_cast]
  rfl

/-- Under any other node there are those of the positions below. -/
theorem casts_of_not_cast {e : Expr} (h : e.isCast = false) : e.casts = castsOf e.kind.parts := by
  unfold casts castsOf
  rw [parts_eq, List.flatMap_cons]
  simp only [Part.casts, topCasts_of_not_cast h, List.nil_append]

end Expr

namespace CastReport

theorem ofEdits_perm {ds es : List Edit} (h : ds.Perm es) : ofEdits ds = ofEdits es := by
  induction h with
  | nil => rfl
  | cons d _ ih => rw [ofEdits, ofEdits, ih]
  | swap d e ds => rw [ofEdits, ofEdits, ofEdits, ofEdits, ← add_assoc, ← add_assoc, add_comm (ofEdit d)]
  | trans _ _ ih ih' => rw [ih, ih']

/-- **A report that balances two numbers of casts**: before and after what it counts. -/
def Balances (r : CastReport) (before after : Nat) : Prop :=
  before + r.inserted = after + r.collapsed + r.removed

theorem Balances.add {a b : CastReport} {m n m' n' : Nat} (ha : a.Balances m m') (hb : b.Balances n n') :
    (a + b).Balances (m + n) (m' + n') := by
  unfold Balances at *
  rw [add_eq]
  dsimp only
  omega

theorem balances_empty (n : Nat) : Balances empty n n := rfl

end CastReport

theorem Rules.editsOf_perm (r : Rules) {vs ws : List Visit} (h : vs.Perm ws) : (r.editsOf vs).Perm (r.editsOf ws) :=
  h.flatMap_right (Visit.edits r)

/-- **The edits of a slot balance** the casts at the top of its expression. -/
theorem Edit.Planned.balances {e : Expr} {es : List Edit} (h : Planned e es) :
    (CastReport.ofEdits es).Balances e.castDepth (applyAll es e).castDepth := by
  cases h with
  | erase line t hw =>
    obtain ⟨l, s, k⟩ := e
    cases k with
    | new desc as ps b => rfl
    | _ => cases hw
  | _ => rfl

theorem Part.Becomes.balances {r : Rules} {vs : List Visit} {x y : Part} (h : Becomes r vs x y) :
    (CastReport.ofEdits (r.editsOf vs)).Balances x.casts.length y.casts.length := by
  cases h with
  | declared t => exact CastReport.balances_empty _
  | untouched e => exact CastReport.balances_empty _
  | walked sc e =>
    simp only [Part.casts, Expr.length_topCasts, Expr.castDepth_walk]
    exact CastReport.balances_empty _
  | settled sc d e =>
    have hedits : r.editsOf [.slot sc d e] = r.edits sc.bounds d e := List.append_nil _
    simp only [Part.casts, Expr.length_topCasts, Expr.reconcile_some, Expr.castDepth_walk, hedits]
    exact (r.planned sc.bounds d e).balances

/-- **The edits of the slots balance the casts of the parts.** -/
theorem Rules.Accounts.balances {r : Rules} {vs : List Visit} {xs ys : List Part} (h : r.Accounts vs xs ys) :
    (CastReport.ofEdits (r.editsOf vs)).Balances (castsOf xs).length (castsOf ys).length := by
  induction h with
  | nil => exact CastReport.balances_empty 0
  | part h _ ih =>
    unfold castsOf at *
    rw [editsOf_append, CastReport.ofEdits_append, List.flatMap_cons, List.flatMap_cons, List.length_append,
      List.length_append]
    exact h.balances.add ih
  | call s _ ih => exact ih
  | skip w _ ih => exact ih
  | reorder hp _ ih =>
    rw [← CastReport.ofEdits_perm (r.editsOf_perm hp)]
    exact ih

/-- **The books of a run balance.**  The casts of the tree and those inserted are the casts of the tree that comes out
and those collapsed or removed. -/
theorem CastPass.run_balances (p : CastPass) (u u' : CompilationUnit) (report : CastReport)
    (hrun : (p.run u).result = .ok (report, u')) :
    u.casts.length + report.inserted = u'.casts.length + report.collapsed + report.removed := by
  obtain ⟨rfl, rfl⟩ := run_ok hrun
  unfold CastReport.ofSteps
  rw [filterMap_edit?_stepsOf]
  exact (u.traces p.rules).accounts.balances

/-- A variable of type `T`, read through a cast to the root: the cast that is asked for falls together with it. -/
theorem CastPass.run_balances_readBack :
    ((CastPass.ofFacts Hierarchy.empty.facts).run
        (.readBack (.cast 3 .root (.localVar 3 (.ofVar "T") "value")))).result =
      .ok ({ collapsed := 1 }, .readBack (.localVar 3 (.ofVar "T") "value")) ∧
    (CompilationUnit.readBack (.cast 3 .root (.localVar 3 (.ofVar "T") "value"))).casts.length + 0 =
      (CompilationUnit.readBack (.localVar 3 (.ofVar "T") "value")).casts.length + 1 + 0 := by
  have hrun : ((CastPass.ofFacts Hierarchy.empty.facts).run
      (.readBack (.cast 3 .root (.localVar 3 (.ofVar "T") "value")))).result =
        .ok ({ collapsed := 1 }, .readBack (.localVar 3 (.ofVar "T") "value")) := by
    with_unfolding_all rfl
  exact ⟨hrun, run_balances _ _ _ _ hrun⟩

end Recast
