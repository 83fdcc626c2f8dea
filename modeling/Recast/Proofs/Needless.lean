import Mathlib.Data.List.Forall2
import Recast.Proofs.Bare
import Recast.Proofs.Revisit
import Recast.Proofs.Run
/-!
# Needless casts — which of them a run leaves

A cast in a slot is needless where its operand would do without it.  Settling a slot takes a needless cast away, but it
looks once: what comes to light is not looked at again.  So a needless cast is left only where a cast stood around it,
and then a cast has gone (`Rules.needless_settle`); where no cast stands directly on another, one run leaves none
(`CastPass.run_leaves_needless_under_casts`).  Under two casts a run does leave one
(`CastPass.exists_run_leaves_needless`), and it takes another run to find it.
-/
namespace Recast

/-- **A needless cast**: the slot is not forced and asks for a class, and the operand has a class that is assignable
to it. -/
def TypeFacts.Needless (f : TypeFacts) (b : TypeBounds) (d : Demand) (e : Expr) : Prop :=
  ∃ target source x, f.required? d = some (.object target, false) ∧ e.castOperand? = some x ∧
    x.ty = .object source ∧ f.assignable b target source = true

/-- **A visit before and after a run**: a slot in which a needless cast is left held a cast around another one, and now
holds fewer. -/
inductive Visit.Shorn (f : TypeFacts) : Visit → Visit → Prop
  | call (s : CallSite) : Shorn f (.call s) (.call s)
  | skip (w : Skipped) : Shorn f (.skip w) (.skip w)
  | slot (sc : Scope) (d : Demand) {e e' : Expr} (hbare : e'.bare = e.bare)
    (h : f.Needless sc.bounds d e' → 2 ≤ e.castDepth ∧ e'.castDepth < e.castDepth) :
    Shorn f (.slot sc d e) (.slot sc d e')

namespace TypeFacts

variable {f : TypeFacts} {b : TypeBounds} {d : Demand} {e : Expr}

theorem Needless.isCast (h : f.Needless b d e) : e.isCast = true := by
  obtain ⟨-, -, x, -, hx, -⟩ := h
  by_contra hc
  exact Expr.castOperand?_ne_some (Bool.eq_false_iff.2 hc) x hx

theorem Needless.castDepth_pos (h : f.Needless b d e) : 0 < e.castDepth := by
  obtain ⟨l, t, x, rfl⟩ := Expr.exists_of_isCast h.isCast
  exact Nat.succ_pos _

/-- A walk makes no cast needless. -/
theorem Needless.of_walk {r : Rules} {sc : Scope} (h : f.Needless b d (e.reconcile r sc none)) : f.Needless b d e := by
  obtain ⟨l, t, x, rfl⟩ := Expr.exists_of_isCast ((e.walk_alike r sc).isCast.symm.trans h.isCast)
  obtain ⟨target, source, y, hd, hy, hs, ha⟩ := h
  rw [Expr.walk_cast] at hy
  injection hy with hy
  subst hy
  rw [(x.walk_alike r sc).ty] at hs
  exact ⟨target, source, x, hd, rfl, hs, ha⟩

end TypeFacts

/-- **A needless cast in a settled slot** has come to light from under another. -/
theorem Rules.needless_settle {r : Rules} (hset : r.settings.removeRedundantCasts = true) {b : TypeBounds} {d : Demand}
    {e : Expr} (h : r.facts.Needless b d (r.settle b d e)) :
    2 ≤ e.castDepth ∧ (r.settle b d e).castDepth < e.castDepth := by
  have hdepth := h.castDepth_pos
  obtain ⟨target, source, y, hd, hy, hs, ha⟩ := h
  have hunwraps : r.unwraps b (.object target) false y = true :=
    unwraps_iff.2 ⟨rfl, hset, TypeFacts.fitsBare_iff.2 ⟨target, source, rfl, hs, ha⟩⟩
  unfold settle at *
  rw [edits_of_required e hd] at *
  have hfit := r.fitting b (.object target) false e
  generalize r.fitEdits b (.object target) false e = es at *
  -- the slot is left, or ends with a cast that has been looked at; or a cast has gone and nobody looks
  cases hfit with
  | nullKept hn =>
    exact absurd hy (Expr.castOperand?_ne_some (Expr.isCast_of_isNull hn) y)
  | kept hn hv hu =>
    rw [hu y hy] at hunwraps
    cases hunwraps
  | inserted line t hn hc hv =>
    injection hy with hy
    rw [← hy, unwraps_of_verdict_cast r b _ _ hv] at hunwraps
    cases hunwraps
  | retargeted l s x t hv ht hu =>
    injection hy with hy
    rw [← hy, hu] at hunwraps
    cases hunwraps
  | collapsed l s x hv hu =>
    rw [hu y hy] at hunwraps
    cases hunwraps
  | removed l s x => exact ⟨Nat.succ_le_succ hdepth, Nat.lt_succ_self _⟩
  | retargetRemoved l s x t => exact ⟨Nat.succ_le_succ hdepth, Nat.lt_succ_self _⟩
  | collapseRemoved l s m t y =>
    exact ⟨Nat.succ_le_succ (Nat.succ_le_succ (Nat.zero_le _)), Nat.lt_succ_of_lt (Nat.lt_succ_self _)⟩
  | nullPicked _ _ hf => cases hf
  | erased _ _ hf => cases hf

theorem Visit.shorn_settled {r : Rules} (hset : r.settings.removeRedundantCasts = true) :
    ∀ v : Visit, Shorn r.facts v (v.settled r)
  | .call s => .call s
  | .skip w => .skip w
  | .slot sc d e => by
    refine .slot sc d (e.bare_reconcile r sc (some d)) fun h => ?_
    rw [Expr.reconcile_some] at h ⊢
    rw [Expr.castDepth_walk]
    exact Rules.needless_settle hset h.of_walk

/-- **A run leaves a needless cast only where a cast stood on a cast.**  The slots of the tree that comes out are slots
of the tree that went in, in their order; and where one of them still holds a needless cast, the expression in it was a
cast of a cast, and is under fewer casts than before. -/
theorem CastPass.run_leaves_needless_under_casts (p : CastPass) (u u' : CompilationUnit) (report : CastReport)
    (hset : p.rules.settings.removeRedundantCasts = true) (hrun : (p.run u).result = .ok (report, u')) :
    ∃ vs, List.Sublist vs (u.visits p.rules.settings.anonymousClassBodies) ∧
      List.Forall₂ (Visit.Shorn p.rules.facts) vs (u'.visits p.rules.settings.anonymousClassBodies) := by
  obtain ⟨-, rfl⟩ := run_ok hrun
  obtain ⟨vs, hsub, hvs⟩ := List.sublist_map_iff.1 (u.revisit p.rules)
  refine ⟨vs, hsub, ?_⟩
  rw [hvs]
  exact List.forall₂_map_right_iff.2 (List.forall₂_same.2 fun v _ => v.shorn_settled hset)

/-- `Object read() { return value; }` in a unit of its own. -/
def CompilationUnit.readRoot (value : Expr) : CompilationUnit :=
  ⟨[⟨.ordinary, AccessFlag.isPublic, "Box", some ⟨"Box", .empty,
    [.method (.named "read" "()Ljava/lang/Object;" .root) (some [.ret (some value)])]⟩⟩]⟩

/-- `(String) text` is returned as `text`. -/
theorem CastPass.run_leaves_needless_under_casts_readRoot :
    ((CastPass.ofFacts Hierarchy.empty.facts).run
        (.readRoot (.cast 2 (.object .string) (.localVar 2 (.object .string) "text")))).result =
      .ok ({ removed := 1 }, .readRoot (.localVar 2 (.object .string) "text")) ∧
    ∃ vs, List.Sublist vs
        ((CompilationUnit.readRoot (.cast 2 (.object .string) (.localVar 2 (.object .string) "text"))).visits true) ∧
      List.Forall₂ (Visit.Shorn Hierarchy.empty.facts) vs
        ((CompilationUnit.readRoot (.localVar 2 (.object .string) "text")).visits true) := by
  have hrun : ((CastPass.ofFacts Hierarchy.empty.facts).run
      (.readRoot (.cast 2 (.object .string) (.localVar 2 (.object .string) "text")))).result =
        .ok ({ removed := 1 }, .readRoot (.localVar 2 (.object .string) "text")) := by
    with_unfolding_all rfl
  exact ⟨hrun, run_leaves_needless_under_casts _ _ _ _ rfl hrun⟩

/-- `(Object) (String) text` is returned as `(String) text`, and the cast that is left is as needless as the other. -/
theorem CastPass.exists_run_leaves_needless :
    ¬ ∀ (h : Hierarchy) (u u' : CompilationUnit) (report : CastReport),
      ((CastPass.ofFacts h.facts).run u).result = .ok (report, u') →
        ∀ sc d e, .slot sc d e ∈ u'.visits true → ¬ h.facts.Needless sc.bounds d e := by
  intro hall
  have hrun : ((CastPass.ofFacts Hierarchy.empty.facts).run
      (.readRoot (.cast 2 .root (.cast 2 (.object .string) (.localVar 2 (.object .string) "text"))))).result =
        .ok ({ removed := 1 }, .readRoot (.cast 2 (.object .string) (.localVar 2 (.object .string) "text"))) := by
    with_unfolding_all rfl
  have hslot : (CompilationUnit.readRoot
      (.cast 2 (.object .string) (.localVar 2 (.object .string) "text"))).visits true =
        [.slot ⟨.empty, some .root, none⟩ (.fit .root false)
          (.cast 2 (.object .string) (.localVar 2 (.object .string) "text"))] := by
    with_unfolding_all rfl
  refine hall Hierarchy.empty _ _ _ hrun _ _ _ (hslot ▸ List.mem_singleton_self _) ?_
  exact ⟨.root, .string, .localVar 2 (.object .string) "text", rfl, rfl, rfl, by with_unfolding_all rfl⟩

end Recast
