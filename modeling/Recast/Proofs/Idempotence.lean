import Recast.Proofs.Change
import Recast.Proofs.Delivered
import Recast.Proofs.Erasure
/-!
# Idempotence — a second run finds nothing to do

A slot is at rest when its expression is a bare `null` that need not pick an overload, or when the verdict keeps the
expression and no cast at its top is needless (`Rules.Rests`).  Settling brings every slot of a delivered tree to rest
(`Rules.rests_settle`), by the ten cases of `Rules.Fitting`: a cast to the required type or to its raw form is kept,
because a class hierarchy finds every class above itself; a cast that has just been put in is not needless; and what
comes to light under a cast is no cast, and no `null`, since a `null` has the root as its type.

The walk keeps slots at rest, and the slots of the reconciled tree are settled slots of the tree.
-/
namespace Recast

namespace Hierarchy

variable {h : Hierarchy} {b : TypeBounds} {forced : Bool} {required t : Ty} {e e' : Expr}

/-- **A class takes the raw use of itself.** -/
theorem assignable_raw (h : Hierarchy) (b : TypeBounds) {c : ClassType}
    (hc : (Ty.object c).parameterizesRoot = false) : h.assignable b c c.raw = true := by
  refine assignable_erased_source (h.assignable_self b ?_)
  by_cases hname : c.name = ClassType.rootName
  · exact .inr (by simpa [Ty.parameterizesRoot, hname, ClassType.isRaw] using hc)
  · exact .inl hname

/-- What has been cast to the target of a verdict is kept. -/
theorem verdict_target (hr : required.parameterizesRoot = false) (hv : h.facts.verdict b forced required e = .cast t)
    (ht : e'.ty = t) : h.facts.verdict b forced required e' = .keep := by
  rcases (TypeFacts.verdict_cast hv).target with rfl | ⟨c, rfl, -, rfl⟩
  · exact TypeFacts.verdict_of_ty_eq ht
  · have hassign : h.facts.assignable b c c.raw = true := h.assignable_raw b hr
    unfold TypeFacts.verdict
    split
    · rfl
    · simp [ht, TypeFacts.classVerdict, hassign]

end Hierarchy

namespace Rules

/-- **A slot at rest.** -/
inductive Rests (r : Rules) (b : TypeBounds) (required : Ty) (forced : Bool) (e : Expr) : Prop
  | null (hn : e.isNull = true) (hf : forced = false)
  | kept (hn : e.isNull = false) (hv : r.facts.verdict b forced required e = .keep)
    (hu : ∀ x, e.castOperand? = some x → r.unwraps b required forced x = false)

variable {r : Rules} {b : TypeBounds} {required : Ty} {forced : Bool} {e x : Expr}

/-- A slot at rest has no edits. -/
theorem Rests.fitEdits (h : r.Rests b required forced e) : r.fitEdits b required forced e = [] := by
  unfold Rules.fitEdits
  cases h with
  | null hn hf => rw [if_pos hn, hf, if_neg Bool.false_ne_true]
  | kept hn hv hu =>
    simp only [hn, Bool.false_eq_true, if_false, hv, Verdict.edits, Edit.applyAll, List.foldl_nil, List.nil_append]
    cases hc : e.isCast with
    | false => rw [removal_of_not_cast r b required forced hc, if_neg Bool.false_ne_true]
    | true =>
      obtain ⟨l, s, x, rfl⟩ := Expr.exists_of_isCast hc
      have hx : (!forced && r.settings.removeRedundantCasts &&
          r.facts.redundant b required ⟨l, s, .cast x⟩) = false := hu x rfl
      rw [hx, if_neg Bool.false_ne_true]

/-- A walk keeps a slot at rest. -/
theorem Rests.walk (sc : Scope) (h : r.Rests b required forced e) :
    r.Rests b required forced (e.reconcile r sc none) := by
  have halike := e.walk_alike r sc
  cases h with
  | null hn hf => exact .null (halike.isNull.trans hn) hf
  | kept hn hv hu =>
    refine .kept (halike.isNull.trans hn) ((TypeFacts.verdict_congr halike.ty halike.isNew).trans hv) fun y hy => ?_
    cases hc : e.isCast with
    | false =>
      exact absurd hy (Expr.castOperand?_ne_some (halike.isCast.trans hc) y)
    | true =>
      obtain ⟨l, s, x, rfl⟩ := Expr.exists_of_isCast hc
      cases hy
      exact (unwraps_congr (x.walk_alike r sc).ty).trans (hu x rfl)

/-- What comes to light when a needless cast goes is at rest. -/
theorem Rests.of_unwraps (hc : x.isCast = false) (hu : r.unwraps b required forced x = true) :
    r.Rests b required forced x := by
  obtain ⟨hforced, -, hbare⟩ := unwraps_iff.1 hu
  cases hn : x.isNull with
  | true => exact .null hn hforced
  | false =>
    refine .kept hn (TypeFacts.verdict_of_fitsBare hbare hforced) fun y hy => ?_
    exact absurd hy (Expr.castOperand?_ne_some hc y)

variable {h : Hierarchy}

/-- **Settling brings a slot to rest**, where the tree is delivered and the facts are those of a hierarchy. -/
theorem rests_settle (hr : r.facts = h.facts) (he : e.Delivered) (hplain : required.parameterizesRoot = false) :
    r.Rests b required forced (Edit.applyAll (r.fitEdits b required forced e) e) := by
  have hfit := r.fitting b required forced e
  generalize r.fitEdits b required forced e = es at hfit
  cases hfit with
  | nullKept hn hf => exact .null hn hf
  | nullPicked line hn hf =>
    exact .kept rfl (TypeFacts.verdict_of_ty_eq rfl) fun x _ => unwraps_of_forced hf x
  | kept hn hv hu => exact .kept hn hv hu
  | removed l s x hv hu => exact .of_unwraps he.operand_isCast hu
  | inserted line t hn hc hv =>
    refine .kept rfl (hr ▸ Hierarchy.verdict_target hplain (hr ▸ hv) rfl) ?_
    rintro x ⟨⟩
    exact unwraps_of_verdict_cast r b required forced hv
  | erased line hw hf hv =>
    exact .kept rfl (TypeFacts.verdict_of_ty_eq rfl) fun x _ => unwraps_of_forced hf x
  | retargeted l s x t hv ht hu =>
    refine .kept rfl (hr ▸ Hierarchy.verdict_target hplain (hr ▸ hv) rfl) ?_
    rintro y ⟨⟩
    exact hu
  | retargetRemoved l s x t hv ht hu => exact .of_unwraps he.operand_isCast hu
  | collapsed l s x hv hu =>
    -- a bare `null` would get its cast back in a forced slot, but its type is the root and no cast goes there
    have hn : x.isNull = false := by
      cases hn : x.isNull with
      | false => rfl
      | true =>
        have hcore : x.core = x := Expr.core_of_not_cast he.operand_isCast
        refine absurd ?_ (TypeFacts.verdict_cast_ne_root hplain hv)
        rw [← hcore]
        exact he.operand.null (hcore.symm ▸ hn)
    exact .kept hn (hr ▸ Hierarchy.verdict_target hplain (hr ▸ hv) rfl) hu
  | collapseRemoved l s m t y => exact nomatch he.operand_isCast

end Rules

theorem Edit.ty_apply_castTo (t : Ty) (e : Expr) : ((castTo t e).apply e).ty = t := by
  cases hc : e.isCast with
  | false =>
    rw [castTo_of_not_cast t hc]
    rfl
  | true =>
    obtain ⟨l, s, x, rfl⟩ := Expr.exists_of_isCast hc
    rw [castTo_cast]
    split
    · assumption
    · rfl

/-- A thrown value has the type variable as its type when it is settled. -/
theorem Rules.ty_settle_thrown (r : Rules) (b : TypeBounds) (t : Ty) (e : Expr) :
    (r.settle b (.thrown t) e).ty = t := by
  unfold settle
  by_cases ht : e.ty = t
  · have hedits : r.edits b (.thrown t) e = [] := if_pos ht
    rw [hedits]
    exact ht
  · have hedits : r.edits b (.thrown t) e = [.castTo t e] := if_neg ht
    rw [hedits]
    exact Edit.ty_apply_castTo t e

/-- **A settled slot of a delivered tree has no edits**, walked or not. -/
theorem Expr.edits_reconcile {r : Rules} {h : Hierarchy} (hr : r.facts = h.facts) (sc : Scope) {d : Demand} {e : Expr}
    (he : e.Delivered) (hd : d.Plain) : r.edits sc.bounds d (e.reconcile r sc (some d)) = [] := by
  cases hq : r.facts.required? d with
  | some p =>
    have hplain : p.1.parameterizesRoot = false := hd.required h.plain_facts (hr ▸ hq)
    have hrest : r.Rests sc.bounds p.1 p.2 (r.settle sc.bounds d e) := by
      unfold Rules.settle
      rw [Rules.edits_of_required e hq]
      exact Rules.rests_settle hr he hplain
    rw [Rules.edits_of_required _ hq, reconcile_some]
    exact (hrest.walk sc).fitEdits
  | none =>
    cases d with
    | thrown t =>
      have hty : (e.reconcile r sc (some (.thrown t))).ty = t := by
        rw [reconcile_some, (walk_alike r sc _).ty, Rules.ty_settle_thrown]
      exact if_pos hty
    | fit t forced => cases hq
    | argument t owner member count => cases hq
    | declaring owner =>
      unfold Rules.edits
      simp only [hq]

/-- **A second run finds nothing to do.**  Where a run over a delivered unit succeeds, a run over what it hands over
succeeds as well, counts nothing and leaves the tree as it is; the hierarchy and the settings are the same, and what
the passes have counted before does not matter. -/
theorem CastPass.run_idempotent (h : Hierarchy) (settings : Settings) (before again : CastReport)
    (u u' : CompilationUnit) (report : CastReport) (hu : u.Delivered)
    (hrun : ((CastPass.mk ⟨h.facts, settings⟩ before).run u).result = .ok (report, u')) :
    ((CastPass.mk ⟨h.facts, settings⟩ again).run u').result = .ok (.empty, u') := by
  have hfault := (findSome?_fault?_stepsOf _ _).1 (whole_ok hrun).1
  obtain ⟨-, rfl⟩ := run_ok hrun
  have hrevisit := u.revisit ⟨h.facts, settings⟩
  refine run_of_no_edits _ _ (fun s hs => hfault s (hrevisit.call_mem hs)) ?_
  rw [Rules.editsOf_eq_nil_iff]
  intro sc d e hslot
  obtain ⟨e₀, hslot₀, rfl⟩ := hrevisit.slot_mem hslot
  obtain ⟨hplain, hdelivered⟩ := u.delivers settings.anonymousClassBodies hu _ hslot₀
  exact Expr.edits_reconcile rfl sc hdelivered hplain

theorem CastPass.run_idempotent_readBack :
    ((CastPass.ofFacts Hierarchy.empty.facts).run
      (.readBack (.cast 3 (.ofVar "T") (.localVar 3 .root "value")))).result =
        .ok (.empty, .readBack (.cast 3 (.ofVar "T") (.localVar 3 .root "value"))) :=
  run_idempotent .empty {} {} {} _ _ _ CompilationUnit.delivered_readBack run_readBack

end Recast
