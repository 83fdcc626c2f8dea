import Recast.Proofs.RawOrder
import Recast.Proofs.Run
import Recast.Proofs.Walk
/-!
# Unwrapping — which casts a slot takes away

A cast to a type that the slot takes gets no other target: it is left or taken away.  What decides is whether the slot
takes the operand, by its class, and not whether the target of the cast takes it (`CastPass.reconcile_unwraps_by_slot`).
A primitive and a value of a type variable keep their casts, and where the slot asks for the very target of the cast the
two questions are one.

Where it asks for less they are two.  The root takes every class, so in a slot that asks for the root a cast from there
to a class goes, and its check with it (`CastPass.exists_reconcile_unwraps_checked`).
-/
namespace Recast

/-- **A type that a slot takes**: the required one, any where that is the root, a class where that is one above it. -/
inductive TypeFacts.Admits (f : TypeFacts) (b : TypeBounds) : Ty → Ty → Prop
  | same (t : Ty) : Admits f b t t
  | root (t : Ty) : Admits f b .root t
  | above {target source : ClassType} (h : f.assignable b target source = true) :
    Admits f b (.object target) (.object source)

theorem TypeFacts.verdict_of_admits {f : TypeFacts} {b : TypeBounds} {required : Ty} {e : Expr}
    (h : f.Admits b required e.ty) : f.verdict b false required e = .keep := by
  generalize hty : e.ty = t at h
  cases h with
  | same => exact verdict_of_ty_eq hty
  | root => exact verdict_of_isRoot rfl
  | above h => exact verdict_of_fitsBare (fitsBare_iff.2 ⟨_, _, rfl, hty, h⟩) rfl

/-- A cast that may keep its target is left or taken away. -/
theorem Rules.settle_cast_of_keep {r : Rules} {b : TypeBounds} {required target : Ty} {l : UInt32} {x : Expr}
    (hv : r.facts.verdict b false required (.cast l target x) = .keep) :
    r.settle b (.fit required false) (.cast l target x) =
      if r.unwraps b required false x = true then x else .cast l target x := by
  unfold Expr.cast at *
  unfold settle
  rw [edits_of_required _ rfl]
  have hfit := r.fitting b required false ⟨l, target, .cast x⟩
  generalize r.fitEdits b required false ⟨l, target, .cast x⟩ = es at hfit
  -- the other plans are for what is no cast, for forced slots, or follow another verdict
  cases hfit with
  | kept hn _ hu => rw [if_neg (Bool.eq_false_iff.1 (hu x rfl))]; rfl
  | removed _ _ _ _ hu => rw [if_pos hu]; rfl
  | nullKept hn => cases hn
  | nullPicked _ hn => cases hn
  | inserted _ _ _ hc => cases hc
  | erased _ hw => cases hw
  | retargeted _ _ _ _ hv' | retargetRemoved _ _ _ _ hv' | collapsed _ _ _ hv' | collapseRemoved _ _ _ _ _ hv' =>
    rw [hv] at hv'
    cases hv'

theorem Expr.reconcile_cast {r : Rules} {b : TypeBounds} {required target : Ty}
    (htarget : r.facts.Admits b required target) (l : UInt32) (x : Expr) :
    (Expr.cast l target x).reconcile r (.ofBounds b) (some (.fit required false)) =
      if r.unwraps b required false x = true then x.reconcile r (.ofBounds b) none
      else .cast l target (x.reconcile r (.ofBounds b) none) := by
  have hsettle : r.settle (Scope.ofBounds b).bounds (.fit required false) (.cast l target x) =
      if r.unwraps b required false x = true then x else .cast l target x :=
    Rules.settle_cast_of_keep (TypeFacts.verdict_of_admits htarget)
  rw [reconcile_some, hsettle]
  split <;> rfl

theorem Expr.cast_ne_operand (l : UInt32) (t : Ty) (x : Expr) : Expr.cast l t x ≠ x :=
  fun h => Nat.succ_ne_self x.castDepth (congrArg castDepth h)

/-- **A cast is taken away where the slot takes its operand.**  A cast to a type that the slot takes is left or taken
away, and taken away exactly where the slot asks for a class and the operand has one that is assignable to it. -/
theorem CastPass.reconcile_unwraps_by_slot (p : CastPass) (hset : p.rules.settings.removeRedundantCasts = true)
    (b : TypeBounds) (required target : Ty) (l : UInt32) (x e' : Expr)
    (htarget : p.rules.facts.Admits b required target)
    (hok : (p.reconcile b required (.cast l target x) false).result = .ok e') :
    (e' = x.reconcile p.rules (.ofBounds b) none ∨ e' = .cast l target (x.reconcile p.rules (.ofBounds b) none)) ∧
    (e' = x.reconcile p.rules (.ofBounds b) none ↔
      ∃ c s, required = .object c ∧ x.ty = .object s ∧ p.rules.facts.assignable b c s = true) := by
  obtain ⟨-, rfl⟩ := single_ok_iff.1 hok
  rw [Expr.reconcile_cast htarget, ← TypeFacts.fitsBare_iff]
  cases hu : p.rules.unwraps b required false x with
  | true => exact ⟨.inl rfl, iff_of_true rfl (Rules.unwraps_iff.1 hu).2.2⟩
  | false =>
    refine ⟨.inr rfl, iff_of_false (Expr.cast_ne_operand l target _) fun hfits => ?_⟩
    rw [Rules.unwraps_iff.2 ⟨rfl, hset, hfits⟩] at hu
    cases hu

/-- `(String) text` where a `CharSequence` is asked for. -/
theorem CastPass.reconcile_unwraps_by_slot_text :
    ((CastPass.ofFacts Hierarchy.platform.facts).reconcile .empty (.ofClass "java/lang/CharSequence")
      (.cast 2 (.object .string) (.localVar 2 (.object .string) "text")) false).result =
        .ok (.localVar 2 (.object .string) "text") ∧
    ∃ c s, Ty.ofClass "java/lang/CharSequence" = .object c ∧ Ty.object .string = .object s ∧
      Hierarchy.platform.assignable .empty c s = true := by
  have hassignable : Hierarchy.platform.assignable .empty (.ofName "java/lang/CharSequence") .string = true := by
    have hextends : Hierarchy.platform.Extends ClassType.stringName "java/lang/CharSequence" :=
      Hierarchy.extends_iff.2 ⟨Platform.string, rfl, by decide⟩
    exact (Hierarchy.takes_iff rfl .empty _).2 (.above (by decide) rfl (.single hextends))
  have htarget : Hierarchy.platform.facts.Admits .empty (.ofClass "java/lang/CharSequence") (.object .string) :=
    .above hassignable
  have hrun : ((CastPass.ofFacts Hierarchy.platform.facts).reconcile .empty (.ofClass "java/lang/CharSequence")
      (.cast 2 (.object .string) (.localVar 2 (.object .string) "text")) false).result =
        .ok (.localVar 2 (.object .string) "text") := by
    have hunwraps : (CastPass.ofFacts Hierarchy.platform.facts).rules.unwraps .empty (.ofClass "java/lang/CharSequence")
        false (.localVar 2 (.object .string) "text") = true :=
      Rules.unwraps_iff.2 ⟨rfl, rfl, TypeFacts.fitsBare_iff.2 ⟨_, _, rfl, rfl, hassignable⟩⟩
    exact single_ok_iff.2 ⟨rfl, ((Expr.reconcile_cast htarget 2 _).trans (if_pos hunwraps)).symm⟩
  exact ⟨hrun, (reconcile_unwraps_by_slot _ rfl _ _ _ _ _ _ htarget hrun).2.1 rfl⟩

/-- **The target of a cast that goes need not take the operand.**  `(String) value` goes where the root is asked for,
and nothing that is known of the value makes it a string. -/
theorem CastPass.exists_reconcile_unwraps_checked :
    ¬ ∀ (h : Hierarchy) (b : TypeBounds) (required target : Ty) (l : UInt32) (x e' : Expr),
      h.facts.Admits b required target →
      ((CastPass.ofFacts h.facts).reconcile b required (.cast l target x) false).result = .ok e' →
      e' = x.reconcile ⟨h.facts, {}⟩ (.ofBounds b) none →
        ∃ c s, target = .object c ∧ x.ty = .object s ∧ h.assignable b c s = true := by
  intro hall
  have hrun : ((CastPass.ofFacts Hierarchy.platform.facts).reconcile .empty .root
      (.cast 2 (.object .string) (.localVar 2 .root "value")) false).result = .ok (.localVar 2 .root "value") := by
    with_unfolding_all rfl
  obtain ⟨c, s, hc, hs, hassignable⟩ := hall .platform .empty .root (.object .string) 2 _ _ (.root _) hrun rfl
  cases hc
  cases hs
  have hname : ClassType.stringName ≠ ClassType.rootName := by decide
  -- from the root no way leads to a string
  rcases (Hierarchy.takes_iff rfl .empty .root).1 hassignable with ⟨hn, -⟩ | ⟨-, -, hreaches⟩
  · exact hname hn
  · exact hname (Hierarchy.rootOnTop_platform.eq_of_reaches hreaches)

end Recast
