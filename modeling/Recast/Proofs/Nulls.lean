import Recast.Proofs.Heads
/-!
# Nulls — the `null` arguments of an overloaded call

A bare `null` fits every parameter and picks no overload.  In an overloaded call it gets a cast to the type of its
parameter, the root included; and one that stands under a cast stays under one, whatever target it gets.

One case is different.  A slot that asks for a type which the operand of a cast has already drops the cast, and where
that operand is a `null` recorded with this type, a bare `null` is left (`Expr.GivesWay`).  So
`CastPass.run_casts_nulls` says which casts over `null` can go, and `CastPass.exists_run_leaves_null` that some do.
-/
namespace Recast

/-- **A cast over `null` that gives way** where `t` is asked for: it is to another type, and the type recorded for the
`null` is `t` or its raw form. -/
inductive Expr.GivesWay (t : Ty) : Expr → Prop
  | intro (l : UInt32) (s : Ty) (x : Expr) (hn : x.isNull = true) (hs : s ≠ x.ty) (ht : x.ty = t ∨ x.ty = t.raw)
    (hr : t.isRoot = false) : GivesWay t ⟨l, s, .cast x⟩

/-- **An argument for a parameter of type `t` before and after**, as far as it is `null` under its casts. -/
structure Expr.CastsNull (t : Ty) (e e' : Expr) : Prop where
  core : e'.core.isNull = e.core.isNull
  bare : e.isNull = true → e' = .cast e.firstLine t e
  under : e.isCast = true → e.core.isNull = true → e'.isCast = true ∨ e.GivesWay t
  left : e'.isNull = true → e.GivesWay t

/-! ## Forced slots -/

/-- Under its casts an expression stays `null`, or stays something else. -/
theorem Edit.Planned.isNull_core {e : Expr} {es : List Edit} (h : Planned e es) :
    (applyAll es e).core.isNull = e.core.isNull := by
  cases h with
  | erase line t hw =>
    obtain ⟨l, s, k⟩ := e
    cases k with
    | new desc as ps b => rfl
    | _ => cases hw
  | _ => rfl

namespace Rules

variable {r : Rules} {b : TypeBounds} {d : Demand} {t : Ty} {e : Expr}

theorem settle_null (hd : r.facts.required? d = some (t, true)) (hn : e.isNull = true) :
    r.settle b d e = .cast e.firstLine t e := by
  unfold settle
  rw [edits_of_required e hd, fitEdits, if_pos hn, if_pos rfl, Edit.castTo_of_not_cast t (Expr.isCast_of_isNull hn)]
  rfl

/-- **A forced slot ends with a bare `null` only where a cast has given way.** -/
theorem givesWay_of_settle (hd : r.facts.required? d = some (t, true)) (h : (r.settle b d e).isNull = true) :
    e.GivesWay t := by
  unfold settle at h
  rw [edits_of_required e hd] at h
  have hfit := r.fitting b t true e
  generalize r.fitEdits b t true e = es at hfit h
  cases hfit with
  | nullKept hn hf => cases hf
  | kept hn hv => exact absurd (hn.symm.trans h) Bool.false_ne_true
  | nullPicked | inserted | erased | retargeted => cases h
  | collapsed l s x hv =>
    have hgrounds := TypeFacts.verdict_cast hv
    refine .intro l s x h hgrounds.ty_ne (hgrounds.target.imp id ?_) hgrounds.not_root
    rintro ⟨c, rfl, -, hraw⟩
    exact hraw
  | removed l s x hv hu => cases (unwraps_iff.1 hu).1
  | retargetRemoved l s x u hv hu hr => cases (unwraps_iff.1 hr).1
  | collapseRemoved l s m u y hv hu => cases (unwraps_iff.1 hu).1

end Rules

namespace Expr

theorem walk_null (r : Rules) (sc : Scope) {e : Expr} (h : e.isNull = true) : e.reconcile r sc none = e := by
  obtain ⟨l, t, k⟩ := e
  cases k with
  | leaf x => rfl
  | _ => cases h

/-- **What a forced slot makes of a `null`**, bare or under casts. -/
theorem castsNull_reconcile (r : Rules) (sc : Scope) {d : Demand} {t : Ty} (e : Expr)
    (hd : r.facts.required? d = some (t, true)) : e.CastsNull t (e.reconcile r sc (some d)) := by
  have hwalk := (r.settle sc.bounds d e).walk_alike r sc
  have hcore : (e.reconcile r sc (some d)).core.isNull = e.core.isNull := by
    rw [reconcile_some, core_walk, ((r.settle sc.bounds d e).core.walk_alike r sc).isNull]
    exact (r.planned sc.bounds d e).isNull_core
  have hleft : (e.reconcile r sc (some d)).isNull = true → e.GivesWay t := by
    intro h
    rw [reconcile_some, hwalk.isNull] at h
    exact Rules.givesWay_of_settle hd h
  refine ⟨hcore, fun hn => ?_, fun _ hn => ?_, hleft⟩
  · rw [reconcile_some, Rules.settle_null hd hn, cast, walk_cast, walk_null r sc hn]
  · cases hc : (e.reconcile r sc (some d)).isCast with
    | true => exact .inl rfl
    | false =>
      rw [← hcore, core_of_not_cast hc] at hn
      exact .inr (hleft hn)

end Expr

/-! ## Calls -/

/-- **A call before and after a run**, with what becomes of the `null`s among its arguments where it is overloaded. -/
structure Call.CastsNulls (f : TypeFacts) (c c' : Call) : Prop extends Call.Pinned f c c' where
  nulls : c.creates = false → f.overloaded c.owner c.member c.arguments.length = true →
    ∀ (i : Nat) (e e' : Expr) (t : Ty), c.arguments[i]? = some e → c'.arguments[i]? = some e' →
      c.parameters[i]? = some t → e.CastsNull t e'

theorem Call.castsNulls_reconcile (r : Rules) (sc : Scope) {c : Call} (hs : ¬ c.Short) :
    c.CastsNulls r.facts (c.reconcile r sc) where
  toPinned := c.pinned_reconcile r sc hs
  nulls := by
    intro hcreates hover i e e' t hin hout ht
    rw [argument_reconcile hin hout ht]
    exact e.castsNull_reconcile r sc (required?_demand r.facts hcreates hover t)

/-- **The calls of a run that succeeds**: none is short, and each has its arguments reconciled. -/
theorem CastPass.run_calls {p : CastPass} {u u' : CompilationUnit} {report : CastReport}
    (hrun : (p.run u).result = .ok (report, u')) :
    List.Forall₂ (fun c c' => ¬ c.Short ∧ ∃ sc, c' = Call.reconcile p.rules sc c) (u.calls p.rules.anonymous)
      (u'.calls p.rules.anonymous) := by
  have hfault := (whole_ok hrun).1
  obtain ⟨-, rfl⟩ := run_ok hrun
  rw [fault?_stepsOf, (u.tours p.rules).fault] at hfault
  have hcalls := CompilationUnit.calls_reconcile hfault
  rw [Node.findSome?_fault?, List.findSome?_eq_none_iff] at hfault
  exact (List.forall₂_and_left _ _).2 ⟨fun c hc => c.fault?_site_eq_none.1 (hfault c hc), hcalls⟩

/-- **No overloaded call is left with a bare `null`, but for casts that give way.**  Every call of the unit, in the
order of a walk, against the one that a run has made of it. -/
theorem CastPass.run_casts_nulls (p : CastPass) (u u' : CompilationUnit) (report : CastReport)
    (hrun : (p.run u).result = .ok (report, u')) :
    List.Forall₂ (Call.CastsNulls p.rules.facts) (u.calls p.rules.anonymous) (u'.calls p.rules.anonymous) := by
  refine (run_calls hrun).imp ?_
  rintro c c' ⟨hs, sc, rfl⟩
  exact c.castsNulls_reconcile p.rules sc hs

/-- A bare `null` in a call of an overloaded `put`. -/
theorem CastPass.run_put_null :
    ((CastPass.ofFacts .overloadedPut).run (.put (.null 2))).result =
      .ok ({ inserted := 1 }, .put (.cast 2 (.ofClass "java/util/List") (.null 2))) := by
  with_unfolding_all rfl

theorem CastPass.run_casts_nulls_put :
    (Expr.null 2).CastsNull (.ofClass "java/util/List") (.cast 2 (.ofClass "java/util/List") (.null 2)) := by
  have h := run_casts_nulls _ _ _ _ run_put_null
  exact (List.forall₂_cons.1 h).1.nulls rfl rfl 0 _ _ _ rfl rfl rfl

/-- The cast that picks the overload gives way to a `null` that is recorded as a list. -/
theorem CastPass.run_put_cast_null :
    ((CastPass.ofFacts .overloadedPut).run
        (.put (.cast 2 .root ⟨2, .ofClass "java/util/List", .leaf .null⟩))).result =
      .ok ({ collapsed := 1 }, .put ⟨2, .ofClass "java/util/List", .leaf .null⟩) := by
  with_unfolding_all rfl

/-- **A run can take the cast off a `null`** in a call that is overloaded. -/
theorem CastPass.exists_run_leaves_null :
    ¬ ∀ (p : CastPass) (u u' : CompilationUnit) (report : CastReport), (p.run u).result = .ok (report, u') →
      ∀ c ∈ u'.calls p.rules.anonymous, c.creates = false →
        p.rules.facts.overloaded c.owner c.member c.arguments.length = true → ∀ e ∈ c.arguments, e.isNull = false := by
  intro hall
  have hbare := hall _ _ _ _ run_put_cast_null _ List.mem_cons_self rfl rfl _ List.mem_cons_self
  cases hbare

end Recast
