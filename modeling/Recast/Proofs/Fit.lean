import Recast.Proofs.Revisit
import Recast.Proofs.Run
import Recast.Proofs.Slots
/-!
# Fit — every slot of a reconciled tree fits

A slot that has been settled fits its type: a bare `null`, a type equal to the required one or to its raw form, a
class that the facts call assignable, a primitive on either side, or the root as the required type
(`Rules.fits_settle`).  The walk behind it changes neither the type nor whether the expression is `null`, and the
slots of the reconciled tree are settled slots of the tree, so a run leaves no slot that does not fit
(`CastPass.run_slots_fit`).  Read off the tree instead of the visits: wherever a run comes by, each of the six kinds of
value fits (`CastPass.run_kinds_fit`).
-/
namespace Recast

/-- **An expression fits a type** under the bounds of its scope. -/
inductive TypeFacts.Fits (f : TypeFacts) (b : TypeBounds) : Ty → Expr → Prop
  | null {required : Ty} {e : Expr} (h : e.isNull = true) : Fits f b required e
  | root {required : Ty} {e : Expr} (h : required.isRoot = true) : Fits f b required e
  | same {required : Ty} {e : Expr} (h : e.ty = required) : Fits f b required e
  | raw {required : Ty} {e : Expr} (h : e.ty = required.raw) : Fits f b required e
  | assignable {target source : ClassType} {e : Expr} (hs : e.ty = .object source)
    (h : f.assignable b target source = true) : Fits f b (.object target) e
  | primitive {required : Ty} {e : Expr} (h : required.isPrimitive = true ∨ e.ty.isPrimitive = true) :
    Fits f b required e

namespace TypeFacts

variable {f : TypeFacts} {b : TypeBounds} {required t : Ty} {forced : Bool} {e e' : Expr}

theorem Fits.of_fitsBare (h : f.fitsBare b required e = true) : f.Fits b required e := by
  obtain ⟨target, source, rfl, hs, ha⟩ := fitsBare_iff.1 h
  exact .assignable hs ha

/-- What a verdict keeps fits as it is. -/
theorem Fits.of_verdict_keep (h : f.verdict b forced required e = .keep) : f.Fits b required e := by
  rcases verdict_keep h with h | h | h | h
  · exact .same h
  · exact .root h
  · exact .of_fitsBare h
  · exact .primitive h

/-- What gets the target of a verdict as its type fits. -/
theorem Fits.of_verdict_cast (h : f.verdict b forced required e = .cast t) (ht : e'.ty = t) : f.Fits b required e' := by
  rcases (verdict_cast h).target with rfl | ⟨c, rfl, -, rfl⟩
  · exact .same ht
  · exact .raw ht

/-- Only the type counts, and whether the expression is `null`. -/
theorem Fits.congr (h : f.Fits b required e) (ht : e'.ty = e.ty) (hn : e'.isNull = e.isNull) :
    f.Fits b required e' := by
  cases h with
  | null h => exact .null (hn.trans h)
  | root h => exact .root h
  | same h => exact .same (ht.trans h)
  | raw h => exact .raw (ht.trans h)
  | assignable hs h => exact .assignable (ht.trans hs) h
  | primitive h => exact .primitive (ht ▸ h)

end TypeFacts

/-- **A settled slot fits.** -/
theorem Rules.fits_settle {r : Rules} {b : TypeBounds} {d : Demand} {required : Ty} {forced : Bool} (e : Expr)
    (hd : r.facts.required? d = some (required, forced)) : r.facts.Fits b required (r.settle b d e) := by
  unfold settle
  rw [edits_of_required e hd]
  have h := r.fitting b required forced e
  generalize r.fitEdits b required forced e = es at h
  cases h with
  | nullKept hn => exact .null hn
  | nullPicked line hn => exact .same rfl
  | kept hn hv => exact .of_verdict_keep hv
  | removed l s x hv hu => exact .of_fitsBare (unwraps_iff.1 hu).2.2
  | inserted line t hn hc hv => exact .of_verdict_cast hv rfl
  | erased line hw hf hv => exact .same rfl
  | retargeted l s x t hv => exact .of_verdict_cast hv rfl
  | retargetRemoved l s x t hv ht hu => exact .of_fitsBare (unwraps_iff.1 hu).2.2
  | collapsed l s x hv => exact .of_verdict_cast hv rfl
  | collapseRemoved l s m t y hv hu => exact .of_fitsBare (unwraps_iff.1 hu).2.2

theorem Expr.fits_reconcile (r : Rules) (sc : Scope) {d : Demand} {required : Ty} {forced : Bool} (e : Expr)
    (hd : r.facts.required? d = some (required, forced)) :
    r.facts.Fits sc.bounds required (e.reconcile r sc (some d)) := by
  rw [reconcile_some]
  have hwalk := (r.settle sc.bounds d e).walk_alike r sc
  exact (r.fits_settle e hd).congr hwalk.ty hwalk.isNull

/-- A slot of a reconciled unit has been settled. -/
theorem Rules.fits_of_slot_mem (r : Rules) (u : CompilationUnit) {sc : Scope} {d : Demand} {e : Expr} {required : Ty}
    {forced : Bool} (hslot : .slot sc d e ∈ (u.reconcile r).visits r.anonymous)
    (hd : r.facts.required? d = some (required, forced)) : r.facts.Fits sc.bounds required e := by
  obtain ⟨e₀, -, rfl⟩ := (u.revisit r).slot_mem hslot
  exact e₀.fits_reconcile r sc hd

/-- **Every slot fits after a run.**  The slots are those of the tree that the run hands over: initializers and
elements in braces, returned values, arguments, right sides of `=`, branches of conditionals, qualifiers of fields
whose class is known. -/
theorem CastPass.run_slots_fit (p : CastPass) (u u' : CompilationUnit) (report : CastReport)
    (hrun : (p.run u).result = .ok (report, u')) (sc : Scope) (d : Demand) (e : Expr)
    (hslot : .slot sc d e ∈ u'.visits p.rules.settings.anonymousClassBodies) (required : Ty) (forced : Bool)
    (hd : p.rules.facts.required? d = some (required, forced)) : p.rules.facts.Fits sc.bounds required e := by
  obtain ⟨-, rfl⟩ := run_ok hrun
  exact p.rules.fits_of_slot_mem u hslot hd

theorem CastPass.run_slots_fit_readBack :
    ((CastPass.ofFacts Hierarchy.empty.facts).run (.readBack (.localVar 3 .root "value"))).result =
        .ok ({ inserted := 1 }, .readBack (.cast 3 (.ofVar "T") (.localVar 3 .root "value"))) ∧
      Hierarchy.empty.facts.Fits .empty (.ofVar "T") (.cast 3 (.ofVar "T") (.localVar 3 .root "value")) := by
  have hslot : (CompilationUnit.readBack (.cast 3 (.ofVar "T") (.localVar 3 .root "value"))).visits true =
      [.slot ⟨.empty, some (.ofVar "T"), none⟩ (.fit (.ofVar "T") false)
          (.conditional 3 (.ofVar "T") (.localVar 3 (.ofPrimitive .boolean) "flag")
            (.cast 3 (.ofVar "T") (.localVar 3 .root "value")) (.null 4)),
        .slot ⟨.empty, some (.ofVar "T"), none⟩ (.fit (.ofVar "T") false)
          (.cast 3 (.ofVar "T") (.localVar 3 .root "value")),
        .slot ⟨.empty, some (.ofVar "T"), none⟩ (.fit (.ofVar "T") false) (.null 4)] := by
    with_unfolding_all rfl
  refine ⟨run_readBack, ?_⟩
  exact run_slots_fit _ _ _ _ run_readBack ⟨.empty, some (.ofVar "T"), none⟩ (.fit (.ofVar "T") false) _
    (hslot ▸ List.mem_cons_of_mem _ List.mem_cons_self) (.ofVar "T") false rfl

/-- **Each of the six kinds of value fits after a run**, in whatever place that the run comes by. -/
theorem CastPass.run_kinds_fit (p : CastPass) (u u' : CompilationUnit) (report : CastReport)
    (hrun : (p.run u).result = .ok (report, u')) (place : Place)
    (hplace : u'.Visited p.rules.settings.anonymousClassBodies place) (sc : Scope) (required : Ty) (e : Expr)
    (hslot : Slot p.rules.facts place sc required e) : p.rules.facts.Fits sc.bounds required e := by
  obtain ⟨-, rfl⟩ := run_ok hrun
  obtain ⟨d, forced, hd, hmem⟩ := hplace.slot_mem hslot
  exact p.rules.fits_of_slot_mem u hmem hd

/-- In `return flag ? (T) value : null` both branches are slots. -/
theorem CastPass.run_kinds_fit_readBack :
    Hierarchy.empty.facts.Fits .empty (.ofVar "T") (.cast 3 (.ofVar "T") (.localVar 3 .root "value")) ∧
      Hierarchy.empty.facts.Fits .empty (.ofVar "T") (.null 4) := by
  have hbody : (CompilationUnit.readBack (.cast 3 (.ofVar "T") (.localVar 3 .root "value"))).Visited true
      (.body (.readBack (.cast 3 (.ofVar "T") (.localVar 3 .root "value")))) :=
    .type List.mem_cons_self rfl
  have hreturn := CompilationUnit.Visited.method hbody List.mem_cons_self rfl List.mem_cons_self
  have hfits := run_kinds_fit _ _ _ _ run_readBack _ (.head hreturn List.mem_cons_self)
  exact ⟨hfits _ _ _ .whenTrue, hfits _ _ _ .whenFalse⟩

end Recast
