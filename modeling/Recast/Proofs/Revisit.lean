import Recast.Proofs.Trace
/-!
# Revisits — where a second run would come by

The visits of a reconciled tree are visits of the tree itself, in the same order: the same call sites and the same
skipped members, and slots with the same scope and demand that hold what their edits have made of the expression
(`Visit.settled`).  Some slots may be gone, with a cast that stood in them; none is new (`CompilationUnit.revisit`).
-/
namespace Recast

/-- **The later visits are among the earlier ones settled**, in their order. -/
def Rules.Revisits (r : Rules) (vs vs' : List Visit) : Prop := List.Sublist vs' (vs.map (Visit.settled r))

theorem Rules.Retraces.revisits {r : Rules} {vs vs' : List Visit} (h : r.Retraces vs vs') : r.Revisits vs vs' := by
  unfold Revisits
  induction h with
  | nil => exact List.Sublist.slnil
  | again v _ ih => exact List.Sublist.cons_cons _ ih
  | gone sc d hc _ ih => exact List.Sublist.cons _ ih

namespace Rules.Revisits

variable {r : Rules} {vs vs' : List Visit}

/-- Where a slot has come from. -/
theorem slot_mem (h : r.Revisits vs vs') {sc : Scope} {d : Demand} {e : Expr} (hv : .slot sc d e ∈ vs') :
    ∃ e₀, .slot sc d e₀ ∈ vs ∧ e₀.reconcile r sc (some d) = e := by
  obtain ⟨v, hmem, hsettled⟩ := List.mem_map.1 (h.subset hv)
  cases v with
  | slot sc₀ d₀ e₀ =>
    injection hsettled with hsc hd he
    subst hsc hd
    exact ⟨e₀, hmem, he⟩
  | call s => cases hsettled
  | skip w => cases hsettled

theorem call_mem (h : r.Revisits vs vs') {s : CallSite} (hv : .call s ∈ vs') : .call s ∈ vs := by
  obtain ⟨v, hmem, hsettled⟩ := List.mem_map.1 (h.subset hv)
  cases v with
  | slot sc₀ d₀ e₀ => cases hsettled
  | call s => exact hsettled ▸ hmem
  | skip w => cases hsettled

end Rules.Revisits

/-- **The slots of a reconciled unit are slots of the unit**, settled. -/
theorem CompilationUnit.revisit (r : Rules) (u : CompilationUnit) :
    r.Revisits (u.visits r.anonymous) ((u.reconcile r).visits r.anonymous) := (u.traces r).retraces.revisits

end Recast
