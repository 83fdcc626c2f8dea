import Recast.Cast.Reconcile
import Recast.Proofs.Plan
/-!
# Walks — reconciling the parts of an expression and leaving the node

Without a demand `Expr.reconcile` only walks: the node keeps its line, its type and its kind.  With one it walks and
then edits, and since an edit touches nothing below the casts at the top, it may as well edit first and walk what
came of it (`reconcile_some`).  So a slot is settled by its own edits alone, and the walk behind them neither makes
nor undoes a reason to edit again.
-/
namespace Recast

namespace Expr

/-- The expression under all the casts at the top. -/
def core : Expr → Expr
  | ⟨_, _, .cast x⟩ => x.core
  | e => e

/-- Number of casts at the top. -/
def castDepth : Expr → Nat
  | ⟨_, _, .cast x⟩ => x.castDepth + 1
  | _ => 0

theorem core_of_not_cast {e : Expr} (h : e.isCast = false) : e.core = e := by
  obtain ⟨l, t, k⟩ := e
  cases k <;> simp_all [isCast, core]

theorem castDepth_of_not_cast {e : Expr} (h : e.isCast = false) : e.castDepth = 0 := by
  obtain ⟨l, t, k⟩ := e
  cases k <;> simp_all [isCast, castDepth]

/-- **Two nodes alike**: one line, one type, one kind; what stands below may differ. -/
structure Alike (e e' : Expr) : Prop where
  line : e'.line = e.line
  ty : e'.ty = e.ty
  isNull : e'.isNull = e.isNull
  isCast : e'.isCast = e.isCast
  isNew : e'.isNew = e.isNew
  isTypeName : e'.isTypeName = e.isTypeName
  isFilledArray : e'.isFilledArray = e.isFilledArray
  isExplicitCall : e'.isExplicitCall = e.isExplicitCall

variable (r : Rules) (sc : Scope)

/-- **A walk leaves the node in place.** -/
theorem walk_alike (e : Expr) : e.Alike (e.reconcile r sc none) := by
  obtain ⟨l, t, k⟩ := e
  cases k with
  | field q m => cases q <;> constructor <;> rfl
  | call q m ts as ps => cases ts <;> constructor <;> rfl
  | new desc as ps b => cases b <;> constructor <;> rfl
  | lambda ps b => cases b <;> constructor <;> rfl
  | _ => constructor <;> rfl

theorem walk_cast (l : UInt32) (t : Ty) (x : Expr) :
    Expr.reconcile r sc none ⟨l, t, .cast x⟩ = ⟨l, t, .cast (x.reconcile r sc none)⟩ := rfl

/-- An object creation is walked in one way whatever type it has. -/
theorem walk_withTy {e : Expr} (h : e.isNew = true) (t : Ty) :
    Expr.reconcile r sc none { e with ty := t } = { e.reconcile r sc none with ty := t } := by
  obtain ⟨l, s, k⟩ := e
  cases k with
  | new desc as ps b => cases b <;> rfl
  | _ => cases h

theorem castDepth_walk : ∀ e : Expr, (e.reconcile r sc none).castDepth = e.castDepth
  | ⟨l, t, k⟩ => by
    cases k with
    | cast x => exact congrArg (· + 1) (castDepth_walk x)
    | field q m => cases q <;> rfl
    | new desc as ps b => cases b <;> rfl
    | lambda ps b => cases b <;> rfl
    | _ => rfl

theorem core_walk : ∀ e : Expr, (e.reconcile r sc none).core = e.core.reconcile r sc none
  | ⟨l, t, k⟩ => by
    cases k with
    | cast x => exact core_walk x
    | field q m => cases q <;> rfl
    | new desc as ps b => cases b <;> rfl
    | lambda ps b => cases b <;> rfl
    | _ => rfl

/-- Reconciling is walking and then editing, with the edits planned on the expression as it was. -/
theorem reconcile_eq_applyAll (d : Option Demand) (e : Expr) :
    e.reconcile r sc d = Edit.applyAll (r.editsAt sc.bounds d e) (e.reconcile r sc none) := by
  obtain ⟨l, t, k⟩ := e
  rfl

end Expr

namespace Edit

variable (r : Rules) (sc : Scope)

/-- A plan for an expression is one for the walked expression. -/
theorem Planned.walk {e : Expr} {es : List Edit} (h : Planned e es) : Planned (e.reconcile r sc none) es := by
  cases h with
  | keep => exact .keep _
  | insert line t hc => exact .insert line t ((e.walk_alike r sc).isCast.trans hc)
  | erase line t hw => exact .erase line t ((e.walk_alike r sc).isNew.trans hw)
  | retarget l s x t ht =>
    rw [Expr.walk_cast]
    exact .retarget l s _ t ht
  | collapse l s x =>
    rw [Expr.walk_cast, ← (x.walk_alike r sc).ty]
    exact .collapse l s _
  | remove l s x =>
    rw [Expr.walk_cast]
    exact .remove l s _
  | retargetRemove l s x t =>
    rw [Expr.walk_cast]
    exact .retargetRemove l s _ t
  | collapseRemove l s m t y =>
    rw [Expr.walk_cast, Expr.walk_cast]
    exact .collapseRemove l s m t _

/-- **Walking and editing in either order.** -/
theorem Planned.applyAll_walk {e : Expr} {es : List Edit} (h : Planned e es) :
    applyAll es (e.reconcile r sc none) = (applyAll es e).reconcile r sc none := by
  cases h with
  | erase line t hw =>
    simp only [applyAll, List.foldl_cons, List.foldl_nil, apply, Expr.cast, Expr.walk_cast,
      Expr.walk_withTy r sc hw, (e.walk_alike r sc).ty]
  | _ => rfl

/-- An edit of the type alone leaves the kind of node. -/
theorem isCast_erase (e : Expr) : (erase.apply e).isCast = e.isCast := by
  obtain ⟨l, t, k⟩ := e
  cases k <;> rfl

/-- Whatever edits a slot gets, its expression is afterwards of another type or under another number of casts. -/
theorem Planned.changes {e : Expr} {es : List Edit} (h : Planned e es) (hne : es ≠ []) :
    (applyAll es e).castDepth ≠ e.castDepth ∨ (applyAll es e).ty ≠ e.ty := by
  cases h with
  | keep => exact absurd rfl hne
  | insert line t hc =>
    refine .inl ?_
    rw [Expr.castDepth_of_not_cast hc]
    exact Nat.succ_ne_zero _
  | erase line t hw =>
    refine .inl ?_
    rw [Expr.castDepth_of_not_cast (Expr.isCast_of_isNew hw)]
    exact Nat.succ_ne_zero _
  | retarget l s x t ht => exact .inr ht
  | collapse l s x => exact .inl (Nat.ne_of_lt (Nat.lt_succ_self _))
  | remove l s x => exact .inl (Nat.ne_of_lt (Nat.lt_succ_self _))
  | retargetRemove l s x t => exact .inl (Nat.ne_of_lt (Nat.lt_succ_self _))
  | collapseRemove l s m t y => exact .inl (Nat.ne_of_lt (Nat.lt_succ_of_lt (Nat.lt_succ_self _)))

end Edit

namespace Rules

/-- What the edits of a slot make of its expression. -/
def settle (r : Rules) (b : TypeBounds) (d : Demand) (e : Expr) : Expr := Edit.applyAll (r.edits b d e) e

end Rules

variable (r : Rules) (sc : Scope)

/-- **A slot is settled first and walked afterwards.** -/
theorem Expr.reconcile_some (d : Demand) (e : Expr) :
    e.reconcile r sc (some d) = (r.settle sc.bounds d e).reconcile r sc none := by
  rw [reconcile_eq_applyAll]
  exact (r.planned sc.bounds d e).applyAll_walk r sc

end Recast
