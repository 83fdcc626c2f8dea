import Recast.Proofs.Plain
import Recast.Proofs.Run
/-!
# Delivered trees — what a decompiler hands to a run

In a tree as it is delivered no cast stands right over another, every `null` has the root as its type, and no type
gives arguments to the root.  `Expr.Delivered` says this of one position, `CompilationUnit.Delivered` of all the
positions and declared types of a unit.

A run meets nothing else: the slots of a delivered unit hold delivered expressions, and none of them asks for the root
with arguments (`CompilationUnit.delivers`).
-/
namespace Recast

namespace Expr

/-- **What a decompiler puts in a position.** -/
structure Delivered (e : Expr) : Prop where
  casts : e.castDepth ≤ 1
  null : e.core.isNull = true → e.core.ty = .root
  types : ∀ t ∈ e.ownTypes, t.parameterizesRoot = false

namespace Delivered

variable {e x : Expr} {l : UInt32} {t : Ty}

theorem of_not_cast (hc : e.isCast = false) (hn : e.isNull = true → e.ty = .root)
    (ht : e.ty.parameterizesRoot = false) : e.Delivered where
  casts := by
    rw [castDepth_of_not_cast hc]
    exact Nat.zero_le 1
  null := by rwa [core_of_not_cast hc]
  types := plain_of_not_cast hc ht

theorem operand (h : Delivered ⟨l, t, .cast x⟩) : x.Delivered where
  casts := Nat.le_trans (Nat.le_succ _) h.casts
  null := h.null
  types := Plain.operand h.types

/-- No cast stands right over another. -/
theorem operand_isCast (h : Delivered ⟨l, t, .cast x⟩) : x.isCast = false := by
  cases hc : x.isCast with
  | false => rfl
  | true =>
    obtain ⟨m, s, y, rfl⟩ := exists_of_isCast hc
    exact absurd h.casts (by simp [castDepth])

end Delivered

end Expr

def Part.Delivered : Part → Prop
  | position e => e.Delivered
  | declared t => t.parameterizesRoot = false

/-- **A unit as a decompiler delivers it.**  Of types that no expression is ever compared with, as those of a `catch`
or of an `instanceof`, nothing is asked. -/
def CompilationUnit.Delivered (u : CompilationUnit) : Prop := ∀ p ∈ u.parts, p.Delivered

def Visit.Delivered : Visit → Prop
  | slot _ d e => d.Plain ∧ e.Delivered
  | call _ => True
  | skip _ => True

theorem Part.Delivered.plain {p : Part} (h : p.Delivered) : p.Plain := by
  cases p with
  | position e => exact Expr.Delivered.types h
  | declared t => exact h

/-- **A run over a delivered unit meets delivered slots.** -/
theorem CompilationUnit.delivers (a : Bool) (u : CompilationUnit) (hu : u.Delivered) :
    ∀ v ∈ u.visits a, v.Delivered
  | .call _, _ => trivial
  | .skip _, _ => trivial
  | .slot sc d e, hv => by
    -- where a slot stands does not depend on the facts
    have haccounts := (u.traces ⟨Hierarchy.empty.facts, { anonymousClassBodies := a }⟩).accounts
    exact ⟨u.plainVisits a (fun p hp => (hu p hp).plain) _ hv, hu _ (haccounts.position_mem hv)⟩

theorem CompilationUnit.delivered_readBack : (readBack (.localVar 3 .root "value")).Delivered := by
  have hparts : (readBack (.localVar 3 .root "value")).parts =
      [.declared (.ofVar "T"),
        .position (.conditional 3 (.ofVar "T") (.localVar 3 (.ofPrimitive .boolean) "flag")
          (.localVar 3 .root "value") (.null 4)),
        .position (.localVar 3 (.ofPrimitive .boolean) "flag"),
        .position (.localVar 3 .root "value"),
        .position (.null 4)] := by
    with_unfolding_all rfl
  unfold Delivered
  rw [hparts]
  simp only [List.forall_mem_cons, List.not_mem_nil, false_imp_iff, implies_true, and_true]
  exact ⟨rfl, .of_not_cast rfl nofun rfl, .of_not_cast rfl nofun rfl, .of_not_cast rfl nofun rfl,
    .of_not_cast rfl (fun _ => rfl) rfl⟩

end Recast
