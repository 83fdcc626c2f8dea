import Recast.Hierarchy.Supertypes
import Recast.Ty.Containment
/-!
# Assignability — where a value of one class type may be used as another

The root takes everything, arrays included, and an array of the root takes arrays of more
dimensions; no other target crosses dimensions.  Between equal dimensions the target's class has to
be found above the source's, and where both sides have type arguments these have to fit.  A raw type
on either side is an unchecked conversion and passes.
-/
namespace Recast

/-- Arguments of a target against those of the use found above the source; raw fits all. -/
def rawOrFit (b : TypeBounds) : Option (List TypeArgument) → Option (List TypeArgument) → Bool
  | some ts, some ss => argumentsFit b ts ss
  | _, _ => true

def Hierarchy.assignable (h : Hierarchy) (b : TypeBounds) (target source : ClassType) : Bool :=
  if target.isRoot then true
  else if target.dimension ≠ source.dimension then
    decide (target.dimension < source.dimension) && target.name == ClassType.rootName && target.isRaw
  else if target.name = ClassType.rootName then target.isRaw
  else match h.supertype? (source.withDimension 0) target.name with
    | some found => rawOrFit b target.arguments found.arguments
    | none => false

/-- Without type arguments the root takes every source of at least its dimensions, with type arguments nothing; any other
class has to be found above a source of its own dimension. -/
theorem Hierarchy.assignable_iff (h : Hierarchy) (b : TypeBounds) (target source : ClassType) :
    h.assignable b target source = true ↔
      (target.name = ClassType.rootName ∧ target.isRaw = true ∧ target.dimension ≤ source.dimension) ∨
      (target.name ≠ ClassType.rootName ∧ target.dimension = source.dimension ∧
        ∃ found, h.supertype? (source.withDimension 0) target.name = some found ∧
          rawOrFit b target.arguments found.arguments = true) := by
  unfold assignable
  by_cases hroot : target.isRoot = true
  · obtain rfl := target.isRoot_iff.1 hroot
    exact iff_of_true rfl (.inl ⟨rfl, rfl, UInt32.zero_le⟩)
  rw [if_neg hroot]
  by_cases hdim : target.dimension = source.dimension
  · rw [if_neg (fun hne => hne hdim)]
    by_cases hname : target.name = ClassType.rootName
    · simp [hname, hdim]
    · rw [if_neg hname]
      cases h.supertype? (source.withDimension 0) target.name <;> simp [hname, hdim]
  · rw [if_pos hdim, Bool.and_eq_true, Bool.and_eq_true, decide_eq_true_iff, beq_iff_eq]
    constructor
    · rintro ⟨⟨hlt, hname⟩, hraw⟩
      exact .inl ⟨hname, hraw, UInt32.le_of_lt hlt⟩
    · rintro (⟨hname, hraw, hle⟩ | ⟨-, heq, -⟩)
      · exact ⟨⟨UInt32.lt_of_le_of_ne hle hdim, hname⟩, hraw⟩
      · exact absurd heq hdim

end Recast
