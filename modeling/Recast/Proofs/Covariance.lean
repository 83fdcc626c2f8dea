import Recast.Proofs.RawFallback
/-!
# Covariance — arrays on both sides

Between arrays of as many dimensions the classes of the elements decide, with their type arguments, as they do without
the dimensions.  Where the dimensions differ only the raw root takes anything, and it asks for no more than that the
source has the greater number; its special case, the root itself, takes everything because nothing has fewer dimensions
than none.  So the answer looks at how the dimensions compare and at no dimension as such, and the same number more on
both sides leaves it as it is (`Hierarchy.arrays_covariant`).
-/
namespace Recast

namespace ClassType

/-- **An array of the type**: so many dimensions more. -/
def widen (c : ClassType) (k : UInt32) : ClassType := c.withDimension (c.dimension + k)

variable {c d : ClassType} {k : UInt32}

theorem toNat_dimension_widen (h : c.dimension.toNat + k.toNat < UInt32.size) :
    (c.widen k).dimension.toNat = c.dimension.toNat + k.toNat :=
  (UInt32.toNat_add c.dimension k).trans (Nat.mod_eq_of_lt h)

/-- Equal dimensions stay equal and different ones different. -/
theorem dimension_widen_inj : (c.widen k).dimension = (d.widen k).dimension ↔ c.dimension = d.dimension :=
  UInt32.add_left_inj k

/-- Where neither overflows, the smaller number of dimensions stays the smaller. -/
theorem dimension_widen_le (hc : c.dimension.toNat + k.toNat < UInt32.size)
    (hd : d.dimension.toNat + k.toNat < UInt32.size) :
    (c.widen k).dimension ≤ (d.widen k).dimension ↔ c.dimension ≤ d.dimension := by
  rw [UInt32.le_iff_toNat_le, UInt32.le_iff_toNat_le, toNat_dimension_widen hc, toNat_dimension_widen hd]
  exact Nat.add_le_add_iff_right

end ClassType

namespace Hierarchy

/-- **Arrays are covariant.**  A target takes a source exactly if an array of the one takes an array of the other with
the same number of dimensions added, for raw and parameterized types, for the root and for arrays of it, as long as
neither number of dimensions overflows. -/
theorem arrays_covariant (h : Hierarchy) (b : TypeBounds) (target source : ClassType) (k : UInt32)
    (ht : target.dimension.toNat + k.toNat < UInt32.size) (hs : source.dimension.toNat + k.toNat < UInt32.size) :
    h.assignable b (target.widen k) (source.widen k) = h.assignable b target source := by
  have hle := ClassType.dimension_widen_le ht hs
  have heq : (target.widen k).dimension = (source.widen k).dimension ↔ target.dimension = source.dimension :=
    ClassType.dimension_widen_inj
  -- name and arguments stay, and the search starts from the source without its dimensions
  have hname : (target.widen k).name = target.name := rfl
  have hargs : (target.widen k).arguments = target.arguments := rfl
  have hraw : (target.widen k).isRaw = target.isRaw := rfl
  have hflat : (source.widen k).withDimension 0 = source.withDimension 0 := rfl
  rw [Bool.eq_iff_iff, assignable_iff, assignable_iff, hle, heq, hname, hargs, hraw, hflat]

/-- `Object[]` takes `String[][]` and not `String`; a `Map` takes a `HashMap` with the same arguments and not one with
others.  So do arrays of them with three dimensions more. -/
theorem arrays_covariant_map :
    empty.assignable .empty (.widen ⟨ClassType.rootName, none, 1⟩ 3) (.widen ⟨ClassType.stringName, none, 2⟩ 3) = true ∧
    empty.assignable .empty (.widen ⟨ClassType.rootName, none, 1⟩ 3) (ClassType.string.widen 3) = false ∧
    platform.assignable .empty ((Platform.mapOf ClassType.stringName "java/lang/Long").widen 3)
      ((Platform.hashMapOf ClassType.stringName "java/lang/Long").widen 3) = true ∧
    platform.assignable .empty ((Platform.mapOf "java/lang/Long" ClassType.stringName).widen 3)
      ((Platform.hashMapOf ClassType.stringName "java/lang/Long").widen 3) = false := by
  have hmap (key value : String) : (Platform.mapOf key value).name ≠ ClassType.rootName := by
    change "java/util/Map" ≠ ClassType.rootName
    decide
  have hfound := supertype?_hashMapOf ClassType.stringName "java/lang/Long"
  have hsame : platform.assignable .empty (Platform.mapOf ClassType.stringName "java/lang/Long")
      (Platform.hashMapOf ClassType.stringName "java/lang/Long") = true :=
    (assignable_of_found (Platform.hashMapOf _ _) (hmap _ _) rfl hfound).trans (rawOrFit_self .empty _)
  have hother : platform.assignable .empty (Platform.mapOf "java/lang/Long" ClassType.stringName)
      (Platform.hashMapOf ClassType.stringName "java/lang/Long") = false :=
    (assignable_of_found (Platform.hashMapOf _ _) (hmap "java/lang/Long" _) rfl hfound).trans (rawOrFit_exact (by decide) _ _)
  refine ⟨?_, ?_, ?_, ?_⟩
  · rw [arrays_covariant empty .empty ⟨ClassType.rootName, none, 1⟩ ⟨ClassType.stringName, none, 2⟩ 3 (by decide)
      (by decide)]
    decide
  · rw [arrays_covariant empty .empty ⟨ClassType.rootName, none, 1⟩ .string 3 (by decide) (by decide)]
    decide
  · rw [arrays_covariant platform .empty (Platform.mapOf _ _) (Platform.hashMapOf _ _) 3 (by decide) (by decide)]
    exact hsame
  · rw [arrays_covariant platform .empty (Platform.mapOf _ _) (Platform.hashMapOf _ _) 3 (by decide) (by decide)]
    exact hother

end Hierarchy

end Recast
