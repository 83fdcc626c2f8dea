import Recast.Hierarchy.Platform
import Recast.Proofs.Reach
/-!
# Raw order — raw types by what takes what

Whether a raw type takes another is a matter of names and dimensions: the root takes whatever has at least its
dimensions, and any other class what has its dimensions and reaches it by name (`Hierarchy.takes_iff`).

Each raw type takes itself.  To take is transitive as well, as long as nothing stands above the root: what takes a
class above the root need not take what the root takes, and the root takes classes that are not registered and reach
nothing.
-/
namespace Recast

namespace Hierarchy

/-- **Nothing above the root**, which is not registered or registered without supertypes. -/
def RootOnTop (h : Hierarchy) : Prop :=
  ∀ c, h.find? ClassType.rootName = some c → c.superclass = none ∧ c.interfaces = []

/-- **What a raw type takes**, by names and dimensions. -/
inductive Takes (h : Hierarchy) (target source : ClassType) : Prop
  | root (hn : target.name = ClassType.rootName) (hd : target.dimension ≤ source.dimension)
  | above (hn : target.name ≠ ClassType.rootName) (hd : target.dimension = source.dimension)
    (hr : h.Reaches source.name target.name)

variable {h : Hierarchy} {x y z : ClassType}

theorem takes_iff (hx : x.isRaw = true) (b : TypeBounds) (y : ClassType) :
    h.assignable b x y = true ↔ h.Takes x y := by
  have hnone : x.arguments = none := Option.isNone_iff_eq_none.1 hx
  have hfound : (∃ found, h.supertype? (y.withDimension 0) x.name = some found ∧
      rawOrFit b x.arguments found.arguments = true) ↔ h.Reaches y.name x.name := by
    have hreach := isSome_supertype?_iff (h := h) (y.withDimension 0) x.name
    rw [Option.isSome_iff_exists] at hreach
    rw [hnone]
    exact (exists_congr fun found => and_iff_left rfl).trans hreach
  rw [assignable_iff, hfound]
  constructor
  · rintro (⟨hn, -, hd⟩ | ⟨hn, hd, hr⟩)
    · exact .root hn hd
    · exact .above hn hd hr
  · rintro (⟨hn, hd⟩ | ⟨hn, hd, hr⟩)
    · exact .inl ⟨hn, hx, hd⟩
    · exact .inr ⟨hn, hd, hr⟩

theorem Takes.refl (h : Hierarchy) (x : ClassType) : h.Takes x x := by
  by_cases hn : x.name = ClassType.rootName
  · exact .root hn (UInt32.le_refl _)
  · exact .above hn rfl .refl

/-- From the root there is no way to another class. -/
theorem RootOnTop.eq_of_reaches (htop : h.RootOnTop) {n : String} (hr : h.Reaches ClassType.rootName n) :
    n = ClassType.rootName := by
  induction hr with
  | refl => rfl
  | tail _ hstep ih =>
    subst ih
    cases hstep with
    | superclass hc hs =>
      rw [(htop _ hc).1] at hs
      cases hs
    | interface hc hi =>
      rw [(htop _ hc).2] at hi
      cases hi
    | root => rfl

/-- What takes the taker takes what is taken.  The root takes by dimensions alone, which only grow on the way; any other
class can have taken the one in the middle only if that is not the root. -/
theorem Takes.trans (htop : h.RootOnTop) (hxy : h.Takes x y) (hyz : h.Takes y z) : h.Takes x z := by
  cases hxy with
  | root hx hd =>
    cases hyz with
    | root _ hd' => exact .root hx (UInt32.le_trans hd hd')
    | above _ hd' => exact .root hx (hd' ▸ hd)
  | above hx hd hr =>
    cases hyz with
    | root hy _ =>
      rw [hy] at hr
      exact absurd (htop.eq_of_reaches hr) hx
    | above _ hd' hr' => exact .above hx (hd.trans hd') (hr'.trans hr)

/-- **To take is a preorder on raw types** of all dimensions, where nothing stands above the root: for classes that are
registered and for others, on cycles and off them. -/
theorem raw_assignable_preorder (h : Hierarchy) (htop : h.RootOnTop) (b : TypeBounds) :
    (∀ x : ClassType, x.isRaw = true → h.assignable b x x = true) ∧
    ∀ x y z : ClassType, x.isRaw = true → y.isRaw = true → z.isRaw = true →
      h.assignable b x y = true → h.assignable b y z = true → h.assignable b x z = true := by
  refine ⟨fun x hx => (takes_iff hx b x).2 (.refl h x), fun x y z hx hy _ hxy hyz => ?_⟩
  rw [takes_iff hx] at hxy ⊢
  rw [takes_iff hy] at hyz
  exact hxy.trans htop hyz

theorem rootOnTop_platform : platform.RootOnTop := by
  intro c hc
  have hroot : platform.find? ClassType.rootName = some Platform.object := rfl
  rw [hroot] at hc
  cases hc
  exact ⟨rfl, rfl⟩

/-- `Object[]` takes `Number[][]` and that takes `Integer[][]`; a class that is not registered takes itself. -/
theorem raw_assignable_preorder_platform :
    platform.RootOnTop ∧ platform.assignable .empty (.ofName "Opaque") (.ofName "Opaque") = true ∧
    platform.assignable .empty ⟨ClassType.rootName, none, 1⟩ ⟨"java/lang/Number", none, 2⟩ = true ∧
    platform.assignable .empty ⟨"java/lang/Number", none, 2⟩ ⟨"java/lang/Integer", none, 2⟩ = true ∧
    platform.assignable .empty ⟨ClassType.rootName, none, 1⟩ ⟨"java/lang/Integer", none, 2⟩ = true := by
  obtain ⟨hrefl, htrans⟩ := raw_assignable_preorder platform rootOnTop_platform .empty
  have hnumber : platform.assignable .empty ⟨ClassType.rootName, none, 1⟩ ⟨"java/lang/Number", none, 2⟩ = true :=
    (takes_iff rfl .empty _).2 (.root rfl (by decide))
  have hextends : platform.Extends "java/lang/Integer" "java/lang/Number" :=
    extends_iff.2 ⟨Platform.integer, rfl, by decide⟩
  have hinteger : platform.assignable .empty ⟨"java/lang/Number", none, 2⟩ ⟨"java/lang/Integer", none, 2⟩ = true :=
    (takes_iff rfl .empty _).2 (.above (by decide) rfl (.single hextends))
  exact ⟨rootOnTop_platform, hrefl _ rfl, hnumber, hinteger, htrans _ _ _ rfl rfl rfl hnumber hinteger⟩

end Hierarchy

end Recast
