import Recast.Proofs.Erasure
import Recast.Proofs.HandsUp
import Recast.Proofs.Run
import Recast.Proofs.Walk
/-!
# Raw fallback — casting a value whose type arguments disagree

Where the class that a slot asks for stands above a value's class, but with arguments that do not fit, the value is
not assignable and gets a cast.  A cast to the required type does not compile then, one to its raw form does.

The arguments that disagree are those that the search finds at the required class.  What decides between the two casts
are those of the value's own type (`CastPass.reconcile_falls_back`).  The two are the same, and the cast is raw, where
every class from the value's up hands its arguments up.  Where a class fixes, drops or permutes them, the cast may be
to the required type all the same (`CastPass.exists_reconcile_keeps_arguments`).
-/
namespace Recast

theorem ClassType.isRoot_of_name_ne {c : ClassType} (h : c.name ≠ rootName) : c.isRoot = false :=
  Bool.eq_false_iff.2 fun hr => h (congrArg name (c.isRoot_iff.1 hr))

namespace Hierarchy

variable {h : Hierarchy} {b : TypeBounds} {target source found : ClassType}

/-- Where the class is found and the dimensions agree, the arguments decide. -/
theorem assignable_of_found (source : ClassType) (hname : target.name ≠ ClassType.rootName)
    (hdim : target.dimension = source.dimension)
    (hfound : h.supertype? (source.withDimension 0) target.name = some found) :
    h.assignable b target source = rawOrFit b target.arguments found.arguments := by
  unfold assignable
  rw [if_neg (Bool.eq_false_iff.1 (ClassType.isRoot_of_name_ne hname)), if_neg (not_not.2 hdim), if_neg hname, hfound]

/-- The target of a cast: raw where the arguments of the source itself do not fit. -/
theorem castTarget_facts (h : Hierarchy) (b : TypeBounds) (target source : ClassType) :
    h.facts.castTarget b target source =
      if rawOrFit b target.arguments source.arguments = true then target else target.raw := by
  unfold TypeFacts.castTarget
  cases target.arguments with
  | none => rfl
  | some ts =>
    cases source.arguments with
    | none => rfl
    | some ss => rfl

/-- A class that is not assignable gets a cast. -/
theorem verdict_of_unfit {e : Expr} (hname : target.name ≠ ClassType.rootName) (hty : e.ty = .object source)
    (hunfit : h.assignable b target source = false) :
    h.facts.verdict b false (.object target) e =
      .cast (.object (if rawOrFit b target.arguments source.arguments = true then target else target.raw)) := by
  have hne : source ≠ target := by
    rintro rfl
    rw [h.assignable_self b (.inl hname)] at hunfit
    cases hunfit
  have hkeep : ¬ (e.ty = .object target ∨ (Ty.object target).isRoot = true) := by
    rintro (heq | hroot)
    · exact hne (Ty.object.inj (hty.symm.trans heq))
    · exact Bool.eq_false_iff.1 (ClassType.isRoot_of_name_ne hname) hroot
  have hunfit : h.facts.assignable b target source = false := hunfit
  unfold TypeFacts.verdict
  rw [if_neg hkeep, hty]
  simp only [TypeFacts.classVerdict, Bool.false_eq_true, false_and, if_false, hunfit, castTarget_facts]

end Hierarchy

/-- What a slot of a single call makes of an expression that gets a new cast. -/
theorem Expr.reconcile_of_cast {r : Rules} {b : TypeBounds} {required t : Ty} {e : Expr} (hn : e.isNull = false)
    (hc : e.isCast = false) (hv : r.facts.verdict b false required e = .cast t) :
    e.reconcile r (.ofBounds b) (some (.fit required false)) =
      .cast e.firstLine t (e.reconcile r (.ofBounds b) none) := by
  have hedits : r.edits (Scope.ofBounds b).bounds (.fit required false) e = [.insert e.firstLine t] :=
    r.fitEdits_eq_insert b required false hn hc hv
  rw [reconcile_some, Rules.settle, hedits]
  rfl

/-! ## Maps and strings -/

/-- `Map<K, V>` by the names of `K` and `V`. -/
def Platform.mapOf (key value : String) : ClassType :=
  ⟨"java/util/Map", some [.exact (.ofClass key), .exact (.ofClass value)], 0⟩

def Platform.hashMapOf (key value : String) : ClassType :=
  ⟨"java/util/HashMap", some [.exact (.ofClass key), .exact (.ofClass value)], 0⟩

namespace Hierarchy

theorem supertype?_hashMapOf (key value : String) :
    platform.supertype? (Platform.hashMapOf key value) "java/util/Map" = some (Platform.mapOf key value) := by
  have hne : "java/util/HashMap" ≠ "java/util/Map" := by decide
  calc platform.supertype? (Platform.hashMapOf key value) "java/util/Map"
      = platform.search "java/util/Map" ["java/util/HashMap"] [.root, Platform.mapOf key value] :=
        Turn.search_eq (.enter [] (by simp)) hne
    _ = platform.search "java/util/Map" [ClassType.rootName, "java/util/HashMap"] [Platform.mapOf key value] :=
        Turn.search_eq (.enter _ (by decide)) (by decide)
    _ = some (Platform.mapOf key value) := platform.search_found _ (Platform.mapOf key value) []

/-- A string is comparable to strings. -/
theorem supertype?_string :
    platform.supertype? .string "java/lang/Comparable" = some (Platform.comparableTo ClassType.stringName) := by
  calc platform.supertype? .string "java/lang/Comparable"
      = platform.search "java/lang/Comparable" [ClassType.stringName]
          [.root, .ofName "java/lang/CharSequence", Platform.comparableTo ClassType.stringName] :=
        Turn.search_eq (.enter [] (by simp)) (by decide)
    _ = platform.search "java/lang/Comparable" [ClassType.rootName, ClassType.stringName]
          [.ofName "java/lang/CharSequence", Platform.comparableTo ClassType.stringName] :=
        Turn.search_eq (.enter _ (by decide)) (by decide)
    _ = platform.search "java/lang/Comparable" ["java/lang/CharSequence", ClassType.rootName, ClassType.stringName]
          [Platform.comparableTo ClassType.stringName, .root] :=
        Turn.search_eq (.enter _ (by decide)) (by decide)
    _ = some (Platform.comparableTo ClassType.stringName) := platform.search_found _ (Platform.comparableTo _) _

/-- An argument that names one class does not fit another. -/
theorem rawOrFit_exact {n m : String} (h : n ≠ m) (ts ss : List TypeArgument) :
    rawOrFit .empty (some (.exact (.ofClass n) :: ts)) (some (.exact (.ofClass m) :: ss)) = false := by
  simp [rawOrFit, argumentsFit, containsAll, TypeArgument.contains, Ty.ofClass, Ty.accepts, ClassType.accepts,
    ClassType.ofName, h]

end Hierarchy

/-- **The cast of a value below the required class whose arguments there do not fit.**  It is to the required type or to
its raw form, and the arguments of the value's own type decide.  Where they are those that are found it is raw, and they
are where every class from the value's up hands its arguments up. -/
theorem CastPass.reconcile_falls_back (h : Hierarchy) (settings : Settings) (before : CastReport) (b : TypeBounds)
    (target source found : ClassType) (e e' : Expr) (hname : target.name ≠ ClassType.rootName)
    (hdim : target.dimension = source.dimension)
    (hfound : h.supertype? (source.withDimension 0) target.name = some found)
    (hunfit : h.assignable b target source = false)
    (hty : e.ty = .object source) (hnull : e.isNull = false) (hcast : e.isCast = false)
    (hok : ((CastPass.mk ⟨h.facts, settings⟩ before).reconcile b (.object target) e false).result = .ok e') :
    rawOrFit b target.arguments found.arguments = false ∧
    e' = .cast e.firstLine
      (.object (if rawOrFit b target.arguments source.arguments = true then target else target.raw))
      (e.reconcile ⟨h.facts, settings⟩ (.ofBounds b) none) ∧
    (found.arguments = source.arguments →
      e' = .cast e.firstLine (.object target.raw) (e.reconcile ⟨h.facts, settings⟩ (.ofBounds b) none)) ∧
    (h.HandsUp source.name → found.arguments = source.arguments) := by
  have hdisagree : rawOrFit b target.arguments found.arguments = false :=
    (Hierarchy.assignable_of_found source hname hdim hfound).symm.trans hunfit
  obtain ⟨-, rfl⟩ := single_ok_iff.1 hok
  rw [Expr.reconcile_of_cast hnull hcast (Hierarchy.verdict_of_unfit hname hty hunfit)]
  refine ⟨hdisagree, rfl, fun hsame => ?_, fun hup => ?_⟩
  · rw [← hsame, hdisagree]
    rfl
  · have hfrom : h.HandsUp (source.withDimension 0).name := hup
    refine (hfrom.arguments_supertype? hfound).resolve_left fun hnone => ?_
    -- nothing disagrees with a raw supertype
    rw [hnone, rawOrFit_none] at hdisagree
    cases hdisagree

/-- A `HashMap<String, Integer>` where a `Map<Integer, String>` is asked for is cast to `Map`. -/
theorem CastPass.reconcile_falls_back_map :
    Hierarchy.platform.assignable .empty (Platform.mapOf "java/lang/Integer" ClassType.stringName)
      (Platform.hashMapOf ClassType.stringName "java/lang/Integer") = false ∧
    ((CastPass.ofFacts Hierarchy.platform.facts).reconcile .empty
      (.object (Platform.mapOf "java/lang/Integer" ClassType.stringName))
      (.localVar 9 (.object (Platform.hashMapOf ClassType.stringName "java/lang/Integer")) "counts") false).result =
        .ok (.cast 9 (.ofClass "java/util/Map")
          (.localVar 9 (.object (Platform.hashMapOf ClassType.stringName "java/lang/Integer")) "counts")) := by
  have hname : (Platform.mapOf "java/lang/Integer" ClassType.stringName).name ≠ ClassType.rootName := by decide
  have hfound := Hierarchy.supertype?_hashMapOf ClassType.stringName "java/lang/Integer"
  have hunfit : Hierarchy.platform.assignable .empty (Platform.mapOf "java/lang/Integer" ClassType.stringName)
      (Platform.hashMapOf ClassType.stringName "java/lang/Integer") = false :=
    (Hierarchy.assignable_of_found (Platform.hashMapOf _ _) hname rfl hfound).trans
      (Hierarchy.rawOrFit_exact (by decide) _ _)
  have hok : ((CastPass.ofFacts Hierarchy.platform.facts).reconcile .empty
      (.object (Platform.mapOf "java/lang/Integer" ClassType.stringName))
      (.localVar 9 (.object (Platform.hashMapOf ClassType.stringName "java/lang/Integer")) "counts") false).result =
        .ok _ :=
    single_ok_iff.2 ⟨rfl, rfl⟩
  obtain ⟨-, -, hraw, hsame⟩ :=
    reconcile_falls_back _ _ _ _ _ (Platform.hashMapOf _ _) _ _ _ hname rfl hfound hunfit rfl rfl rfl hok
  exact ⟨hunfit, hok.trans (congrArg Except.ok (hraw (hsame Hierarchy.handsUp_hashMap)))⟩

/-- **Arguments that a class does not hand up go unseen.**  `text` is cast to `Comparable<Integer>`, and a string is
comparable to strings alone. -/
theorem CastPass.exists_reconcile_keeps_arguments :
    ¬ ∀ (h : Hierarchy) (b : TypeBounds) (target source found : ClassType) (e e' : Expr),
      target.name ≠ ClassType.rootName → target.dimension = source.dimension →
      h.supertype? (source.withDimension 0) target.name = some found → h.assignable b target source = false →
      e.ty = .object source → e.isNull = false → e.isCast = false →
      ((CastPass.ofFacts h.facts).reconcile b (.object target) e false).result = .ok e' →
        ∃ l x, e' = .cast l (.object target.raw) x := by
  intro hall
  have hname : (Platform.comparableTo "java/lang/Integer").name ≠ ClassType.rootName := by decide
  have hunfit : Hierarchy.platform.assignable .empty (Platform.comparableTo "java/lang/Integer") .string = false :=
    (Hierarchy.assignable_of_found .string hname rfl Hierarchy.supertype?_string).trans
      (Hierarchy.rawOrFit_exact (by decide) _ _)
  have hcast : (Expr.localVar 2 (.object .string) "text").reconcile ⟨Hierarchy.platform.facts, {}⟩ (.ofBounds .empty)
      (some (.fit (.object (Platform.comparableTo "java/lang/Integer")) false)) =
        .cast 2 (.object (Platform.comparableTo "java/lang/Integer")) (.localVar 2 (.object .string) "text") :=
    Expr.reconcile_of_cast rfl rfl (Hierarchy.verdict_of_unfit hname rfl hunfit)
  obtain ⟨l, x, he⟩ := hall .platform .empty _ .string _ _ _ hname rfl Hierarchy.supertype?_string hunfit rfl rfl rfl
    (single_ok_iff.2 ⟨rfl, hcast.symm⟩)
  injection he with _ hraw
  cases hraw

end Recast
