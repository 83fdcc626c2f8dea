import Recast.Proofs.Session
/-!
# Array literals — the type that each element is for

An array literal is values in braces, in braces, as deep and as ragged as it is written.  What decides the type of an
element is the declared type and the number of braces around the element, and an array creation `new U[]{..}` among the
elements starts the count again from its own type.

`Init.elements` lists the elements of a literal with type and count.  A walk of the literal is the walks of its elements,
each for its own type, one after the other (`Init.visits_eq_elements`, `Init.reconcile_eq_mapElements`).  As the types
are all that the walk takes from around the elements, a literal after `=` and the same one in `new T{..}` are walked
alike.
-/
namespace Recast

/-- The type of what stands in so many braces of a literal for `t`: a dimension less for each, while there is one. -/
def Ty.inBraces (t : Ty) (depth : Nat) : Ty := t.withDimension (.ofNat (t.dimension.toNat - depth))

/-- **An element of a literal**: an expression, the type that the braces are counted from, and how many there are. -/
structure Element where
  base : Ty
  depth : Nat
  value : Expr

namespace Element

/-- The type that the element is for. -/
def required (x : Element) : Ty := x.base.inBraces x.depth

def demand (x : Element) : Demand := .fit x.required false

end Element

mutual

/-- **The elements of a literal**, those of the array creations in it included, from left to right. -/
def Init.elements (base : Ty) (depth : Nat) : Init → List Element
  | .expr ⟨_, u, .filledArray is⟩ => initElements u 1 is
  | .expr e => [⟨base, depth, e⟩]
  | .array is => initElements base (depth + 1) is

def initElements (base : Ty) (depth : Nat) : List Init → List Element
  | [] => []
  | i :: is => i.elements base depth ++ initElements base depth is

end

mutual

/-- The literal with other expressions for its elements; braces and array creations stay. -/
def Init.mapElements (f : Element → Expr) (base : Ty) (depth : Nat) : Init → Init
  | .expr ⟨l, u, .filledArray is⟩ => .expr ⟨l, u, .filledArray (mapInitElements f u 1 is)⟩
  | .expr e => .expr (f ⟨base, depth, e⟩)
  | .array is => .array (mapInitElements f base (depth + 1) is)

def mapInitElements (f : Element → Expr) (base : Ty) (depth : Nat) : List Init → List Init
  | [] => []
  | i :: is => i.mapElements f base depth :: mapInitElements f base depth is

end

namespace Ty

theorem withDimension_dimension (t : Ty) : t.withDimension t.dimension = t := by
  rcases t with _ | ⟨_, _, _⟩ | _ <;> rfl

theorem withDimension_withDimension (t : Ty) (d e : UInt32) : (t.withDimension d).withDimension e = t.withDimension e := by
  cases t <;> rfl

theorem inBraces_zero (t : Ty) : t.inBraces 0 = t := by
  rw [inBraces, Nat.sub_zero, UInt32.ofNat_toNat, withDimension_dimension]

theorem widen_zero (t : Ty) : t.widen 0 = t := by
  rw [widen, UInt32.add_zero, withDimension_dimension]

theorem toNat_dimension_inBraces (t : Ty) (n : Nat) : (t.inBraces n).dimension.toNat = t.dimension.toNat - n := by
  rw [inBraces, dimension_withDimension, UInt32.toNat_ofNat']
  exact Nat.mod_eq_of_lt (Nat.lt_of_le_of_lt (Nat.sub_le _ _) t.dimension.toNat_lt)

/-- One brace more is one dimension less. -/
theorem element_inBraces (t : Ty) (n : Nat) : (t.inBraces n).element = t.inBraces (n + 1) := by
  have hdim := t.toNat_dimension_inBraces n
  unfold element
  split
  · rename_i hpos
    have hone : 1 ≤ (t.inBraces n).dimension :=
      UInt32.le_iff_toNat_le.2 (Nat.succ_le_of_lt (UInt32.lt_iff_toNat_lt.1 hpos))
    have hsub : (t.inBraces n).dimension - 1 = (t.inBraces (n + 1)).dimension := by
      apply UInt32.toNat_inj.1
      rw [UInt32.toNat_sub_of_le _ _ hone, hdim, toNat_dimension_inBraces]
      exact Nat.sub_sub _ _ _
    rw [hsub, inBraces, inBraces, withDimension_withDimension, dimension_withDimension]
  · rename_i hpos
    -- no dimension is left to lose
    have hzero : t.dimension.toNat - n = 0 := by
      rw [← hdim]
      exact Nat.eq_zero_of_not_pos fun h => hpos (UInt32.lt_iff_toNat_lt.2 h)
    have hzero' : t.dimension.toNat - (n + 1) = 0 := by omega
    rw [inBraces, inBraces, hzero, hzero']

/-- The type of an element in a declaration, where the dimensions of type and name can be added. -/
theorem inBraces_widen {t : Ty} {k : UInt32} (h : t.dimension.toNat + k.toNat < UInt32.size) (n : Nat) :
    (t.widen k).inBraces n = t.withDimension (.ofNat (t.dimension.toNat + k.toNat - n)) := by
  have hsum : (t.widen k).dimension.toNat = t.dimension.toNat + k.toNat := by
    rw [widen, dimension_withDimension, UInt32.toNat_add]
    exact Nat.mod_eq_of_lt h
  rw [inBraces, hsum, widen, withDimension_withDimension]

end Ty

/-! ## Walking a literal -/

namespace Init

variable {e : Expr}

theorem elements_expr (base : Ty) (depth : Nat) (h : e.isFilledArray = false) :
    (Init.expr e).elements base depth = [⟨base, depth, e⟩] := by
  obtain ⟨l, t, k⟩ := e
  cases k with
  | filledArray is => cases h
  | _ => rfl

theorem mapElements_expr (f : Element → Expr) (base : Ty) (depth : Nat) (h : e.isFilledArray = false) :
    (Init.expr e).mapElements f base depth = .expr (f ⟨base, depth, e⟩) := by
  obtain ⟨l, t, k⟩ := e
  cases k with
  | filledArray is => cases h
  | _ => rfl

end Init

theorem Demand.ofInit_of_not_filled {e : Expr} (required : Ty) (h : e.isFilledArray = false) :
    Demand.ofInit required e = some (.fit required false) := by
  rw [ofInit, h]
  rfl

variable (sc : Scope)

mutual

/-- **The visits of a literal** are those of its elements. -/
theorem Init.visits_eq_elements (anonymous : Bool) (t : Ty) (n : Nat) : ∀ i : Init,
    i.visits anonymous sc (t.inBraces n) =
      (i.elements t n).flatMap fun x => x.value.visits anonymous sc (some x.demand)
  | .array is => by
    rw [Init.visits, Init.elements, Ty.element_inBraces]
    exact visitInits_eq_elements anonymous t (n + 1) is
  | .expr ⟨l, u, k⟩ => by
    cases hfill : (Expr.mk l u k).isFilledArray with
    | false =>
      rw [Init.visits, Init.elements_expr t n hfill, Demand.ofInit_of_not_filled _ hfill]
      exact (List.append_nil _).symm
    | true =>
      cases k with
      | filledArray is =>
        have hinner := visitInits_eq_elements anonymous u 1 is
        rw [← Ty.element_inBraces, Ty.inBraces_zero] at hinner
        exact hinner
      | _ => cases hfill

theorem visitInits_eq_elements (anonymous : Bool) (t : Ty) (n : Nat) : ∀ is : List Init,
    visitInits anonymous sc (t.inBraces n) is =
      (initElements t n is).flatMap fun x => x.value.visits anonymous sc (some x.demand)
  | [] => rfl
  | i :: is => by
    rw [visitInits, initElements, List.flatMap_append, i.visits_eq_elements, visitInits_eq_elements anonymous t n is]

end

mutual

/-- **A literal is reconciled element by element.** -/
theorem Init.reconcile_eq_mapElements (r : Rules) (t : Ty) (n : Nat) : ∀ i : Init,
    i.reconcile r sc (t.inBraces n) = i.mapElements (fun x => x.value.reconcile r sc (some x.demand)) t n
  | .array is => by
    rw [Init.reconcile, Init.mapElements, Ty.element_inBraces]
    exact congrArg Init.array (reconcileInits_eq_mapElements r t (n + 1) is)
  | .expr ⟨l, u, k⟩ => by
    cases hfill : (Expr.mk l u k).isFilledArray with
    | false =>
      rw [Init.reconcile, Init.mapElements_expr _ t n hfill, Demand.ofInit_of_not_filled _ hfill]
      rfl
    | true =>
      cases k with
      | filledArray is =>
        have hinner := reconcileInits_eq_mapElements r u 1 is
        rw [← Ty.element_inBraces, Ty.inBraces_zero] at hinner
        exact congrArg (fun is' => Init.expr ⟨l, u, .filledArray is'⟩) hinner
      | _ => cases hfill

theorem reconcileInits_eq_mapElements (r : Rules) (t : Ty) (n : Nat) : ∀ is : List Init,
    reconcileInits r sc (t.inBraces n) is =
      mapInitElements (fun x => x.value.reconcile r sc (some x.demand)) t n is
  | [] => rfl
  | i :: is => by
    rw [reconcileInits, mapInitElements, i.reconcile_eq_mapElements, reconcileInits_eq_mapElements r t n is]

end

namespace CastPass

/-- A name of a declaration walked in a scope, with what it starts with. -/
def walkDeclarator (p : CastPass) (sc : Scope) (declared : Ty) (d : Declarator) : Outcome Declarator :=
  p.single (p.stepsOf (d.visits p.rules.anonymous sc declared)) (d.reconcile p.rules sc declared)

/-- A declaration of one name is walked as the name is. -/
theorem walkStmts_declare (p : CastPass) (sc : Scope) (t : Ty) (d : Declarator) :
    p.walkStmts sc [.declare t d] = (p.walkDeclarator sc t d).map fun d' => [.declare t d'] := by
  unfold walkStmts walkDeclarator
  rw [map_single]
  simp only [Stmt.declare, visitStmts, reconcileStmts, Stmt.visits, Stmt.reconcile, LocalDecl.visits,
    LocalDecl.reconcile, visitDeclarators, reconcileDeclarators, List.append_nil]

/-- **The elements of a literal are reconciled by depth.**  A walk of a declaration with a literal walks the elements one
after the other, each for the declared type less a dimension for each brace around it, or for what is left so of the type
of the array creation in which it stands; and it puts each in the place where it was.  For a type `T`, a literal after
`=` and the same one in `new T{..}` get the same elements, with the same report, events or fault. -/
theorem literals_reconciled_by_depth (p : CastPass) (sc : Scope) (t : Ty) (name : String) :
    (∀ (k : UInt32) (i : Init),
      p.walkDeclarator sc t ⟨name, k, some i⟩ =
        p.single
          (p.stepsOf ((i.elements (t.widen k) 0).flatMap fun x =>
            x.value.visits p.rules.anonymous sc (some x.demand)))
          ⟨name, k, some (i.mapElements (fun x => x.value.reconcile p.rules sc (some x.demand)) (t.widen k) 0)⟩) ∧
    (∀ k : UInt32, t.dimension.toNat + k.toNat < UInt32.size → ∀ n,
      (t.widen k).inBraces n = t.withDimension (.ofNat (t.dimension.toNat + k.toNat - n))) ∧
    ∀ (l : UInt32) (is : List Init), ∃ o : Outcome (List Init),
      p.walkDeclarator sc t ⟨name, 0, some (.array is)⟩ = o.map (fun is' => ⟨name, 0, some (.array is')⟩) ∧
      p.walkDeclarator sc t ⟨name, 0, some (.expr ⟨l, t, .filledArray is⟩)⟩ =
        o.map (fun is' => ⟨name, 0, some (.expr ⟨l, t, .filledArray is'⟩)⟩) := by
  refine ⟨fun k i => ?_, fun k => Ty.inBraces_widen, fun l is => ?_⟩
  · have hvisits := i.visits_eq_elements sc p.rules.anonymous (t.widen k) 0
    have hvalue := i.reconcile_eq_mapElements sc p.rules (t.widen k) 0
    rw [Ty.inBraces_zero] at hvisits hvalue
    unfold walkDeclarator
    rw [Declarator.visits, Declarator.reconcile, hvisits, hvalue]
  · refine ⟨p.single (p.stepsOf (visitInits p.rules.anonymous sc t.element is)) (reconcileInits p.rules sc t.element is),
      ?_, ?_⟩
    · rw [map_single]
      unfold walkDeclarator
      rw [Declarator.visits, Declarator.reconcile, Init.visits, Init.reconcile, Ty.widen_zero]
    · rw [map_single]
      rfl

end CastPass

/-- `{ { text }, { { deep } }, new Object[]{ value } }`. -/
def Init.ragged (text deep value : Expr) : Init :=
  .array [.array [.expr text], .array [.array [.expr deep]],
    .expr ⟨4, .object ⟨ClassType.rootName, none, 1⟩, .filledArray [.expr value]⟩]

/-- In a literal for `T[] rows[]` values two braces deep and deeper are for `T`, and an `Object[]` in it takes any
value. -/
theorem CastPass.literals_reconciled_by_depth_ragged :
    (1 : UInt32).toNat + (1 : UInt32).toNat < UInt32.size ∧
    ((Ty.var ⟨"T", 1⟩).widen 1).inBraces 3 = .ofVar "T" ∧
    ((CastPass.ofFacts Hierarchy.empty.facts).walkDeclarator (.ofBounds .empty) (.var ⟨"T", 1⟩)
      ⟨"rows", 1, some (.ragged (.localVar 2 .root "text") (.localVar 3 .root "deep") (.localVar 4 .root "value"))⟩).result =
        .ok ⟨"rows", 1, some (.ragged (.cast 2 (.ofVar "T") (.localVar 2 .root "text"))
          (.cast 3 (.ofVar "T") (.localVar 3 .root "deep")) (.localVar 4 .root "value"))⟩ := by
  obtain ⟨hwalk, hdim, -⟩ := literals_reconciled_by_depth (CastPass.ofFacts Hierarchy.empty.facts) (.ofBounds .empty)
    (.var ⟨"T", 1⟩) "rows"
  have hlt : (1 : UInt32).toNat + (1 : UInt32).toNat < UInt32.size := by decide
  refine ⟨hlt, hdim 1 hlt 3, ?_⟩
  rw [hwalk]
  with_unfolding_all rfl

end Recast
