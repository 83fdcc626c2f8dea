import Recast.Proofs.Capture
/-!
# More bounds — what fits goes on fitting

A type variable is taken for a class that it has among its bounds, whether it stands on the side that takes or on the
one that is taken, and below `? super` the sides change places.  In all of these a bound can only help: what is accepted
under some bounds is accepted under more (`Ty.accepts_mono`), and what counts are the bounds of the variables that the
two sides speak of.

Assignability asks about the arguments of the target and of the use that is found above the source.  The search looks at
names alone, and the variables of what it finds are those of the source or of supertypes as declared
(`Hierarchy.Above.variables_spoken`).  So more bounds never reject more, and where no variable is spoken of at all every
scope gives the same answer (`Hierarchy.bounds_only_help`).
-/
namespace Recast

/-! ## More bounds for some variables -/

namespace TypeBounds

/-- The bounds listed for a variable; none where it has no entry. -/
def listed (b : TypeBounds) (name : String) : List Ty := (b.get? name).getD []

/-- **Every bound listed for these variables** is listed by the other scope too. -/
def GrowsOn (b b' : TypeBounds) (names : List String) : Prop := ∀ n ∈ names, b.listed n ⊆ b'.listed n

/-- **Every bound at all** is listed by the other scope too. -/
def Grows (b b' : TypeBounds) : Prop := ∀ n, b.listed n ⊆ b'.listed n

variable {b b' : TypeBounds} {ms ns : List String}

theorem Grows.on (h : b.Grows b') (ns : List String) : b.GrowsOn b' ns := fun n _ => h n

theorem growsOn_nil (b b' : TypeBounds) : b.GrowsOn b' [] := nofun

theorem growsOn_append : b.GrowsOn b' (ms ++ ns) ↔ b.GrowsOn b' ms ∧ b.GrowsOn b' ns := List.forall_mem_append

theorem mem_classBounds {v : TypeVar} {p : String × UInt32} : p ∈ b.classBounds v ↔
    ∃ c, .object c ∈ b.listed v.name ∧ p = (c.name, c.dimension + v.dimension) := by
  unfold classBounds
  rw [List.mem_filterMap]
  constructor
  · rintro ⟨t, ht, hp⟩
    obtain ⟨c, hc, rfl⟩ := Option.map_eq_some_iff.1 hp
    cases t with
    | object c' =>
      cases hc
      exact ⟨c, ht, rfl⟩
    | _ => cases hc
  · rintro ⟨c, hc, rfl⟩
    exact ⟨.object c, hc, rfl⟩

/-- A variable is bounded by a class where one of its bounds has the name, and the dimensions of both together. -/
theorem boundedBy_iff {v : TypeVar} {c : ClassType} : b.boundedBy v c = true ↔
    ∃ d, .object d ∈ b.listed v.name ∧ d.name = c.name ∧ d.dimension + v.dimension = c.dimension := by
  unfold boundedBy
  rw [List.any_eq_true]
  constructor
  · rintro ⟨p, hp, hsame⟩
    obtain ⟨d, hd, rfl⟩ := mem_classBounds.1 hp
    rw [Bool.and_eq_true, beq_iff_eq, beq_iff_eq] at hsame
    exact ⟨d, hd, hsame⟩
  · rintro ⟨d, hd, hname, hdim⟩
    refine ⟨_, mem_classBounds.2 ⟨d, hd, rfl⟩, ?_⟩
    rw [Bool.and_eq_true, beq_iff_eq, beq_iff_eq]
    exact ⟨hname, hdim⟩

theorem GrowsOn.boundedBy {v : TypeVar} {c : ClassType} (h : b.GrowsOn b' [v.name]) (hb : b.boundedBy v c = true) :
    b'.boundedBy v c = true := by
  obtain ⟨d, hd, hsame⟩ := boundedBy_iff.1 hb
  exact boundedBy_iff.2 ⟨d, h v.name (List.mem_singleton_self _) hd, hsame⟩

end TypeBounds

open TypeBounds

/-! ## Containment -/

/-- The names of the type variables in a type. -/
def Ty.variables (t : Ty) : List String := t.occurrences.map (·.name)

/-- The names of the type variables in a list of arguments. -/
def argumentVariables (as : List TypeArgument) : List String := (argumentOccurrences as).map (·.name)

theorem argumentVariables_cons (a : TypeArgument) (as : List TypeArgument) :
    argumentVariables (a :: as) = a.variables ++ argumentVariables as := List.map_append

variable {b b' : TypeBounds}

mutual

/-- **What is accepted under some bounds is accepted under more**, where the two types speak of no other variables. -/
theorem Ty.accepts_mono : ∀ (t u : Ty), b.GrowsOn b' t.variables → b.GrowsOn b' u.variables →
    t.accepts b u = true → t.accepts b' u = true
  | .primitive p d, .primitive q e, _, _, h => by
    rw [Ty.accepts] at h ⊢
    exact h
  | .primitive p d, .object c, _, _, h => by
    rw [Ty.accepts] at h
    cases h
  | .primitive p d, .var v, _, _, h => by
    rw [Ty.accepts] at h
    cases h
  | .object c, .primitive q e, _, _, h => by
    rw [Ty.accepts] at h
    cases h
  | .object c, .object d, hc, hd, h => by
    rw [Ty.accepts] at h ⊢
    exact ClassType.accepts_mono c d hc hd h
  | .object c, .var v, _, hv, h => by
    rw [Ty.accepts] at h ⊢
    exact GrowsOn.boundedBy hv h
  | .var v, .primitive q e, _, _, h => by
    rw [Ty.accepts] at h
    cases h
  | .var v, .object c, hv, _, h => by
    rw [Ty.accepts] at h ⊢
    exact GrowsOn.boundedBy hv h
  | .var v, .var w, _, _, h => by
    rw [Ty.accepts] at h ⊢
    exact h
termination_by t u => sizeOf t + sizeOf u

theorem ClassType.accepts_mono : ∀ (c d : ClassType), b.GrowsOn b' c.variables → b.GrowsOn b' d.variables →
    c.accepts b d = true → c.accepts b' d = true
  | ⟨n, none, i⟩, ⟨m, none, j⟩, _, _, h => by
    rw [ClassType.accepts] at h ⊢
    exact h
  | ⟨n, none, i⟩, ⟨m, some ss, j⟩, _, _, h => by
    rw [ClassType.accepts] at h
    cases h
  | ⟨n, some ts, i⟩, ⟨m, none, j⟩, _, _, h => by
    rw [ClassType.accepts] at h
    cases h
  | ⟨n, some ts, i⟩, ⟨m, some ss, j⟩, ht, hs, h => by
    rw [ClassType.accepts, Bool.and_eq_true, Bool.or_eq_true] at h ⊢
    exact ⟨h.1, h.2.imp id (containsAll_mono ts ss ht hs)⟩
termination_by c d => sizeOf c + sizeOf d

theorem TypeArgument.contains_mono : ∀ (x y : TypeArgument), b.GrowsOn b' x.variables → b.GrowsOn b' y.variables →
    x.contains b y = true → x.contains b' y = true
  | .any, y, _, _, _ => by rw [TypeArgument.contains]
  | .upper u, .upper t, hu, ht, h => by
    rw [TypeArgument.contains] at h ⊢
    exact Ty.accepts_mono u t hu ht h
  | .upper u, .exact t, hu, ht, h => by
    rw [TypeArgument.contains] at h ⊢
    exact Ty.accepts_mono u t hu ht h
  -- below `? super` the sides have changed places
  | .lower l, .lower t, hl, ht, h => by
    rw [TypeArgument.contains] at h ⊢
    exact Ty.accepts_mono t l ht hl h
  | .lower l, .exact t, hl, ht, h => by
    rw [TypeArgument.contains] at h ⊢
    exact Ty.accepts_mono t l ht hl h
  | .exact t, .exact s, ht, hs, h => by
    rw [TypeArgument.contains] at h ⊢
    exact Ty.accepts_mono t s ht hs h
  | .upper u, .any, _, _, h | .upper u, .lower t, _, _, h | .lower l, .any, _, _, h | .lower l, .upper t, _, _, h
  | .exact t, .any, _, _, h | .exact t, .upper s, _, _, h | .exact t, .lower s, _, _, h => by
    rw [TypeArgument.contains] at h
    cases h
termination_by x y => sizeOf x + sizeOf y

theorem containsAll_mono : ∀ (ts ss : List TypeArgument), b.GrowsOn b' (argumentVariables ts) →
    b.GrowsOn b' (argumentVariables ss) → containsAll b ts ss = true → containsAll b' ts ss = true
  | [], [], _, _, _ => by rw [containsAll]
  | [], s :: ss, _, _, h => by
    rw [containsAll] at h
    cases h
  | t :: ts, [], _, _, h => by
    rw [containsAll] at h
    cases h
  | t :: ts, s :: ss, ht, hs, h => by
    rw [argumentVariables_cons, growsOn_append] at ht hs
    rw [containsAll, Bool.and_eq_true] at h ⊢
    exact ⟨TypeArgument.contains_mono t s ht.1 hs.1 h.1, containsAll_mono ts ss ht.2 hs.2 h.2⟩
termination_by ts ss => sizeOf ts + sizeOf ss

end

theorem argumentsFit_mono {ts ss : List TypeArgument} (ht : b.GrowsOn b' (argumentVariables ts))
    (hs : b.GrowsOn b' (argumentVariables ss)) (h : argumentsFit b ts ss = true) : argumentsFit b' ts ss = true := by
  unfold argumentsFit at *
  rw [Bool.or_eq_true] at h ⊢
  exact h.imp id (containsAll_mono ts ss ht hs)

/-! ## The variables of what is found -/

/-- A variable that is put in place of another belongs to an argument, or has been left. -/
theorem Instantiation.variables_ofVar {i : Instantiation} {v w : TypeVar} (hv : v ∈ (i.ofVar w).occurrences) :
    v.name = w.name ∨ ∃ a ∈ i.arguments, v.name ∈ a.variables := by
  cases ha : i.get? w.name with
  | some a =>
    rcases mem_occurrences_ofVar ha hv with hname | ⟨rfl, -⟩
    · exact .inr ⟨a, mem_of_find? ha, hname⟩
    · exact .inl rfl
  | none =>
    unfold ofVar at hv
    rw [ha] at hv
    rw [List.mem_singleton.1 hv]
    exact .inl rfl

namespace Hierarchy

variable {h : Hierarchy} {use above found target source : ClassType} {n : String}

/-- **A variable that the classes speak of**, in some supertype as declared. -/
def Speaks (h : Hierarchy) (n : String) : Prop := ∃ c ∈ h.classes, ∃ s ∈ c.declaredSupertypes, n ∈ s.variables

theorem variables_directSupertypes_spoken (habove : above ∈ h.directSupertypes use) (hn : n ∈ above.variables) :
    n ∈ use.variables ∨ h.Speaks n := by
  obtain ⟨c, s, hc, hs, hshape⟩ := exists_of_mem_directSupertypes habove
  have hclass : c ∈ h.classes := List.mem_of_find?_eq_some hc
  rcases hshape with ⟨-, rfl⟩ | rfl | ⟨as, has, -, rfl⟩
  · exact .inr ⟨c, hclass, _, hs, hn⟩
  · rw [ClassType.variables_eq_nil rfl] at hn
    cases hn
  · obtain ⟨v, hv, rfl⟩ := List.mem_map.1 hn
    obtain ⟨w, hw, hvw⟩ := ClassType.mem_occurrences_subst hv
    rcases Instantiation.variables_ofVar hvw with hname | ⟨a, ha, hname⟩
    · rw [hname]
      exact .inr ⟨c, hclass, s, hs, List.mem_map_of_mem hw⟩
    · exact .inl (ClassType.mem_variables has ha hname)

/-- **All the way up**, a variable is one of the use, or the classes speak of it. -/
theorem Above.variables_spoken (ha : h.Above use found) (hn : n ∈ found.variables) :
    n ∈ use.variables ∨ h.Speaks n := by
  induction ha with
  | refl => exact .inl hn
  | tail _ hstep ih =>
    rcases variables_directSupertypes_spoken hstep hn with hbelow | hspoken
    · exact ih hbelow
    · exact .inr hspoken

/-! ## Assignability -/

theorem rawOrFit_mono (ht : b.GrowsOn b' target.variables) (hf : b.GrowsOn b' found.variables)
    (hfit : rawOrFit b target.arguments found.arguments = true) :
    rawOrFit b' target.arguments found.arguments = true := by
  obtain ⟨n, ts, d⟩ := target
  obtain ⟨m, ss, e⟩ := found
  cases ts with
  | none => rfl
  | some ts =>
    cases ss with
    | none => rfl
    | some ss => exact argumentsFit_mono ht hf hfit

/-- **What takes a source under some bounds takes it under more**, for the variables of both sides and those that the
classes speak of. -/
theorem assignable_mono (ht : b.GrowsOn b' target.variables) (hs : b.GrowsOn b' source.variables)
    (hh : ∀ n, h.Speaks n → b.listed n ⊆ b'.listed n) (ha : h.assignable b target source = true) :
    h.assignable b' target source = true := by
  rw [assignable_iff] at ha ⊢
  rcases ha with hroot | ⟨hname, hdim, found, hf, hfit⟩
  · exact .inl hroot
  · have hfound : b.GrowsOn b' found.variables := by
      intro n hn
      rcases (above_of_supertype? hf).variables_spoken hn with hsource | hspoken
      · have hsame : (source.withDimension 0).variables = source.variables :=
          (Ty.object source).map_name_withDimension 0
        rw [hsame] at hsource
        exact hs n hsource
      · exact hh n hspoken
    exact .inr ⟨hname, hdim, found, hf, rawOrFit_mono ht hfound hfit⟩

/-- **Bounds only help.**  Arguments that contain others, lists of arguments that fit others and class types that take
others do so under all bounds that list no less.  Where neither side speaks of a type variable, nor, for class types, a
supertype as declared, all bounds give the same answer. -/
theorem bounds_only_help (h : Hierarchy) :
    (∀ b b' : TypeBounds, b.Grows b' →
      (∀ x y : TypeArgument, x.contains b y = true → x.contains b' y = true) ∧
      (∀ ts ss : List TypeArgument, argumentsFit b ts ss = true → argumentsFit b' ts ss = true) ∧
      ∀ target source : ClassType, h.assignable b target source = true → h.assignable b' target source = true) ∧
    ∀ b b' : TypeBounds,
      (∀ x y : TypeArgument, x.variables = [] → y.variables = [] → x.contains b y = x.contains b' y) ∧
      (∀ ts ss : List TypeArgument, argumentVariables ts = [] → argumentVariables ss = [] →
        argumentsFit b ts ss = argumentsFit b' ts ss) ∧
      ∀ target source : ClassType, target.variables = [] → source.variables = [] →
        (∀ c ∈ h.classes, ∀ s ∈ c.declaredSupertypes, s.variables = []) →
        h.assignable b target source = h.assignable b' target source := by
  have hnone {ns : List String} (hns : ns = []) (b b' : TypeBounds) : b.GrowsOn b' ns := by
    rw [hns]
    exact growsOn_nil b b'
  refine ⟨fun b b' hb => ⟨fun x y => ?_, fun ts ss => ?_, fun target source => ?_⟩,
    fun b b' => ⟨fun x y hx hy => ?_, fun ts ss hts hss => ?_, fun target source ht hs hh => ?_⟩⟩
  · exact x.contains_mono y (hb.on _) (hb.on _)
  · exact argumentsFit_mono (hb.on _) (hb.on _)
  · exact assignable_mono (hb.on _) (hb.on _) fun n _ => hb n
  · exact Bool.eq_iff_iff.2 ⟨x.contains_mono y (hnone hx b b') (hnone hy b b'),
      x.contains_mono y (hnone hx b' b) (hnone hy b' b)⟩
  · exact Bool.eq_iff_iff.2 ⟨argumentsFit_mono (hnone hts b b') (hnone hss b b'),
      argumentsFit_mono (hnone hts b' b) (hnone hss b' b)⟩
  · have hspoken (n : String) : ¬ h.Speaks n := by
      rintro ⟨c, hc, s, hsup, hn⟩
      rw [hh c hc s hsup] at hn
      cases hn
    exact Bool.eq_iff_iff.2 ⟨assignable_mono (hnone ht b b') (hnone hs b b') fun n hn => absurd hn (hspoken n),
      assignable_mono (hnone ht b' b) (hnone hs b' b) fun n hn => absurd hn (hspoken n)⟩

/-- One box takes another where its argument contains the other's. -/
theorem assignable_boxOf (h : Hierarchy) (b : TypeBounds) (x y : TypeArgument) :
    h.assignable b (boxOf x) (boxOf y) = x.contains b y := by
  have hne : "Box" ≠ ClassType.rootName := by decide
  have hself : h.supertype? ((boxOf y).withDimension 0) (boxOf x).name = some (boxOf y) := h.supertype?_self (boxOf y)
  have hfit : rawOrFit b (boxOf x).arguments (boxOf y).arguments = x.contains b y := by
    simp [boxOf, rawOrFit, argumentsFit, containsAll]
  rw [Bool.eq_iff_iff, assignable_iff, ← hfit]
  constructor
  · rintro (⟨hroot, -⟩ | ⟨-, -, found, hf, hfound⟩)
    · exact absurd hroot hne
    · rw [hself] at hf
      cases hf
      exact hfound
  · intro hx
    exact .inr ⟨hne, rfl, boxOf y, hself, hx⟩

/-- A hierarchy of strings alone, which are comparable with each other. -/
def strings : Hierarchy := empty.put Platform.string

/-- `Box<? super Box<T>>` takes `Box<Box<Number>>` for a `T` that is bounded by `Number`, whatever else it is bounded
by, and does not for a `T` without bounds; where strings are compared no bounds are asked for. -/
theorem bounds_only_help_super :
    let target := boxOf (.lower (.object (boxOf (.exact (.ofVar "T")))))
    let source := boxOf (.exact (.object (boxOf (.exact (.ofClass "java/lang/Number")))))
    let bounds := TypeBounds.empty.insert "T" [.ofClass "java/lang/Number"]
    let more := TypeBounds.empty.insert "T" [.ofVar "S", .ofClass "java/lang/Number"]
    bounds.Grows more ∧ empty.assignable bounds target source = true ∧ empty.assignable more target source = true ∧
      empty.assignable .empty target source = false ∧
      strings.assignable more (Platform.comparableTo ClassType.stringName) .string =
        strings.assignable .empty (Platform.comparableTo ClassType.stringName) .string := by
  intro target source bounds more
  have hanswer (b : TypeBounds) :
      empty.assignable b target source = b.boundedBy ⟨"T", 0⟩ (.ofName "java/lang/Number") := by
    rw [assignable_boxOf, TypeArgument.contains, Ty.accepts]
    simp [boxOf, ClassType.accepts, containsAll, TypeArgument.contains, Ty.ofClass, Ty.ofVar, Ty.accepts]
  have hgrows : bounds.Grows more := by
    intro n t ht
    unfold listed at ht ⊢
    rw [get?_insert] at ht ⊢
    by_cases hn : n = "T"
    · rw [if_pos hn] at ht ⊢
      exact List.mem_cons_of_mem _ ht
    · rw [if_neg hn] at ht
      cases ht
  have hbounded : empty.assignable bounds target source = true := by
    rw [hanswer]
    decide
  have hfree : ∀ c ∈ strings.classes, ∀ s ∈ c.declaredSupertypes, s.variables = [] := by decide
  refine ⟨hgrows, hbounded, ((bounds_only_help empty).1 bounds more hgrows).2.2 target source hbounded, ?_,
    ((bounds_only_help strings).2 more .empty).2.2 _ _ rfl rfl hfree⟩
  rw [hanswer]
  decide

end Hierarchy

end Recast
