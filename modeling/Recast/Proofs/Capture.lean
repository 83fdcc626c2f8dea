import Recast.Proofs.HandsUp
/-!
# Capture — the type variables of a supertype

A class declares its supertypes in terms of its own parameters.  A use of the class puts its arguments in their place,
and what is found above the use, any number of classes up, should speak of nothing but the variables of the use: a
parameter that is left stands in a scope to which it does not belong, where its name may mean something else.

One kind of parameter is left.  An array of a parameter has no instance for a wildcard (`Instantiation.ofVar`), so in
`class Grid<T> extends Box<T[]>` a `Grid<?>` is a `Box<T[]>`, whatever `T` is where the `Grid<?>` stands
(`Hierarchy.exists_supertype_captures`).  No other is (`Hierarchy.supertypes_capture_stranded`): none is where the
supertypes of the classes are declared without arrays of parameters, and none where neither they nor the use have a
wildcard for an argument.
-/
namespace Recast

/-! ## The variables of a type -/

mutual

/-- The type variables in a type from left to right, each with the dimensions it has there. -/
def ClassType.occurrences : ClassType → List TypeVar
  | ⟨_, none, _⟩ => []
  | ⟨_, some as, _⟩ => argumentOccurrences as

def Ty.occurrences : Ty → List TypeVar
  | .primitive .. => []
  | .object c => c.occurrences
  | .var v => [v]

def TypeArgument.occurrences : TypeArgument → List TypeVar
  | .exact t => t.occurrences
  | .any => []
  | .upper t => t.occurrences
  | .lower t => t.occurrences

def argumentOccurrences : List TypeArgument → List TypeVar
  | [] => []
  | a :: as => a.occurrences ++ argumentOccurrences as

end

/-- The names of the type variables in the arguments of a use. -/
def ClassType.variables (c : ClassType) : List String := c.occurrences.map (·.name)

def TypeArgument.variables (a : TypeArgument) : List String := a.occurrences.map (·.name)

/-- A type by itself, and no wildcard. -/
def TypeArgument.isExact : TypeArgument → Bool
  | .exact _ => true
  | _ => false

/-- A use without a wildcard for an argument; inside its arguments there may be some. -/
def ClassType.isExact (c : ClassType) : Bool := c.arguments.all (·.all (·.isExact))

theorem ClassType.isExact_iff {c : ClassType} :
    c.isExact = true ↔ ∀ as, c.arguments = some as → ∀ a ∈ as, a.isExact = true := by
  unfold isExact
  cases c.arguments <;> simp

theorem argumentOccurrences_eq_flatMap (as : List TypeArgument) :
    argumentOccurrences as = as.flatMap (·.occurrences) := by
  induction as with
  | nil => rfl
  | cons a as ih => exact congrArg (a.occurrences ++ ·) ih

theorem ClassType.variables_eq_nil {c : ClassType} (h : c.arguments = none) : c.variables = [] := by
  obtain ⟨n, as, d⟩ := c
  obtain rfl : as = none := h
  rfl

/-- A variable of an argument is one of the use. -/
theorem ClassType.mem_variables {c : ClassType} {as : List TypeArgument} {a : TypeArgument} {n : String}
    (has : c.arguments = some as) (ha : a ∈ as) (hn : n ∈ a.variables) : n ∈ c.variables := by
  obtain ⟨m, args, d⟩ := c
  obtain rfl : args = some as := has
  obtain ⟨v, hv, rfl⟩ := List.mem_map.1 hn
  have hmem : v ∈ argumentOccurrences as := by
    rw [argumentOccurrences_eq_flatMap]
    exact List.mem_flatMap_of_mem ha hv
  exact List.mem_map_of_mem hmem

/-- Other dimensions, the same variables. -/
theorem Ty.map_name_withDimension (t : Ty) (d : UInt32) :
    (t.withDimension d).occurrences.map (·.name) = t.occurrences.map (·.name) := by
  cases t with
  | object c =>
    obtain ⟨n, as, e⟩ := c
    cases as <;> rfl
  | _ => rfl

/-! ## Substitution -/

theorem TypeArgument.occurrences_asUpper {v : TypeVar} {a : TypeArgument} (h : v ∈ a.asUpper.occurrences) :
    v ∈ a.occurrences := by
  cases a with
  | exact t => exact h
  | upper t => exact h
  | any => exact h
  | lower t => cases h

theorem TypeArgument.occurrences_asLower {v : TypeVar} {a : TypeArgument} (h : v ∈ a.asLower.occurrences) :
    v ∈ a.occurrences := by
  cases a with
  | exact t => exact h
  | lower t => exact h
  | any => exact h
  | upper t => cases h

mutual

/-- **What occurs after a substitution has come with a variable that occurred before.** -/
theorem ClassType.mem_occurrences_subst {i : Instantiation} {v : TypeVar} : ∀ {c : ClassType},
    v ∈ (c.subst i).occurrences → ∃ w ∈ c.occurrences, v ∈ (i.ofVar w).occurrences
  | ⟨_, none, _⟩, h => by cases h
  | ⟨_, some _, _⟩, h => mem_occurrences_substArguments h

theorem Ty.mem_occurrences_subst {i : Instantiation} {v : TypeVar} : ∀ {t : Ty},
    v ∈ (t.subst i).occurrences → ∃ w ∈ t.occurrences, v ∈ (i.ofVar w).occurrences
  | .primitive .., h => by cases h
  | .object _, h => ClassType.mem_occurrences_subst h
  | .var w, h => ⟨w, List.mem_singleton_self w, h⟩

theorem TypeArgument.mem_occurrences_subst {i : Instantiation} {v : TypeVar} : ∀ {a : TypeArgument},
    v ∈ (a.subst i).occurrences → ∃ w ∈ a.occurrences, v ∈ (i.ofVar w).occurrences
  | .exact _, h => Ty.mem_occurrences_subst h
  | .any, h => by cases h
  | .upper _, h => Ty.mem_occurrences_subst (TypeArgument.occurrences_asUpper h)
  | .lower _, h => Ty.mem_occurrences_subst (TypeArgument.occurrences_asLower h)

theorem mem_occurrences_substArguments {i : Instantiation} {v : TypeVar} : ∀ {as : List TypeArgument},
    v ∈ argumentOccurrences (substArguments i as) → ∃ w ∈ argumentOccurrences as, v ∈ (i.ofVar w).occurrences
  | [], h => by cases h
  | a :: as, h => by
    rcases List.mem_append.1 h with h | h
    · obtain ⟨w, hw, hv⟩ := TypeArgument.mem_occurrences_subst h
      exact ⟨w, List.mem_append_left _ hw, hv⟩
    · obtain ⟨w, hw, hv⟩ := mem_occurrences_substArguments h
      exact ⟨w, List.mem_append_right _ hw, hv⟩

end

namespace Instantiation

variable {i : Instantiation} {n : String}

theorem mem_of_find? {a : TypeArgument} : ∀ {ps : List String} {as : List TypeArgument},
    find? ps as n = some a → a ∈ as
  | p :: ps, b :: as, h => by
    rw [find?] at h
    split at h
    · cases h
      exact List.mem_cons_self
    · exact List.mem_cons_of_mem b (mem_of_find? h)

theorem exists_find? : ∀ {ps : List String} {as : List TypeArgument},
    ps.length = as.length → n ∈ ps → ∃ a, find? ps as n = some a
  | p :: ps, b :: as, hlen, hn => by
    rw [find?]
    split
    · exact ⟨b, rfl⟩
    · rename_i hne
      exact exists_find? (Nat.succ.inj hlen) ((List.mem_cons.1 hn).resolve_left (Ne.symm hne))

/-- Where there is an argument for each parameter, each parameter has one. -/
theorem exists_get? (i : Instantiation) (hlen : i.parameters.length = i.arguments.length) (hn : n ∈ i.parameters) :
    ∃ a, i.get? n = some a := exists_find? hlen hn

/-- **What a parameter brings with it**: variables of its argument, or itself, where it stands in an array and the
argument is a wildcard. -/
theorem mem_occurrences_ofVar {v w : TypeVar} {a : TypeArgument} (ha : i.get? w.name = some a)
    (hv : v ∈ (i.ofVar w).occurrences) :
    v.name ∈ a.variables ∨ v = w ∧ w.dimension ≠ 0 ∧ a.isExact = false := by
  unfold ofVar at hv
  rw [ha] at hv
  by_cases hd : w.dimension = 0
  · refine .inl ?_
    cases a with
    | exact t =>
      have hname := List.mem_map_of_mem (f := (·.name)) hv
      rw [TypeArgument.occurrences, Ty.map_name_withDimension] at hname
      exact hname
    | _ =>
      simp only [if_pos hd] at hv
      exact List.mem_map_of_mem hv
  · cases a with
    | exact t =>
      have hname := List.mem_map_of_mem (f := (·.name)) hv
      rw [TypeArgument.occurrences, Ty.map_name_withDimension] at hname
      exact .inl hname
    | _ =>
      simp only [if_neg hd] at hv
      exact .inr ⟨List.mem_singleton.1 hv, hd, rfl⟩

/-- Where there is no wildcard among the arguments, none comes from them. -/
theorem isExact_ofVar (h : ∀ a ∈ i.arguments, a.isExact = true) (w : TypeVar) : (i.ofVar w).isExact = true := by
  unfold ofVar
  cases ha : i.get? w.name with
  | none => rfl
  | some a =>
    have hexact := h a (mem_of_find? ha)
    cases a with
    | exact t => rfl
    | _ => cases hexact

end Instantiation

theorem TypeArgument.isExact_subst {i : Instantiation} (h : ∀ a ∈ i.arguments, a.isExact = true) {a : TypeArgument}
    (ha : a.isExact = true) : (a.subst i).isExact = true := by
  cases a with
  | exact t =>
    cases t with
    | primitive p d => rfl
    | object c => rfl
    | var w => exact Instantiation.isExact_ofVar h w
  | _ => cases ha

theorem substArguments_eq_map (i : Instantiation) (as : List TypeArgument) :
    substArguments i as = as.map (·.subst i) := by
  induction as with
  | nil => rfl
  | cons a as ih => exact congrArg (a.subst i :: ·) ih

theorem ClassType.isExact_subst {i : Instantiation} (h : ∀ a ∈ i.arguments, a.isExact = true) {c : ClassType}
    (hc : c.isExact = true) : (c.subst i).isExact = true := by
  obtain ⟨n, as, d⟩ := c
  cases as with
  | none => rfl
  | some as =>
    rw [isExact_iff] at hc ⊢
    rintro _ ⟨⟩ x hx
    rw [substArguments_eq_map] at hx
    obtain ⟨a, ha, rfl⟩ := List.mem_map.1 hx
    exact TypeArgument.isExact_subst h (hc as rfl a ha)

namespace Hierarchy

/-- **Supertypes in terms of a class's own parameters**, and of no other variable. -/
def OwnParameters (h : Hierarchy) : Prop :=
  ∀ n c, h.find? n = some c → ∀ s ∈ c.declaredSupertypes, s.variables ⊆ c.parameters

/-- **What is above a use**, any number of steps up, or none. -/
def Above (h : Hierarchy) : ClassType → ClassType → Prop :=
  Relation.ReflTransGen fun use above => above ∈ h.directSupertypes use

/-- **A stranded parameter**: an array of it stands in a supertype that the class declares, and the use has a wildcard
for it. -/
inductive Strands (h : Hierarchy) (use : ClassType) : String → Prop
  | intro {c : ClassDecl} {as : List TypeArgument} {a : TypeArgument} {s : ClassType} {v : TypeVar}
    (hc : h.find? use.name = some c) (has : use.arguments = some as)
    (ha : (Instantiation.mk c.parameters as).get? v.name = some a) (hwild : a.isExact = false)
    (hs : s ∈ c.declaredSupertypes) (hv : v ∈ s.occurrences) (hd : v.dimension ≠ 0) : Strands h use v.name

variable {h : Hierarchy} {use above found : ClassType} {n target : String} {seen : List String}
  {queue : List ClassType}

/-! ## One step up -/

/-- What is right above a use: a supertype as declared, without arguments, or with those of the use put in. -/
theorem exists_of_mem_directSupertypes (habove : above ∈ h.directSupertypes use) :
    ∃ c s, h.find? use.name = some c ∧ s ∈ c.declaredSupertypes ∧
      (c.parameters = [] ∧ above = s ∨ above = s.raw ∨
        ∃ as, use.arguments = some as ∧ as.length = c.parameters.length ∧ above = s.subst ⟨c.parameters, as⟩) := by
  unfold directSupertypes at habove
  split at habove
  · rename_i c hc
    obtain ⟨s, hs, rfl⟩ := List.mem_map.1 habove
    refine ⟨c, s, hc, hs, ?_⟩
    unfold ClassDecl.instantiate
    split
    · rename_i hnone
      exact .inl ⟨hnone, rfl⟩
    · cases use.arguments with
      | none => exact .inr (.inl rfl)
      | some as =>
        by_cases hlen : as.length = c.parameters.length
        · exact .inr (.inr ⟨as, rfl, hlen, if_pos hlen⟩)
        · exact .inr (.inl (if_neg hlen))
  · cases habove

/-- **One step up**, a variable is one of the use, or a parameter is left stranded. -/
theorem variables_directSupertypes (hown : h.OwnParameters) (habove : above ∈ h.directSupertypes use)
    (hn : n ∈ above.variables) : n ∈ use.variables ∨ h.Strands use n := by
  obtain ⟨c, s, hc, hs, ⟨hnone, rfl⟩ | rfl | ⟨as, has, hlen, rfl⟩⟩ := exists_of_mem_directSupertypes habove
  · have hmem := hown _ c hc _ hs hn
    rw [hnone] at hmem
    cases hmem
  · rw [ClassType.variables_eq_nil rfl] at hn
    cases hn
  · obtain ⟨v, hv, rfl⟩ := List.mem_map.1 hn
    obtain ⟨w, hw, hvw⟩ := ClassType.mem_occurrences_subst hv
    obtain ⟨a, ha⟩ := Instantiation.exists_get? ⟨c.parameters, as⟩ hlen.symm
      (hown _ c hc _ hs (List.mem_map_of_mem hw))
    rcases Instantiation.mem_occurrences_ofVar ha hvw with hname | ⟨rfl, hd, hwild⟩
    · exact .inl (ClassType.mem_variables has (Instantiation.mem_of_find? ha) hname)
    · exact .inr (.intro hc has ha hwild hs hw hd)

/-- One step up, a use without wildcards has none either. -/
theorem isExact_directSupertypes (hexact : ∀ n c, h.find? n = some c → ∀ s ∈ c.declaredSupertypes, s.isExact = true)
    (huse : use.isExact = true) (habove : above ∈ h.directSupertypes use) : above.isExact = true := by
  obtain ⟨c, s, hc, hs, ⟨-, rfl⟩ | rfl | ⟨as, has, -, rfl⟩⟩ := exists_of_mem_directSupertypes habove
  · exact hexact _ _ hc _ hs
  · rfl
  · exact ClassType.isExact_subst (ClassType.isExact_iff.1 huse as has) (hexact _ _ hc _ hs)

/-! ## All the way up -/

/-- **What a search finds is above a use from which it starts.** -/
theorem above_of_search (hf : h.search target seen queue = some found) : ∃ c ∈ queue, h.Above c found := by
  fun_induction h.search target seen queue with
  | case1 => cases hf
  | case2 seen c rest heq =>
    cases hf
    exact ⟨_, List.mem_cons_self, .refl⟩
  | case3 seen c rest hne hs ih =>
    obtain ⟨d, hd, habove⟩ := ih hf
    exact ⟨d, List.mem_cons_of_mem _ hd, habove⟩
  | case4 seen c rest hne hs ih =>
    obtain ⟨d, hd, habove⟩ := ih hf
    rcases List.mem_append.1 hd with hd | hd
    · exact ⟨d, List.mem_cons_of_mem _ hd, habove⟩
    · exact ⟨c, List.mem_cons_self, .head hd habove⟩

theorem above_of_supertype? (hf : h.supertype? use target = some found) : h.Above use found := by
  obtain ⟨c, hc, habove⟩ := above_of_search hf
  obtain rfl := List.mem_singleton.1 hc
  exact habove

/-- **All the way up**, a variable is one of the use, or a parameter was left stranded on the way. -/
theorem Above.variables (hown : h.OwnParameters) (ha : h.Above use found) :
    n ∈ found.variables → n ∈ use.variables ∨ ∃ mid, h.Above use mid ∧ h.Strands mid n := by
  induction ha with
  | refl => exact .inl
  | tail habove hstep ih =>
    intro hn
    rcases variables_directSupertypes hown hstep hn with hbelow | hstrands
    · exact ih hbelow
    · exact .inr ⟨_, habove, hstrands⟩

theorem Above.isExact (hexact : ∀ n c, h.find? n = some c → ∀ s ∈ c.declaredSupertypes, s.isExact = true)
    (huse : use.isExact = true) (ha : h.Above use found) : found.isExact = true := by
  induction ha with
  | refl => exact huse
  | tail _ hstep ih => exact isExact_directSupertypes hexact ih hstep

/-- **Only a stranded parameter is captured.**  Each variable of what is found above a use is one of the use, or a
parameter of a class on the way, of which the class declares an array in a supertype and the use on the way has a
wildcard for it.  So all are variables of the use where no class declares an array of a parameter, and where neither
the use nor a declared supertype has a wildcard for an argument. -/
theorem supertypes_capture_stranded (h : Hierarchy) (hown : h.OwnParameters) (use found : ClassType) (target : String)
    (hf : h.supertype? use target = some found) :
    (∀ n ∈ found.variables, n ∈ use.variables ∨ ∃ mid, h.Above use mid ∧ h.Strands mid n) ∧
    ((∀ n c, h.find? n = some c → ∀ s ∈ c.declaredSupertypes, ∀ v ∈ s.occurrences, v.dimension = 0) →
      found.variables ⊆ use.variables) ∧
    ((∀ n c, h.find? n = some c → ∀ s ∈ c.declaredSupertypes, s.isExact = true) → use.isExact = true →
      found.variables ⊆ use.variables) := by
  have habove := above_of_supertype? hf
  refine ⟨fun n => habove.variables hown, fun hflat n hn => ?_, fun hexact huse n hn => ?_⟩
  · refine (habove.variables hown hn).resolve_right ?_
    rintro ⟨mid, -, hstrands⟩
    cases hstrands with
    | intro hc _ _ _ hs hv hd => exact hd (hflat _ _ hc _ hs _ hv)
  · refine (habove.variables hown hn).resolve_right ?_
    rintro ⟨mid, hmid, hstrands⟩
    cases hstrands with
    | intro _ has ha hwild _ _ _ =>
      have hall := ClassType.isExact_iff.1 (Above.isExact hexact huse hmid) _ has
      rw [hall _ (Instantiation.mem_of_find? ha)] at hwild
      cases hwild

/-! ## A grid of boxes -/

def boxOf (a : TypeArgument) : ClassType := ⟨"Box", some [a], 0⟩

def gridOf (a : TypeArgument) : ClassType := ⟨"Grid", some [a], 0⟩

/-- `class Grid<T> extends Box<T[]>` and `class Box<E>`. -/
def grids : Hierarchy :=
  (empty.put ⟨"Box", .ordinary, ["E"], some .root, [], []⟩).put
    ⟨"Grid", .ordinary, ["T"], some (boxOf (.exact (.var ⟨"T", 1⟩))), [], []⟩

theorem find?_grids {c : ClassDecl} (hc : grids.find? n = some c) :
    c = ⟨"Grid", .ordinary, ["T"], some (boxOf (.exact (.var ⟨"T", 1⟩))), [], []⟩ ∨
      c = ⟨"Box", .ordinary, ["E"], some .root, [], []⟩ := by
  unfold grids at hc
  rw [find?_put, find?_put] at hc
  split at hc
  · exact .inl (Option.some.inj hc).symm
  · split at hc
    · exact .inr (Option.some.inj hc).symm
    · cases hc

theorem ownParameters_grids : grids.OwnParameters := by
  intro n c hc
  rcases find?_grids hc with rfl | rfl
  · decide
  · decide

theorem supertype?_gridOf (a : TypeArgument) :
    grids.supertype? (gridOf a) "Box" = some (boxOf (Instantiation.ofVar ⟨["T"], [a]⟩ ⟨"T", 1⟩)) := by
  have hne : "Grid" ≠ "Box" := by decide
  calc grids.supertype? (gridOf a) "Box"
      = grids.search "Box" ["Grid"] [boxOf (Instantiation.ofVar ⟨["T"], [a]⟩ ⟨"T", 1⟩)] :=
        Turn.search_eq (.enter [] (by simp)) hne
    _ = some (boxOf (Instantiation.ofVar ⟨["T"], [a]⟩ ⟨"T", 1⟩)) := grids.search_found ["Grid"] (boxOf _) []

/-- `List<? extends U>`, or an array of them. -/
def listOfU (dimension : UInt32) : ClassType := ⟨"java/util/List", some [.upper (.ofVar "U")], dimension⟩

/-- A `Grid<List<? extends U>>` is a `Box<List<? extends U>[]>`, which speaks of `U` as the grid does; a `Grid<?>` is a
`Box<T[]>`, where `T` is stranded. -/
theorem supertypes_capture_stranded_grid :
    grids.OwnParameters ∧
    grids.supertype? (gridOf (.exact (.object (listOfU 0)))) "Box" = some (boxOf (.exact (.object (listOfU 1)))) ∧
    (boxOf (.exact (.object (listOfU 1)))).variables ⊆ (gridOf (.exact (.object (listOfU 0)))).variables ∧
    grids.supertype? (gridOf .any) "Box" = some (boxOf (.exact (.var ⟨"T", 1⟩))) ∧
    ∃ mid, grids.Above (gridOf .any) mid ∧ grids.Strands mid "T" := by
  have hlist := supertype?_gridOf (.exact (.object (listOfU 0)))
  have hany := supertype?_gridOf .any
  have hexact : ∀ n c, grids.find? n = some c → ∀ s ∈ c.declaredSupertypes, s.isExact = true := by
    intro n c hc
    rcases find?_grids hc with rfl | rfl
    · decide
    · decide
  obtain ⟨-, -, hsub⟩ := supertypes_capture_stranded grids ownParameters_grids _ _ _ hlist
  obtain ⟨hstrands, -⟩ := supertypes_capture_stranded grids ownParameters_grids _ _ _ hany
  exact ⟨ownParameters_grids, hlist, hsub hexact rfl, hany, (hstrands "T" (by decide)).resolve_left (by decide)⟩

/-- **A parameter can be captured.**  A `Grid<?>` is a `Box<T[]>`, and nothing says what `T` is. -/
theorem exists_supertype_captures :
    ¬ ∀ (h : Hierarchy) (use found : ClassType) (target : String), h.OwnParameters →
      (∀ c, h.find? use.name = some c → ∃ as, use.arguments = some as ∧ as.length = c.parameters.length) →
      h.supertype? use target = some found → found.variables ⊆ use.variables := by
  intro hall
  have harity : ∀ c, grids.find? (gridOf .any).name = some c →
      ∃ as, (gridOf .any).arguments = some as ∧ as.length = c.parameters.length := by
    intro c hc
    obtain rfl := Option.some.inj hc
    exact ⟨_, rfl, rfl⟩
  have hsub := hall grids (gridOf .any) _ "Box" ownParameters_grids harity (supertype?_gridOf .any)
  have hmem : "T" ∈ (gridOf .any).variables := hsub (by decide)
  cases hmem

end Hierarchy

end Recast
