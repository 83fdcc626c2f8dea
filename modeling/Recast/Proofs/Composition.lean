import Recast.Proofs.Capture
/-!
# Composition — one substitution after another

Class by class, what is above a use gets its arguments: those of the use are put into the supertypes of its class, what
comes out into the supertypes of theirs, and so on up.  It makes no difference where on the way arguments are put in.
Two substitutions in a row are one by the arguments of the first with the second put into them
(`TypeArgument.subst_subst`), whatever wildcards meet: bounds of bounds lose the same whether they meet early or late.

The first substitution has to have an argument for each variable, and there must be no array of one, since for a
wildcard that would stay and be open to the second.  Each parameter for itself changes nothing (`TypeArgument.subst_own`).

So where the supertypes of all classes are declared in this way, a search and a substitution change places: what is
found above a use with other arguments is what is found above the use, with the arguments put in
(`Hierarchy.supertype?_subst`).
-/
namespace Recast

namespace Instantiation

/-- **Two substitutions as one**: the arguments of the first, with the second put into them. -/
def andThen (i j : Instantiation) : Instantiation := ⟨i.parameters, i.arguments.map (·.subst j)⟩

/-- **Each parameter for itself.** -/
def own (ps : List String) : Instantiation := ⟨ps, ps.map fun p => .exact (.ofVar p)⟩

/-- **Each variable has an argument**, and none stands for an array of it. -/
def Covers (i : Instantiation) (vs : List TypeVar) : Prop := ∀ v ∈ vs, v.dimension = 0 ∧ ∃ a, i.get? v.name = some a

variable {i j : Instantiation} {vs : List TypeVar} {v : TypeVar} {n : String}

theorem covers_of_parameters (hlen : i.arguments.length = i.parameters.length)
    (hvs : ∀ v ∈ vs, v.name ∈ i.parameters ∧ v.dimension = 0) : i.Covers vs :=
  fun v hv => ⟨(hvs v hv).2, i.exists_get? hlen.symm (hvs v hv).1⟩

theorem find?_map (f : TypeArgument → TypeArgument) (n : String) : ∀ (ps : List String) (as : List TypeArgument),
    find? ps (as.map f) n = (find? ps as n).map f
  | [], [] => rfl
  | [], _ :: _ => rfl
  | _ :: _, [] => rfl
  | p :: ps, a :: as => by
    rw [List.map_cons, find?, find?]
    split
    · rfl
    · exact find?_map f n ps as

theorem get?_andThen (i j : Instantiation) (n : String) : (i.andThen j).get? n = (i.get? n).map (·.subst j) :=
  find?_map (·.subst j) n i.parameters i.arguments

theorem find?_own {a : TypeArgument} : ∀ {ps : List String},
    find? ps (ps.map fun p => .exact (.ofVar p)) n = some a → a = .exact (.ofVar n)
  | p :: ps, h => by
    rw [List.map_cons, find?] at h
    split at h
    · rename_i heq
      subst heq
      exact (Option.some.inj h).symm
    · exact find?_own h

/-- A variable that is put in for itself stays, with its dimensions. -/
theorem ofVar_own (ps : List String) (v : TypeVar) : (own ps).ofVar v = .exact (.var v) := by
  unfold ofVar
  cases ha : (own ps).get? v.name with
  | none => rfl
  | some a =>
    obtain rfl := find?_own ha
    change TypeArgument.exact (.var ⟨v.name, 0 + v.dimension⟩) = .exact (.var v)
    rw [UInt32.zero_add]

/-- **The one step of composition**: the argument of a variable, with the second substitution put in. -/
theorem Covers.ofVar_andThen (h : i.Covers [v]) (j : Instantiation) : (i.ofVar v).subst j = (i.andThen j).ofVar v := by
  obtain ⟨hd, a, ha⟩ := h v (List.mem_singleton_self v)
  obtain ⟨name, d⟩ := v
  -- without a dimension the argument comes in as it is, also where it is no type
  obtain rfl : d = 0 := hd
  have hthen : (i.andThen j).get? name = some (a.subst j) := by
    rw [get?_andThen, ha]
    rfl
  rw [ofVar_of_get? ha, ofVar_of_get? hthen]

theorem covers_append {us : List TypeVar} : i.Covers (us ++ vs) ↔ i.Covers us ∧ i.Covers vs := List.forall_mem_append

end Instantiation

open Instantiation

/-! ## Bounds that meet -/

namespace TypeArgument

theorem asUpper_asUpper (a : TypeArgument) : a.asUpper.asUpper = a.asUpper := by cases a <;> rfl

theorem asLower_asLower (a : TypeArgument) : a.asLower.asLower = a.asLower := by cases a <;> rfl

theorem asUpper_asLower (a : TypeArgument) : a.asLower.asUpper = .any := by cases a <;> rfl

theorem asLower_asUpper (a : TypeArgument) : a.asUpper.asLower = .any := by cases a <;> rfl

/-- **A bound may be taken before a substitution or after it.** -/
theorem subst_asUpper (j : Instantiation) (a : TypeArgument) : a.asUpper.subst j = (a.subst j).asUpper := by
  cases a with
  | exact t => rfl
  | any => rfl
  | upper t => exact (asUpper_asUpper _).symm
  -- a bound of the other sense is lost at once here, and there after the substitution
  | lower t => exact (asUpper_asLower _).symm

theorem subst_asLower (j : Instantiation) (a : TypeArgument) : a.asLower.subst j = (a.subst j).asLower := by
  cases a with
  | exact t => rfl
  | any => rfl
  | upper t => exact (asLower_asUpper _).symm
  | lower t => exact (asLower_asLower _).symm

end TypeArgument

/-! ## Composition -/

variable {i : Instantiation}

mutual

theorem ClassType.subst_subst (j : Instantiation) : ∀ c : ClassType, i.Covers c.occurrences →
    (c.subst i).subst j = c.subst (i.andThen j)
  | ⟨_, none, _⟩, _ => rfl
  | ⟨_, some as, _⟩, h => by
    rw [ClassType.subst, ClassType.subst, ClassType.subst, substArguments_substArguments j as h]

theorem Ty.subst_subst (j : Instantiation) : ∀ t : Ty, i.Covers t.occurrences →
    (t.subst i).subst j = t.subst (i.andThen j)
  | .primitive .., _ => rfl
  | .object c, h => congrArg (fun c => TypeArgument.exact (.object c)) (c.subst_subst j h)
  | .var _, h => h.ofVar_andThen j

/-- **Two substitutions in a row are one.** -/
theorem TypeArgument.subst_subst (j : Instantiation) : ∀ a : TypeArgument, i.Covers a.occurrences →
    (a.subst i).subst j = a.subst (i.andThen j)
  | .exact t, h => t.subst_subst j h
  | .any, _ => rfl
  | .upper t, h => (TypeArgument.subst_asUpper j (t.subst i)).trans (congrArg TypeArgument.asUpper (t.subst_subst j h))
  | .lower t, h => (TypeArgument.subst_asLower j (t.subst i)).trans (congrArg TypeArgument.asLower (t.subst_subst j h))

theorem substArguments_substArguments (j : Instantiation) : ∀ as : List TypeArgument,
    i.Covers (argumentOccurrences as) → substArguments j (substArguments i as) = substArguments (i.andThen j) as
  | [], _ => rfl
  | a :: as, h => by
    obtain ⟨ha, has⟩ := covers_append.1 h
    rw [substArguments, substArguments, substArguments, a.subst_subst j ha, substArguments_substArguments j as has]

end

mutual

theorem ClassType.subst_own (ps : List String) : ∀ c : ClassType, c.subst (own ps) = c
  | ⟨_, none, _⟩ => rfl
  | ⟨_, some as, _⟩ => by rw [ClassType.subst, substArguments_own ps as]

theorem Ty.subst_own (ps : List String) : ∀ t : Ty, t.subst (own ps) = .exact t
  | .primitive .. => rfl
  | .object c => congrArg (fun c => TypeArgument.exact (.object c)) (c.subst_own ps)
  | .var v => ofVar_own ps v

/-- **Each parameter for itself changes nothing.** -/
theorem TypeArgument.subst_own (ps : List String) : ∀ a : TypeArgument, a.subst (own ps) = a
  | .exact t => t.subst_own ps
  | .any => rfl
  | .upper t => congrArg TypeArgument.asUpper (t.subst_own ps)
  | .lower t => congrArg TypeArgument.asLower (t.subst_own ps)

theorem substArguments_own (ps : List String) : ∀ as : List TypeArgument, substArguments (own ps) as = as
  | [] => rfl
  | a :: as => by rw [substArguments, a.subst_own ps, substArguments_own ps as]

end

/-- **Instantiation composes step by step.**  Where the variables of a type are parameters that have an argument each,
and no array of one is among them, substituting twice is substituting once, by the arguments with the second
substitution put into them, be they types, wildcards or bounds.  Each parameter for itself changes no type at all. -/
theorem substitution_composes (i j : Instantiation) (hlen : i.arguments.length = i.parameters.length) :
    (∀ a : TypeArgument, (∀ v ∈ a.occurrences, v.name ∈ i.parameters ∧ v.dimension = 0) →
      (a.subst i).subst j = a.subst ⟨i.parameters, i.arguments.map (·.subst j)⟩) ∧
    (∀ c : ClassType, (∀ v ∈ c.occurrences, v.name ∈ i.parameters ∧ v.dimension = 0) →
      (c.subst i).subst j = c.subst ⟨i.parameters, i.arguments.map (·.subst j)⟩) ∧
    ∀ ps : List String, (∀ a : TypeArgument, a.subst ⟨ps, ps.map fun p => .exact (.ofVar p)⟩ = a) ∧
      ∀ c : ClassType, c.subst ⟨ps, ps.map fun p => .exact (.ofVar p)⟩ = c := by
  refine ⟨fun a ha => ?_, fun c hc => ?_, fun ps => ⟨fun a => ?_, fun c => ?_⟩⟩
  · exact a.subst_subst j (covers_of_parameters hlen ha)
  · exact c.subst_subst j (covers_of_parameters hlen hc)
  · exact a.subst_own ps
  · exact c.subst_own ps

/-- `Map<? extends A, ? super B>`, for arguments `A` and `B`. -/
def boundedMap (a b : TypeArgument) : ClassType := ⟨"java/util/Map", some [a.asUpper, b.asLower], 0⟩

/-- `Map<? extends K, ? super V>` with `? super S` for `K` and `List<? extends S>` for `V`, and then `?` for `S`, is
`Map<?, ? super List<?>>`, and so it is with the arguments put in that have no `S` left. -/
theorem substitution_composes_map :
    let list (a : TypeArgument) : TypeArgument := .exact (.object ⟨"java/util/List", some [a], 0⟩)
    let map := boundedMap (.exact (.ofVar "K")) (.exact (.ofVar "V"))
    (map.subst ⟨["K", "V"], [.lower (.ofVar "S"), list (.upper (.ofVar "S"))]⟩).subst ⟨["S"], [.any]⟩ =
      map.subst ⟨["K", "V"], [.any, list .any]⟩ ∧
    map.subst ⟨["K", "V"], [.any, list .any]⟩ = boundedMap .any (list .any) ∧
    map.subst ⟨["V", "K"], [.exact (.ofVar "V"), .exact (.ofVar "K")]⟩ = map := by
  intro list map
  obtain ⟨-, hclass, hown⟩ := substitution_composes
    ⟨["K", "V"], [.lower (.ofVar "S"), list (.upper (.ofVar "S"))]⟩ ⟨["S"], [.any]⟩ rfl
  refine ⟨hclass map ?_, rfl, (hown ["V", "K"]).2 map⟩
  decide

/-! ## On the way up -/

/-- A type without variables is no other after a substitution. -/
theorem ClassType.subst_of_no_occurrences {c : ClassType} (h : c.occurrences = []) (j : Instantiation) :
    c.subst j = c := by
  have hcovers : (own []).Covers c.occurrences := by
    rw [h]
    exact nofun
  calc c.subst j
      = (c.subst (own [])).subst j := by rw [c.subst_own]
    _ = c.subst (own []) := c.subst_subst j hcovers
    _ = c := c.subst_own []

theorem ClassType.arguments_subst (j : Instantiation) (c : ClassType) :
    (c.subst j).arguments = c.arguments.map (substArguments j) := by
  obtain ⟨n, as, d⟩ := c
  cases as <;> rfl

theorem ClassType.raw_subst (j : Instantiation) (c : ClassType) : c.raw.subst j = c.raw := rfl

/-- **Supertypes declared in the class's own parameters**, none of them in an array. -/
def ClassDecl.Flat (c : ClassDecl) : Prop :=
  ∀ s ∈ c.declaredSupertypes, ∀ v ∈ s.occurrences, v.name ∈ c.parameters ∧ v.dimension = 0

/-- What is above a use with other arguments is what is above the use, with the arguments put in. -/
theorem ClassDecl.Flat.instantiate_subst {c : ClassDecl} (hc : c.Flat) {s : ClassType} (hs : s ∈ c.declaredSupertypes)
    (j : Instantiation) (as : Option (List TypeArgument)) :
    c.instantiate (as.map (substArguments j)) s = (c.instantiate as s).subst j := by
  unfold instantiate
  by_cases hnone : c.parameters = []
  · -- a class without parameters declares its supertypes without variables
    have hclosed : s.occurrences = [] := by
      refine List.eq_nil_iff_forall_not_mem.2 fun v hv => ?_
      have hmem := (hc s hs v hv).1
      rw [hnone] at hmem
      cases hmem
    rw [if_pos hnone, if_pos hnone, s.subst_of_no_occurrences hclosed]
  · rw [if_neg hnone, if_neg hnone]
    cases as with
    | none => exact (s.raw_subst j).symm
    | some as =>
      have hlength : (substArguments j as).length = as.length := by rw [substArguments_eq_map, List.length_map]
      simp only [Option.map_some, hlength]
      split
      · rename_i hlen
        have hcovers : (Instantiation.mk c.parameters as).Covers s.occurrences := covers_of_parameters hlen (hc s hs)
        rw [substArguments_eq_map]
        exact (s.subst_subst j hcovers).symm
      · -- arguments of another number are dropped, before a substitution or after it
        exact (s.raw_subst j).symm

namespace Hierarchy

/-- **Every class declares its supertypes in its own parameters**, none of them in an array. -/
def Flat (h : Hierarchy) : Prop := ∀ n c, h.find? n = some c → c.Flat

variable {h : Hierarchy}

theorem Flat.directSupertypes_subst (hflat : h.Flat) (j : Instantiation) (use : ClassType) :
    h.directSupertypes (use.subst j) = (h.directSupertypes use).map (·.subst j) := by
  unfold directSupertypes
  rw [use.name_subst, use.arguments_subst]
  cases hc : h.find? use.name with
  | none => rfl
  | some c =>
    rw [List.map_map]
    exact List.map_congr_left fun s hs => (hflat _ c hc).instantiate_subst hs j use.arguments

/-- **A search goes the same way for all arguments**: its turns go by names, and what it comes upon has the arguments
put in. -/
theorem Flat.search_subst (hflat : h.Flat) (j : Instantiation) (target : String) (seen : List String)
    (queue : List ClassType) :
    h.search target seen (queue.map (·.subst j)) = (h.search target seen queue).map (·.subst j) := by
  fun_induction h.search target seen queue with
  | case1 => rw [List.map_nil, search]; rfl
  | case2 seen c rest heq =>
    rw [List.map_cons, search, if_pos ((c.name_subst j).trans heq)]
    rfl
  | case3 seen c rest hne hs ih =>
    rw [List.map_cons, search, c.name_subst, if_neg hne, if_pos hs]
    exact ih
  | case4 seen c rest hne hs ih =>
    rw [List.map_cons, search, c.name_subst, if_neg hne, if_neg hs, hflat.directSupertypes_subst, ← List.map_append]
    exact ih

/-- Arguments may be put in at either end of the way up. -/
theorem Flat.supertype?_subst (hflat : h.Flat) (j : Instantiation) (use : ClassType) (target : String) :
    h.supertype? (use.subst j) target = (h.supertype? use target).map (·.subst j) :=
  hflat.search_subst j target [] [use]

/-- **However long the way, one substitution is enough**: what is above a use of a class is what is above the class in
terms of its own parameters, with the arguments of the use put in. -/
theorem Flat.supertype?_parameterized (hflat : h.Flat) {ps : List String} (hps : ps.Nodup) {as : List TypeArgument}
    (hlen : ps.length = as.length) (name target : String) (d : UInt32) :
    h.supertype? ⟨name, some as, d⟩ target =
      (h.supertype? ⟨name, some (ps.map fun p => .exact (.ofVar p)), d⟩ target).map (·.subst ⟨ps, as⟩) := by
  have hown : (ClassType.mk name (some (ps.map fun p => .exact (.ofVar p))) d).subst ⟨ps, as⟩ = ⟨name, some as, d⟩ := by
    rw [ClassType.subst, substArguments_parameters hlen fun v a => find?_of_mem_zip hps]
  rw [← hown]
  exact hflat.supertype?_subst ⟨ps, as⟩ _ target

/-- The platform classes declare their supertypes so. -/
theorem flat_platform : platform.Flat := by
  have hclasses : ∀ c ∈ platform.classes, ∀ s ∈ c.declaredSupertypes, ∀ v ∈ s.occurrences,
      v.name ∈ c.parameters ∧ v.dimension = 0 := by decide
  exact fun n c hc => hclasses c (List.mem_of_find?_eq_some hc)

end Hierarchy

end Recast
