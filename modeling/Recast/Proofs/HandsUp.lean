import Recast.Hierarchy.Platform
import Recast.Proofs.Reach
/-!
# Handing up — type arguments on the way to a supertype

A class hands its arguments up where each of its supertypes is raw or used with the class's own parameters, in their
order.  A use of such a class has supertypes with the arguments of the use or with none
(`ClassDecl.HandsUp.arguments_instantiate`), and so has what a search finds, turn by turn, where all the classes that
can be reached are of this kind (`Hierarchy.HandsUp.arguments_supertype?`).

Collections and maps hand their arguments up.  A class that fixes an argument, drops one or changes their order does
not.
-/
namespace Recast

namespace Instantiation

theorem find?_of_mem_zip : ∀ {ps : List String} {as : List TypeArgument} {v : String} {a : TypeArgument},
    ps.Nodup → (v, a) ∈ ps.zip as → find? ps as v = some a
  | p :: ps, b :: as, v, a, hnodup, hmem => by
    rw [find?]
    rcases List.mem_cons.1 hmem with heq | hmem
    · cases heq
      exact if_pos rfl
    · have hne : p ≠ v := by
        rintro rfl
        exact (List.nodup_cons.1 hnodup).1 (List.of_mem_zip hmem).1
      rw [if_neg hne]
      exact find?_of_mem_zip (List.nodup_cons.1 hnodup).2 hmem

/-- A parameter becomes its argument, wildcards included. -/
theorem ofVar_of_get? {i : Instantiation} {v : String} {a : TypeArgument} (h : i.get? v = some a) :
    i.ofVar ⟨v, 0⟩ = a := by
  unfold ofVar
  rw [h]
  cases a with
  | exact t =>
    have hself : t.withDimension t.dimension = t := by rcases t with _ | ⟨_, _, _⟩ | _ <;> rfl
    simp only [UInt32.add_zero, hself]
  | _ => rfl

theorem substArguments_parameters {i : Instantiation} : ∀ {ps : List String} {as : List TypeArgument},
    ps.length = as.length → (∀ v a, (v, a) ∈ ps.zip as → i.get? v = some a) →
      substArguments i (ps.map fun v => .exact (.ofVar v)) = as
  | [], [], _, _ => by rw [List.map_nil, substArguments]
  | p :: ps, a :: as, hlen, hget => by
    have hhead : i.ofVar ⟨p, 0⟩ = a := ofVar_of_get? (hget p a List.mem_cons_self)
    rw [List.map_cons, substArguments, TypeArgument.subst, Ty.ofVar, Ty.subst, hhead,
      substArguments_parameters (Nat.succ.inj hlen) fun v b hmem => hget v b (List.mem_cons_of_mem _ hmem)]

end Instantiation

namespace ClassDecl

/-- **A class that hands its arguments up.** -/
structure HandsUp (c : ClassDecl) : Prop where
  nodup : c.parameters.Nodup
  above : ∀ s ∈ c.declaredSupertypes, s.arguments = none ∨
    c.parameters ≠ [] ∧ s.arguments = some (c.parameters.map fun v => .exact (.ofVar v))

/-- The supertypes of a use have the arguments of the use, or none. -/
theorem HandsUp.arguments_instantiate {c : ClassDecl} (hc : c.HandsUp) {s : ClassType} (hs : s ∈ c.declaredSupertypes)
    (as : Option (List TypeArgument)) :
    (c.instantiate as s).arguments = none ∨ (c.instantiate as s).arguments = as := by
  obtain ⟨n, args, d⟩ := s
  unfold instantiate
  rcases hc.above _ hs with hraw | ⟨hparams, hown⟩
  · -- raw it stays, whatever is put in
    obtain rfl : args = none := hraw
    refine .inl ?_
    split
    · rfl
    · split
      · split
        · rw [ClassType.subst]
        · rfl
      · rfl
  · obtain rfl : args = _ := hown
    rw [if_neg hparams]
    cases as with
    | none => exact .inl rfl
    | some as =>
      by_cases hlen : as.length = c.parameters.length
      · have hsubst : substArguments ⟨c.parameters, as⟩ (c.parameters.map fun v => .exact (.ofVar v)) = as :=
          Instantiation.substArguments_parameters hlen.symm fun v a => Instantiation.find?_of_mem_zip hc.nodup
        refine .inr ?_
        simp only [if_pos hlen, ClassType.subst, hsubst]
      · -- arguments of another number are dropped
        simp only [if_neg hlen]
        exact .inl rfl

end ClassDecl

namespace Hierarchy

/-- **Every class from the named one up hands its arguments up.** -/
def HandsUp (h : Hierarchy) (name : String) : Prop := ∀ n c, h.Reaches name n → h.find? n = some c → c.HandsUp

variable {h : Hierarchy} {name target : String} {as : Option (List TypeArgument)} {seen : List String}
  {queue : List ClassType} {use found : ClassType}

/-- What is above a use keeps the arguments of the use or loses them. -/
theorem HandsUp.arguments_directSupertypes (hup : h.HandsUp name) (hreach : h.Reaches name use.name)
    {above : ClassType} (habove : above ∈ h.directSupertypes use) :
    above.arguments = none ∨ above.arguments = use.arguments := by
  unfold directSupertypes at habove
  split at habove
  · rename_i c hc
    obtain ⟨s, hs, rfl⟩ := List.mem_map.1 habove
    exact (hup _ c hreach hc).arguments_instantiate hs use.arguments
  · cases habove

/-- **A search finds the arguments it has started with, or none**: nothing else comes into its queue. -/
theorem HandsUp.arguments_search (hup : h.HandsUp name)
    (hqueue : ∀ c ∈ queue, h.Reaches name c.name ∧ (c.arguments = none ∨ c.arguments = as))
    (hf : h.search target seen queue = some found) : found.arguments = none ∨ found.arguments = as := by
  fun_induction h.search target seen queue with
  | case1 => cases hf
  | case2 seen c rest heq =>
    injection hf with hf
    exact hf ▸ (hqueue c List.mem_cons_self).2
  | case3 seen c rest hne hs ih => exact ih (fun d hd => hqueue d (List.mem_cons_of_mem _ hd)) hf
  | case4 seen c rest hne hs ih =>
    obtain ⟨hreach, hargs⟩ := hqueue c List.mem_cons_self
    refine ih (fun d hd => ?_) hf
    rcases List.mem_append.1 hd with hd | hd
    · exact hqueue d (List.mem_cons_of_mem _ hd)
    · have hextends : h.Extends c.name d.name := (mem_names_directSupertypes c d.name).1 (List.mem_map_of_mem hd)
      refine ⟨hreach.tail hextends, ?_⟩
      rcases hup.arguments_directSupertypes hreach hd with hnone | hsame
      · exact .inl hnone
      · exact hsame ▸ hargs

theorem HandsUp.arguments_supertype? (hup : h.HandsUp use.name) (hf : h.supertype? use target = some found) :
    found.arguments = none ∨ found.arguments = use.arguments :=
  hup.arguments_search (List.forall_mem_singleton.2 ⟨.refl, .inr rfl⟩) hf

/-- It is enough to look at names that nothing leads out of. -/
theorem handsUp_of_closed {names : List String} (hname : name ∈ names)
    (hnames : ∀ n ∈ names, ∀ c, h.find? n = some c → c.HandsUp ∧ ∀ s ∈ c.declaredSupertypes, s.name ∈ names) :
    h.HandsUp name := by
  intro n c hreach hc
  have hn : n ∈ names := by
    clear hc
    induction hreach with
    | refl => exact hname
    | tail _ hextends ih =>
      obtain ⟨d, hd, hm⟩ := extends_iff.1 hextends
      obtain ⟨s, hs, rfl⟩ := List.mem_map.1 hm
      exact (hnames _ ih d hd).2 s hs
  exact (hnames n hn c hc).1

/-- Maps hand up keys and values. -/
theorem handsUp_hashMap : platform.HandsUp "java/util/HashMap" := by
  have hclosed : ∀ n ∈ ["java/util/HashMap", "java/util/Map", ClassType.rootName], ∀ c, platform.find? n = some c →
      c.HandsUp ∧ ∀ s ∈ c.declaredSupertypes, s.name ∈ ["java/util/HashMap", "java/util/Map", ClassType.rootName] := by
    simp only [List.forall_mem_cons]
    refine ⟨fun c hc => ?_, fun c hc => ?_, fun c hc => ?_, nofun⟩
    · obtain rfl : Platform.hashMap = c := Option.some.inj hc
      have habove : Platform.hashMap.declaredSupertypes =
          [.root, Platform.parameterized "java/util/Map" ["K", "V"]] := rfl
      refine ⟨⟨by decide, ?_⟩, by decide⟩
      rw [habove]
      exact List.forall_mem_cons.2 ⟨.inl rfl, List.forall_mem_singleton.2 (.inr ⟨nofun, rfl⟩)⟩
    · obtain rfl : Platform.map = c := Option.some.inj hc
      have habove : Platform.map.declaredSupertypes = [.root] := rfl
      refine ⟨⟨by decide, ?_⟩, by decide⟩
      rw [habove]
      exact List.forall_mem_singleton.2 (.inl rfl)
    · obtain rfl : Platform.object = c := Option.some.inj hc
      exact ⟨⟨by decide, nofun⟩, nofun⟩
  exact handsUp_of_closed List.mem_cons_self hclosed

end Hierarchy

end Recast
