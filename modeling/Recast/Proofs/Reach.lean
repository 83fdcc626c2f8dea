import Mathlib.Logic.Relation
import Recast.Hierarchy.Assignable
/-!
# Reach — what a search through the hierarchy finds

A class extends its superclass and its interfaces, and an interface without a superclass the root.  By their names these
are the edges of a graph, in which cycles are allowed and many names need not be registered.  Both searches take turns
at a queue of uses and come to an end, since a turn uses up a registered name or shortens the queue, however the type
arguments grow meanwhile.  They find exactly the names that can be reached.

The arguments that a use carries never decide whether a name is reached, and the order of the interfaces does not
either; so neither matters to whether a raw type takes a value.
-/
namespace Recast

theorem ClassType.name_subst (i : Instantiation) (c : ClassType) : (c.subst i).name = c.name := by
  obtain ⟨n, as, d⟩ := c
  cases as <;> rfl

theorem ClassDecl.name_instantiate (c : ClassDecl) (as : Option (List TypeArgument)) (t : ClassType) :
    (c.instantiate as t).name = t.name := by
  unfold instantiate
  split
  · rfl
  · split
    · split
      · exact t.name_subst _
      · rfl
    · rfl

/-- **The same class but for what a search by name does not see**: type parameters, type arguments, methods, and the
order of the interfaces. -/
structure ClassDecl.Rearranged (c c' : ClassDecl) : Prop where
  kind : c'.kind = c.kind
  superclass : c'.superclass.map (·.name) = c.superclass.map (·.name)
  interfaces : (c.interfaces.map (·.name)).Perm (c'.interfaces.map (·.name))

namespace ClassDecl

theorem names_declaredSupertypes (c : ClassDecl) : c.declaredSupertypes.map (·.name) =
    (c.superclass.map (·.name)).toList ++ c.interfaces.map (·.name) ++
      if c.kind = .interface ∧ c.superclass.isNone then [ClassType.rootName] else [] := by
  unfold declaredSupertypes
  rw [List.map_append, List.map_append, Option.toList_map]
  split <;> rfl

theorem Rearranged.names_perm {c c' : ClassDecl} (h : c.Rearranged c') :
    (c.declaredSupertypes.map (·.name)).Perm (c'.declaredSupertypes.map (·.name)) := by
  have hnone : c'.superclass.isNone = c.superclass.isNone := by
    rw [← Option.isNone_map, h.superclass, Option.isNone_map]
  rw [names_declaredSupertypes, names_declaredSupertypes, h.superclass, h.kind, hnone]
  exact (h.interfaces.append_left _).append_right _

end ClassDecl

namespace Hierarchy

/-- **One step up from a class**, by names. -/
inductive Extends (h : Hierarchy) : String → String → Prop
  | superclass {n : String} {c : ClassDecl} {s : ClassType} (hc : h.find? n = some c) (hs : c.superclass = some s) :
    Extends h n s.name
  | interface {n : String} {c : ClassDecl} {i : ClassType} (hc : h.find? n = some c) (hi : i ∈ c.interfaces) :
    Extends h n i.name
  | root {n : String} {c : ClassDecl} (hc : h.find? n = some c) (hk : c.kind = .interface) (hs : c.superclass = none) :
    Extends h n ClassType.rootName

/-- Any number of steps up, or none. -/
def Reaches (h : Hierarchy) : String → String → Prop := Relation.ReflTransGen h.Extends

/-- **One turn of a search**, on the names it has entered and the uses in its queue: the first use is passed over, or
its name is entered and what is above it joins the queue. -/
inductive Turn (h : Hierarchy) : List String × List ClassType → List String × List ClassType → Prop
  | pass {seen : List String} {c : ClassType} (rest : List ClassType) (hs : seen.contains c.name = true) :
    Turn h (seen, c :: rest) (seen, rest)
  | enter {seen : List String} {c : ClassType} (rest : List ClassType) (hs : ¬ seen.contains c.name = true) :
    Turn h (seen, c :: rest) (c.name :: seen, rest ++ h.directSupertypes c)

/-- **The same classes**, each but for what a search by name does not see. -/
def Rearranges (h h' : Hierarchy) : Prop :=
  ∀ name, Option.Rel ClassDecl.Rearranged (h.find? name) (h'.find? name)

variable {h h' : Hierarchy} {seen : List String} {queue : List ClassType}

/-! ## Edges -/

theorem extends_iff {n m : String} :
    h.Extends n m ↔ ∃ c, h.find? n = some c ∧ m ∈ c.declaredSupertypes.map (·.name) := by
  simp only [ClassDecl.declaredSupertypes, List.map_append, List.mem_append, List.mem_map, Option.mem_toList]
  constructor
  · rintro (⟨hc, hs⟩ | ⟨hc, hi⟩ | ⟨hc, hk, hs⟩)
    · exact ⟨_, hc, .inl (.inl ⟨_, hs, rfl⟩)⟩
    · exact ⟨_, hc, .inl (.inr ⟨_, hi, rfl⟩)⟩
    · refine ⟨_, hc, .inr ⟨.root, ?_, rfl⟩⟩
      rw [if_pos ⟨hk, by rw [hs]; rfl⟩]
      exact List.mem_singleton_self _
  · rintro ⟨c, hc, (⟨s, hs, rfl⟩ | ⟨i, hi, rfl⟩) | ⟨s, hs, rfl⟩⟩
    · exact .superclass hc hs
    · exact .interface hc hi
    · split at hs
      · rename_i hroot
        obtain rfl := List.mem_singleton.1 hs
        exact .root hc hroot.1 (Option.isNone_iff_eq_none.1 hroot.2)
      · cases hs

/-- The classes right above a use are those that its class extends, whatever its arguments. -/
theorem mem_names_directSupertypes (use : ClassType) (n : String) :
    n ∈ (h.directSupertypes use).map (·.name) ↔ h.Extends use.name n := by
  rw [extends_iff]
  unfold directSupertypes
  cases hc : h.find? use.name with
  | none => simp
  | some c => simp [ClassDecl.name_instantiate]

/-! ## Turns -/

/-- **No search takes turns forever.** -/
theorem wellFounded_turn (h : Hierarchy) : WellFounded fun after before => h.Turn before after := by
  refine Subrelation.wf (fun ht => ?_)
    (InvImage.wf (fun s : List String × List ClassType => (h.unseen s.1, s.2.length))
      (Prod.lex Nat.lt_wfRel Nat.lt_wfRel).wf)
  cases ht with
  | pass rest hs => exact Prod.Lex.right _ (Nat.lt_succ_self _)
  | enter rest hs => exact h.enter_decreases rest hs

/-- As long as there is something in the queue there is a turn to take. -/
theorem exists_turn (h : Hierarchy) (seen : List String) (c : ClassType) (rest : List ClassType) :
    ∃ after, h.Turn (seen, c :: rest) after := by
  by_cases hs : seen.contains c.name = true
  · exact ⟨_, .pass rest hs⟩
  · exact ⟨_, .enter rest hs⟩

variable {c : ClassType} {rest : List ClassType} {after : List String × List ClassType}

/-- A search that has not found its target takes the turn. -/
theorem Turn.search_eq (ht : h.Turn (seen, c :: rest) after) {target : String} (hne : c.name ≠ target) :
    h.search target seen (c :: rest) = h.search target after.1 after.2 := by
  cases ht with
  | pass _ hs => rw [search, if_neg hne, if_pos hs]
  | enter _ hs => rw [search, if_neg hne, if_neg hs]

/-- One that comes upon its target ends. -/
theorem search_found (h : Hierarchy) (seen : List String) (c : ClassType) (rest : List ClassType) :
    h.search c.name seen (c :: rest) = some c := by
  rw [search, if_pos rfl]

/-- A listing takes turns too, and lists what it enters. -/
theorem Turn.namesAbove_eq (ht : h.Turn (seen, c :: rest) after) :
    ∃ entered, entered ⊆ [c.name] ∧ after.1 = entered ++ seen ∧
      h.namesAbove seen (c :: rest) = entered ++ h.namesAbove after.1 after.2 := by
  cases ht with
  | pass _ hs =>
    refine ⟨[], List.nil_subset _, rfl, ?_⟩
    rw [namesAbove, if_pos hs]
    rfl
  | enter _ hs =>
    refine ⟨[c.name], List.Subset.refl _, rfl, ?_⟩
    rw [namesAbove, if_neg hs]
    rfl

/-! ## What is found -/

/-- A name that is entered goes from those to come to those seen. -/
private theorem mem_or_mem_cons_of_mem_cons {n m : String} (hn : n ∈ m :: seen) (names : List String) :
    n ∈ seen ∨ n ∈ m :: names := by
  rcases List.mem_cons.1 hn with rfl | hn
  · exact .inr List.mem_cons_self
  · exact .inl hn

/-- What stands in the queue is listed, unless it was entered before. -/
theorem name_mem_namesAbove {c : ClassType} (hc : c ∈ queue) : c.name ∈ seen ∨ c.name ∈ h.namesAbove seen queue := by
  fun_induction h.namesAbove seen queue with
  | case1 => cases hc
  | case2 seen d rest hs ih =>
    rcases List.mem_cons.1 hc with rfl | hc
    · exact .inl (List.contains_iff_mem.1 hs)
    · exact ih hc
  | case3 seen d rest hs ih =>
    rcases List.mem_cons.1 hc with rfl | hc
    · exact .inr List.mem_cons_self
    · rcases ih (List.mem_append_left _ hc) with hseen | hlisted
      · exact mem_or_mem_cons_of_mem_cons hseen _
      · exact .inr (List.mem_cons_of_mem _ hlisted)

/-- **A listing is closed**: what extends a listed name is listed, unless it was entered before. -/
theorem namesAbove_closed {n m : String} (hn : n ∈ h.namesAbove seen queue) (hm : h.Extends n m) :
    m ∈ seen ∨ m ∈ h.namesAbove seen queue := by
  fun_induction h.namesAbove seen queue with
  | case1 => cases hn
  | case2 seen d rest hs ih => exact ih hn
  | case3 seen d rest hs ih =>
    have habove : m ∈ d.name :: seen ∨ m ∈ h.namesAbove (d.name :: seen) (rest ++ h.directSupertypes d) := by
      rcases List.mem_cons.1 hn with rfl | hn
      · obtain ⟨s, hs, rfl⟩ := List.mem_map.1 ((mem_names_directSupertypes d m).2 hm)
        exact name_mem_namesAbove (List.mem_append_right _ hs)
      · exact ih hn
    rcases habove with hseen | hlisted
    · exact mem_or_mem_cons_of_mem_cons hseen _
    · exact .inr (List.mem_cons_of_mem _ hlisted)

/-- **A listing is sound**: it lists what can be reached from the queue. -/
theorem reaches_of_mem_namesAbove {n : String} (hn : n ∈ h.namesAbove seen queue) :
    ∃ c ∈ queue, h.Reaches c.name n := by
  fun_induction h.namesAbove seen queue with
  | case1 => cases hn
  | case2 seen d rest hs ih =>
    obtain ⟨c, hc, hreach⟩ := ih hn
    exact ⟨c, List.mem_cons_of_mem _ hc, hreach⟩
  | case3 seen d rest hs ih =>
    rcases List.mem_cons.1 hn with rfl | hn
    · exact ⟨d, List.mem_cons_self, .refl⟩
    · obtain ⟨c, hc, hreach⟩ := ih hn
      rcases List.mem_append.1 hc with hc | hc
      · exact ⟨c, List.mem_cons_of_mem _ hc, hreach⟩
      · have hstep := (mem_names_directSupertypes d c.name).1 (List.mem_map_of_mem hc)
        exact ⟨d, List.mem_cons_self, .head hstep hreach⟩

/-- What was entered before is not listed again. -/
theorem not_mem_namesAbove {n : String} (hn : n ∈ seen) : n ∉ h.namesAbove seen queue := by
  fun_induction h.namesAbove seen queue with
  | case1 => exact List.not_mem_nil
  | case2 seen d rest hs ih => exact ih hn
  | case3 seen d rest hs ih =>
    rw [List.mem_cons]
    rintro (rfl | hlisted)
    · exact hs (List.contains_iff_mem.2 hn)
    · exact ih (List.mem_cons_of_mem _ hn) hlisted

theorem nodup_namesAbove (h : Hierarchy) (seen : List String) (queue : List ClassType) :
    (h.namesAbove seen queue).Nodup := by
  fun_induction h.namesAbove seen queue with
  | case1 => exact .nil
  | case2 seen d rest hs ih => exact ih
  | case3 seen d rest hs ih => exact List.nodup_cons.2 ⟨not_mem_namesAbove List.mem_cons_self, ih⟩

/-- **A listing from a single use** holds what can be reached from its class. -/
theorem mem_namesAbove_singleton (use : ClassType) (n : String) :
    n ∈ h.namesAbove [] [use] ↔ h.Reaches use.name n := by
  constructor
  · intro hn
    obtain ⟨c, hc, hreach⟩ := reaches_of_mem_namesAbove hn
    obtain rfl := List.mem_singleton.1 hc
    exact hreach
  · intro hreach
    induction hreach with
    | refl => exact (name_mem_namesAbove List.mem_cons_self).resolve_left List.not_mem_nil
    | tail _ hstep ih => exact (namesAbove_closed ih hstep).resolve_left List.not_mem_nil

theorem mem_supertypeNames (owner n : String) : n ∈ h.supertypeNames owner ↔ h.Reaches owner n :=
  mem_namesAbove_singleton (.ofName owner) n

/-- **A search finds its target exactly if a listing from the same state has it.**  Turn by turn the two go together,
and what a turn enters is not the target. -/
theorem isSome_search_iff {target : String} (s : List String × List ClassType) (hn : target ∉ s.1) :
    (h.search target s.1 s.2).isSome = true ↔ target ∈ h.namesAbove s.1 s.2 := by
  induction s using h.wellFounded_turn.induction with
  | _ s ih =>
    obtain ⟨seen, _ | ⟨c, rest⟩⟩ := s
    · simp [search, namesAbove]
    · by_cases heq : c.name = target
      · subst heq
        rw [search, if_pos rfl]
        exact iff_of_true rfl ((name_mem_namesAbove List.mem_cons_self).resolve_left hn)
      · obtain ⟨after, ht⟩ := h.exists_turn seen c rest
        obtain ⟨entered, hentered, hseen, hlisted⟩ := ht.namesAbove_eq
        have hfresh : target ∉ entered := fun hmem => heq (List.mem_singleton.1 (hentered hmem)).symm
        rw [ht.search_eq heq, hlisted, List.mem_append, or_iff_right hfresh]
        refine ih after ht fun hmem => ?_
        rw [hseen] at hmem
        exact (List.mem_append.1 hmem).elim hfresh hn

theorem name_of_search {target : String} {found : ClassType} (hf : h.search target seen queue = some found) :
    found.name = target := by
  fun_induction h.search target seen queue with
  | case1 => cases hf
  | case2 seen d rest heq =>
    injection hf with hf
    exact hf ▸ heq
  | case3 seen d rest hne hs ih => exact ih hf
  | case4 seen d rest hne hs ih => exact ih hf

/-- **A search from a single use** finds what can be reached from its class. -/
theorem isSome_supertype?_iff (use : ClassType) (target : String) :
    (h.supertype? use target).isSome = true ↔ h.Reaches use.name target :=
  (isSome_search_iff ([], [use]) List.not_mem_nil).trans (mem_namesAbove_singleton use target)

/-! ## What does not matter -/

theorem Rearranges.reaches_iff (hr : h.Rearranges h') (n m : String) : h'.Reaches n m ↔ h.Reaches n m := by
  have hextends : h'.Extends = h.Extends := by
    funext n m
    rw [eq_iff_iff, extends_iff, extends_iff]
    have hclass := hr n
    generalize h.find? n = c at hclass
    generalize h'.find? n = c' at hclass
    cases hclass with
    | none => rfl
    | some hc => simp only [Option.some.injEq, exists_eq_left', hc.names_perm.mem_iff]
  unfold Reaches
  rw [hextends]

/-- The verdict on a raw target: a search that finds it need not look at arguments. -/
theorem assignable_of_isRaw {target : ClassType} (ht : target.isRaw = true) (b : TypeBounds) (source : ClassType) :
    h.assignable b target source =
      if target.isRoot then true
      else if target.dimension ≠ source.dimension then
        decide (target.dimension < source.dimension) && target.name == ClassType.rootName
      else if target.name = ClassType.rootName then true
      else (h.supertype? (source.withDimension 0) target.name).isSome := by
  have hnone : target.arguments = none := Option.isNone_iff_eq_none.1 ht
  unfold assignable
  rw [ht, hnone, Bool.and_true]
  cases h.supertype? (source.withDimension 0) target.name <;> rfl

theorem Rearranges.isSome_supertype?_eq (hr : h.Rearranges h') {source source' : ClassType}
    (hname : source'.name = source.name) (target : String) :
    (h'.supertype? source' target).isSome = (h.supertype? source target).isSome := by
  rw [Bool.eq_iff_iff, isSome_supertype?_iff, isSome_supertype?_iff, hr.reaches_iff, hname]

theorem Rearranges.assignable_eq (hr : h.Rearranges h') {target source source' : ClassType}
    (ht : target.isRaw = true) (hname : source'.name = source.name) (hdim : source'.dimension = source.dimension)
    (b b' : TypeBounds) : h'.assignable b' target source' = h.assignable b target source := by
  have hflat : (source'.withDimension 0).name = (source.withDimension 0).name := hname
  have hfound := hr.isSome_supertype?_eq hflat target.name
  rw [assignable_of_isRaw ht, assignable_of_isRaw ht, hdim, hfound]

/-- **The searches through a hierarchy end, and find what can be reached.**  Cycles do not keep them going, nor do type
arguments that grow from step to step.  A search finds its target, under its name, exactly if it can be reached from
the class of the use it starts from; a listing has every name that can be reached, once.  So whether a target is found,
and whether a raw one takes a value, is the same for all type arguments, bounds and orders of the interfaces. -/
theorem searches_reach (h : Hierarchy) :
    (WellFounded fun after before => h.Turn before after) ∧
    (∀ (source : ClassType) (target : String),
      ((∃ found, h.supertype? source target = some found) ↔ h.Reaches source.name target) ∧
      ∀ found, h.supertype? source target = some found → found.name = target) ∧
    (∀ owner : String, (h.supertypeNames owner).Nodup ∧
      ∀ name, name ∈ h.supertypeNames owner ↔ h.Reaches owner name) ∧
    ∀ (h' : Hierarchy) (source source' : ClassType), h.Rearranges h' → source'.name = source.name →
      (∀ target, (h'.supertype? source' target).isSome = (h.supertype? source target).isSome) ∧
      ∀ (target : ClassType) (b b' : TypeBounds), target.isRaw = true → source'.dimension = source.dimension →
        h'.assignable b' target source' = h.assignable b target source := by
  refine ⟨h.wellFounded_turn, fun source target => ⟨?_, fun found hf => name_of_search hf⟩, fun owner => ?_,
    fun h' source source' hr hname => ⟨hr.isSome_supertype?_eq hname, ?_⟩⟩
  · rw [← Option.isSome_iff_exists]
    exact isSome_supertype?_iff source target
  · exact ⟨h.nodup_namesAbove [] [.ofName owner], mem_supertypeNames owner⟩
  · intro target b b' ht hdim
    exact hr.assignable_eq ht hname hdim b b'

/-- `class C<T> extends D<C<T>>` with the given interfaces and `class D<T> extends C<D<T>>`: a cycle on which type
arguments grow without end. -/
def spiral (interfaces : List ClassType) : Hierarchy :=
  let use (outer inner : String) : ClassType := ⟨outer, some [.exact (.object ⟨inner, some [.exact (.ofVar "T")], 0⟩)], 0⟩
  (empty.put ⟨"C", .ordinary, ["T"], some (use "D" "C"), interfaces, []⟩).put
    ⟨"D", .ordinary, ["T"], some (use "C" "D"), [], []⟩

/-- The order of the interfaces is no part of what a search sees. -/
theorem rearranges_spiral {is js : List ClassType} (hp : is.Perm js) : (spiral is).Rearranges (spiral js) := by
  intro name
  unfold spiral
  simp only [find?_put]
  split
  · exact .some ⟨rfl, rfl, .refl _⟩
  · split
    · exact .some ⟨rfl, rfl, hp.map _⟩
    · exact .none

/-- From `C<String>` the search comes round to `D`, and `B` takes a `C` of any kind. -/
theorem searches_reach_spiral :
    (∃ found, (spiral [.ofName "A", .ofName "B"]).supertype? ⟨"C", some [.exact (.object .string)], 0⟩ "D" = some found) ∧
    ((spiral [.ofName "A", .ofName "B"]).supertypeNames "D").Nodup ∧
    (spiral [.ofName "B", .ofName "A"]).assignable .empty (.ofName "B") (.ofName "C") =
      (spiral [.ofName "A", .ofName "B"]).assignable .empty (.ofName "B") ⟨"C", some [.exact (.object .string)], 0⟩ := by
  obtain ⟨-, hsearch, hlist, hsame⟩ := searches_reach (spiral [.ofName "A", .ofName "B"])
  have hreach : (spiral [.ofName "A", .ofName "B"]).Reaches "C" "D" :=
    .single (extends_iff.2 ⟨_, rfl, List.mem_cons_self⟩)
  have hrearranges := rearranges_spiral (List.Perm.swap (.ofName "B") (.ofName "A") [])
  refine ⟨((hsearch _ "D").1).2 hreach, (hlist "D").1, ?_⟩
  exact (hsame _ ⟨"C", some [.exact (.object .string)], 0⟩ (.ofName "C") hrearranges rfl).2 (.ofName "B") .empty .empty rfl
    rfl

end Hierarchy

end Recast
