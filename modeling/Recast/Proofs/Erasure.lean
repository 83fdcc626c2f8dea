import Mathlib.Data.List.Forall2
import Recast.Proofs.Plan
import Recast.Proofs.Reach
/-!
# Erasure — a use that gives up its type arguments still fits

An erased use starts a search through the hierarchy with other supertypes than the use itself: a class that passes its
parameters on has raw ones, a class that fixes them has the same.  Still both searches enter the same names in the same
order, and what stands in the one queue stands in the other with its type arguments or without
(`Hierarchy.search_erasesTo`).  Arguments that are missing are an unchecked conversion and fit, so whatever takes a use
takes it erased, and an erased target takes whatever the target took.

A class takes itself, since each argument contains itself; so a class and its raw form take each other, and a target
that is picked for a cast fits the type the cast is made for.
-/
namespace Recast

/-! ## An argument contains itself -/

mutual

theorem Ty.accepts_self (b : TypeBounds) : ∀ t : Ty, t.accepts b t = true
  | .primitive p d => by
    rw [Ty.accepts, beq_self_eq_true, beq_self_eq_true]
    rfl
  | .object c => by
    rw [Ty.accepts]
    exact c.accepts_self b
  | .var v => by rw [Ty.accepts, beq_self_eq_true]

theorem ClassType.accepts_self (b : TypeBounds) : ∀ c : ClassType, c.accepts b c = true
  | ⟨n, none, d⟩ => by
    rw [ClassType.accepts, beq_self_eq_true, beq_self_eq_true]
    rfl
  | ⟨n, some as, d⟩ => by
    rw [ClassType.accepts, beq_self_eq_true, beq_self_eq_true, containsAll_self b as, Bool.or_true]
    rfl

theorem TypeArgument.contains_self (b : TypeBounds) : ∀ a : TypeArgument, a.contains b a = true
  | .exact t => by
    rw [TypeArgument.contains]
    exact t.accepts_self b
  | .any => by rw [TypeArgument.contains]
  | .upper t => by
    rw [TypeArgument.contains]
    exact t.accepts_self b
  | .lower t => by
    rw [TypeArgument.contains]
    exact t.accepts_self b

theorem containsAll_self (b : TypeBounds) : ∀ as : List TypeArgument, containsAll b as as = true
  | [] => by rw [containsAll]
  | a :: as => by
    rw [containsAll, a.contains_self b, containsAll_self b as]
    rfl

end

theorem rawOrFit_self (b : TypeBounds) : ∀ as : Option (List TypeArgument), rawOrFit b as as = true
  | none => rfl
  | some as => by
    change argumentsFit b as as = true
    rw [argumentsFit, containsAll_self, Bool.or_true]

theorem rawOrFit_none (b : TypeBounds) (as : Option (List TypeArgument)) : rawOrFit b as none = true := by
  cases as <;> rfl

/-! ## Two searches side by side -/

/-- **The same class, with its type arguments or without.** -/
structure ClassType.ErasesTo (c c' : ClassType) : Prop where
  name : c'.name = c.name
  arguments : c'.arguments = none ∨ c'.arguments = c.arguments

theorem ClassType.ErasesTo.refl (c : ClassType) : c.ErasesTo c := ⟨rfl, .inr rfl⟩

namespace Hierarchy

variable {h : Hierarchy} {b : TypeBounds} {c c' target source : ClassType}

/-- What a class declares above itself is at most erased when a use of it is. -/
theorem instantiate_erasesTo (hc : c.ErasesTo c') (d : ClassDecl) (declared : ClassType) :
    (d.instantiate c.arguments declared).ErasesTo (d.instantiate c'.arguments declared) := by
  rcases hc.arguments with hnone | hsame
  · refine ⟨by rw [d.name_instantiate, d.name_instantiate], ?_⟩
    unfold ClassDecl.instantiate
    split
    · exact .inr rfl
    · rw [hnone]
      exact .inl rfl
  · rw [hsame]
    exact .refl _

theorem directSupertypes_erasesTo (hc : c.ErasesTo c') :
    List.Forall₂ ClassType.ErasesTo (h.directSupertypes c) (h.directSupertypes c') := by
  unfold directSupertypes
  rw [hc.name]
  cases h.find? c.name with
  | none => exact .nil
  | some d =>
    rw [List.forall₂_map_left_iff, List.forall₂_map_right_iff, List.forall₂_same]
    exact fun declared _ => instantiate_erasesTo hc d declared

/-- **Searches that start alike go on alike.**  Both look at names alone, so a turn of the one is a turn of the other,
and the queues answer to each other afterwards as before. -/
theorem search_erasesTo (target : String) (seen : List String) {queue queue' : List ClassType}
    (hq : List.Forall₂ ClassType.ErasesTo queue queue') :
    Option.Rel ClassType.ErasesTo (h.search target seen queue) (h.search target seen queue') := by
  fun_induction h.search target seen queue generalizing queue' with
  | case1 =>
    cases hq
    rw [search]
    exact .none
  | case2 seen c rest heq =>
    cases hq with
    | cons hc hrest =>
      rw [search, if_pos (hc.name.trans heq)]
      exact .some hc
  | case3 seen c rest hne hs ih =>
    cases hq with
    | cons hc hrest =>
      rw [search, hc.name, if_neg hne, if_pos hs]
      exact ih hrest
  | case4 seen c rest hne hs ih =>
    cases hq with
    | cons hc hrest =>
      rw [search, hc.name, if_neg hne, if_neg hs]
      exact ih (List.rel_append hrest (directSupertypes_erasesTo hc))

/-- What is found above a use is found above the erased use too. -/
theorem exists_supertype?_erasesTo (hc : c.ErasesTo c') {name : String} {found : ClassType}
    (hf : h.supertype? c name = some found) : ∃ found', h.supertype? c' name = some found' ∧ found.ErasesTo found' := by
  have hboth := search_erasesTo (h := h) name [] (.cons hc .nil)
  unfold supertype? at hf ⊢
  rw [hf] at hboth
  generalize h.search name [] [c'] = result at hboth
  cases hboth with
  | some herases => exact ⟨_, rfl, herases⟩

/-! ## Assignability -/

/-- **Whatever takes a use takes it erased.** -/
theorem assignable_erased_source (ha : h.assignable b target source = true) :
    h.assignable b target source.raw = true := by
  rw [assignable_iff] at ha ⊢
  rcases ha with hroot | ⟨hname, hdim, found, hf, hfit⟩
  · exact .inl hroot
  -- the same class is found, and only its type arguments may be missing
  have hflat : (source.withDimension 0).ErasesTo (source.raw.withDimension 0) := ⟨rfl, .inl rfl⟩
  obtain ⟨found', hf', herases⟩ := exists_supertype?_erasesTo hflat hf
  refine .inr ⟨hname, hdim, found', hf', ?_⟩
  rcases herases.arguments with hnone | hsame
  · rw [hnone]
    exact rawOrFit_none b _
  · rw [hsame]
    exact hfit

/-- **An erased target takes whatever the target takes.** -/
theorem assignable_erased_target (ha : h.assignable b target source = true) :
    h.assignable b target.raw source = true := by
  rw [assignable_iff] at ha ⊢
  rcases ha with ⟨hname, -, hle⟩ | ⟨hname, hdim, found, hf, -⟩
  · exact .inl ⟨hname, rfl, hle⟩
  · exact .inr ⟨hname, hdim, found, hf, rfl⟩

/-- **A class takes itself**, and so does the root but for its parameterizations. -/
theorem assignable_self (h : Hierarchy) (b : TypeBounds)
    (hc : c.name ≠ ClassType.rootName ∨ c.isRaw = true) : h.assignable b c c = true := by
  rw [assignable_iff]
  by_cases hname : c.name = ClassType.rootName
  · exact .inl ⟨hname, hc.resolve_left (fun hne => hne hname), UInt32.le_refl _⟩
  · exact .inr ⟨hname, rfl, c.withDimension 0, h.supertype?_self (c.withDimension 0), rawOrFit_self b _⟩

/-- **Erasure makes nothing unassignable.**  Whatever a target takes it takes erased, erased it takes the same, and both
at once.  A class takes itself and its raw form, and its raw form takes the class, the parameterizations of the root
apart, which take nothing; so the target that is picked for a cast fits the type that the cast is made for. -/
theorem erasure_keeps_assignable (h : Hierarchy) (b : TypeBounds) :
    (∀ target source, h.assignable b target source = true →
      h.assignable b target.raw source = true ∧ h.assignable b target source.raw = true ∧
        h.assignable b target.raw source.raw = true) ∧
    ∀ c : ClassType, c.name ≠ ClassType.rootName ∨ c.isRaw = true →
      h.assignable b c c = true ∧ h.assignable b c.raw c = true ∧ h.assignable b c c.raw = true ∧
        ∀ source, h.assignable b c (h.facts.castTarget b c source) = true := by
  refine ⟨fun target source ha => ?_, fun c hc => ?_⟩
  · have hsource := assignable_erased_source ha
    exact ⟨assignable_erased_target ha, hsource, assignable_erased_target hsource⟩
  · have hself := h.assignable_self b hc
    refine ⟨hself, assignable_erased_target hself, assignable_erased_source hself, fun source => ?_⟩
    rcases TypeFacts.castTarget_cases h.facts b c source with heq | ⟨heq, -, -⟩
    · rw [heq]
      exact hself
    · rw [heq]
      exact assignable_erased_source hself

/-- `C<String>`, which on the cycle of `spiral` is a `D<C<String>>`. -/
def cOfString : ClassType := ⟨"C", some [.exact (.object .string)], 0⟩

/-- `D<? extends C<String>>`. -/
def dOfC : ClassType := ⟨"D", some [.upper (.object cOfString)], 0⟩

/-- `D<? extends C<String>>` takes `C<String>`, and takes it raw, where the search comes upon `D` raw; and it takes itself
and its raw form. -/
theorem erasure_keeps_assignable_spiral :
    (spiral []).assignable .empty dOfC cOfString = true ∧ (spiral []).assignable .empty dOfC.raw cOfString = true ∧
    (spiral []).assignable .empty dOfC cOfString.raw = true ∧ dOfC.name ≠ ClassType.rootName ∧
    (spiral []).assignable .empty dOfC dOfC = true ∧ (spiral []).assignable .empty dOfC dOfC.raw = true := by
  have hname : dOfC.name ≠ ClassType.rootName := by decide
  have hfound : (spiral []).supertype? cOfString "D" = some ⟨"D", some [.exact (.object cOfString)], 0⟩ := by
    have habove : (spiral []).directSupertypes cOfString = [⟨"D", some [.exact (.object cOfString)], 0⟩] := rfl
    rw [supertype?, search, if_neg (by decide), if_neg (by decide), habove, List.nil_append, search, if_pos rfl]
  have hfit : rawOrFit .empty dOfC.arguments (some [.exact (.object cOfString)]) = true := by
    simp [rawOrFit, dOfC, argumentsFit, containsAll, TypeArgument.contains, Ty.accepts_self]
  have hassign : (spiral []).assignable .empty dOfC cOfString = true :=
    (assignable_iff _ _ _ _).2 (.inr ⟨hname, rfl, _, hfound, hfit⟩)
  obtain ⟨herase, hself⟩ := erasure_keeps_assignable (spiral []) .empty
  obtain ⟨htarget, hsource, -⟩ := herase dOfC cOfString hassign
  obtain ⟨hrefl, -, hraw, -⟩ := hself dOfC (.inl hname)
  exact ⟨hassign, htarget, hsource, hname, hrefl, hraw⟩

end Hierarchy

end Recast
