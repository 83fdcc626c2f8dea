import Recast.Hierarchy.Overloads
import Recast.Proofs.Reach
/-!
# Overloading — which methods a call by name and count may mean

A use of a class answers to a name with the methods of that name in every class that can be reached from it, and to the
name of constructors with its own alone.  A call is overloaded exactly if two of these differ in their descriptors and
take its number of arguments (`Hierarchy.overloaded_iff`): a descriptor counts once, in however many classes it is
declared and wherever it stands in them.

So a hierarchy may be declared again with interfaces and methods in another order and with methods repeated, and the
calls on a class are overloaded as before; and a class answers at least with what the classes above it answer with.
-/
namespace Recast

namespace ClassDecl

/-- **The same class declared again**: interfaces and methods may stand in another order, and methods be repeated that
are `offered` already. -/
structure Redeclared (offered : MethodDecl → Prop) (c c' : ClassDecl) : Prop extends Rearranged c c' where
  kept : c.methods ⊆ c'.methods
  repeated : ∀ m ∈ c'.methods, m ∈ c.methods ∨ offered m

theorem mem_descriptors (c : ClassDecl) (member d : String) (arity : Nat) :
    d ∈ c.descriptors member arity ↔
      ⟨member, d⟩ ∈ c.methods ∧ MethodDecl.arity? ⟨member, d⟩ = some arity := by
  unfold descriptors
  rw [List.mem_map]
  constructor
  · rintro ⟨⟨name, descriptor⟩, hfilter, rfl⟩
    obtain ⟨hm, hmatch⟩ := List.mem_filter.1 hfilter
    rw [Bool.and_eq_true, beq_iff_eq, beq_iff_eq] at hmatch
    obtain ⟨rfl, harity⟩ := hmatch
    exact ⟨hm, harity⟩
  · rintro ⟨hm, harity⟩
    refine ⟨⟨member, d⟩, List.mem_filter.2 ⟨hm, ?_⟩, rfl⟩
    rw [harity, beq_self_eq_true, beq_self_eq_true]
    rfl

end ClassDecl

namespace Hierarchy

/-- **The classes whose methods answer to `member`** on a use of `owner`. -/
def Answers (h : Hierarchy) (owner member name : String) : Prop :=
  if member = MethodDecl.constructorName then name = owner else h.Reaches owner name

/-- A method that a registered class declares which answers to its name. -/
def Offers (h : Hierarchy) (owner : String) (m : MethodDecl) : Prop :=
  ∃ name c, h.Answers owner m.name name ∧ h.find? name = some c ∧ m ∈ c.methods

/-- **A descriptor that a call may mean**: it is offered under the name, and takes that many arguments. -/
structure Candidate (h : Hierarchy) (owner member : String) (arity : Nat) (descriptor : String) : Prop where
  offered : h.Offers owner ⟨member, descriptor⟩
  arity : MethodDecl.arity? ⟨member, descriptor⟩ = some arity

/-- **The same classes declared again**, as far as uses of `owner` go. -/
def Redeclares (h h' : Hierarchy) (owner : String) : Prop :=
  ∀ name, Option.Rel (ClassDecl.Redeclared (h.Offers owner)) (h.find? name) (h'.find? name)

variable {h h' : Hierarchy} {owner sub member name : String} {arity : Nat}

theorem mem_owners : name ∈ h.owners owner member ↔ h.Answers owner member name := by
  unfold owners Answers
  split
  · exact List.mem_singleton
  · exact mem_supertypeNames owner name

theorem mem_candidates {d : String} : d ∈ h.candidates owner member arity ↔ h.Candidate owner member arity d := by
  unfold candidates
  rw [List.mem_flatMap]
  constructor
  · rintro ⟨name, hname, hd⟩
    cases hc : h.find? name with
    | none =>
      rw [hc] at hd
      cases hd
    | some c =>
      rw [hc] at hd
      obtain ⟨hm, harity⟩ := (c.mem_descriptors member d arity).1 hd
      exact ⟨⟨name, c, mem_owners.1 hname, hc, hm⟩, harity⟩
  · rintro ⟨⟨name, c, hname, hc, hm⟩, harity⟩
    refine ⟨name, mem_owners.2 hname, ?_⟩
    rw [hc]
    exact (c.mem_descriptors member d arity).2 ⟨hm, harity⟩

/-- **Two descriptors make an overload.** -/
theorem overloaded_iff (h : Hierarchy) (owner member : String) (arity : Nat) :
    h.overloaded owner member arity = true ↔
      ∃ d d', d ≠ d' ∧ h.Candidate owner member arity d ∧ h.Candidate owner member arity d' := by
  simp only [overloaded, List.any_eq_true, bne_iff_ne, mem_candidates]
  constructor
  · rintro ⟨d, hd, d', hd', hne⟩
    exact ⟨d, d', hne.symm, hd, hd'⟩
  · rintro ⟨d, d', hne, hd, hd'⟩
    exact ⟨d, hd, d', hd', hne.symm⟩

/-! ## What does not matter -/

theorem Redeclares.rearranges (hr : h.Redeclares h' owner) : h.Rearranges h' := by
  intro name
  have hclass := hr name
  generalize h.find? name = c at hclass
  generalize h'.find? name = c' at hclass
  cases hclass with
  | none => exact .none
  | some hc => exact .some hc.toRearranged

/-- **Declaring the classes again offers nothing new** and takes nothing away. -/
theorem Redeclares.offers_iff (hr : h.Redeclares h' owner) (m : MethodDecl) : h'.Offers owner m ↔ h.Offers owner m := by
  have hanswers : ∀ name, h'.Answers owner m.name name ↔ h.Answers owner m.name name := by
    intro name
    unfold Answers
    split
    · rfl
    · exact hr.rearranges.reaches_iff owner name
  constructor
  · rintro ⟨name, c', hname, hc', hm⟩
    have hclass := hr name
    rw [hc'] at hclass
    generalize hc : h.find? name = found at hclass
    cases hclass with
    | some hredeclared =>
      rcases hredeclared.repeated m hm with hm | hm
      · exact ⟨name, _, (hanswers name).1 hname, hc, hm⟩
      · exact hm
  · rintro ⟨name, c, hname, hc, hm⟩
    have hclass := hr name
    rw [hc] at hclass
    generalize hc' : h'.find? name = found at hclass
    cases hclass with
    | some hredeclared => exact ⟨name, _, (hanswers name).2 hname, hc', hredeclared.kept hm⟩

/-- What a class offers, its constructors apart, every class below it offers. -/
theorem Offers.of_reaches {m : MethodDecl} (hm : h.Offers owner m) (hne : m.name ≠ MethodDecl.constructorName)
    (hsub : h.Reaches sub owner) : h.Offers sub m := by
  obtain ⟨name, c, hname, hc, hmem⟩ := hm
  refine ⟨name, c, ?_, hc, hmem⟩
  unfold Answers at hname ⊢
  rw [if_neg hne] at hname ⊢
  exact hsub.trans hname

/-- The candidates of a call, other than of a constructor, are candidates on every class below. -/
theorem Candidate.of_reaches {d : String} (hd : h.Candidate owner member arity d)
    (hne : member ≠ MethodDecl.constructorName) (hsub : h.Reaches sub owner) : h.Candidate sub member arity d :=
  ⟨hd.offered.of_reaches hne hsub, hd.arity⟩

/-- **Overloads are counted by descriptor, through everything above a class.**  A call is overloaded exactly if two
descriptors with its number of arguments are declared under its name in the classes that can be reached from the owner,
or in the owner alone where a constructor is called.  So the answers for a class stay the same when classes are declared
again with interfaces and methods in another order and with what is offered on the class repeated; and a call, other
than of a constructor, that is overloaded on a class is overloaded on every class from which it can be reached. -/
theorem overloads_counted (h : Hierarchy) :
    (∀ owner member arity, h.overloaded owner member arity = true ↔
      ∃ d d', d ≠ d' ∧ h.Candidate owner member arity d ∧ h.Candidate owner member arity d') ∧
    (∀ h' owner, h.Redeclares h' owner → ∀ member arity,
      h'.overloaded owner member arity = h.overloaded owner member arity) ∧
    ∀ sub owner member arity, member ≠ MethodDecl.constructorName → h.Reaches sub owner →
      h.overloaded owner member arity = true → h.overloaded sub member arity = true := by
  refine ⟨h.overloaded_iff, fun h' owner hr member arity => ?_, fun sub owner member arity hne hsub ho => ?_⟩
  · have hsame : ∀ d, h'.Candidate owner member arity d ↔ h.Candidate owner member arity d := fun d =>
      ⟨fun hd => ⟨(hr.offers_iff _).1 hd.offered, hd.arity⟩, fun hd => ⟨(hr.offers_iff _).2 hd.offered, hd.arity⟩⟩
    rw [Bool.eq_iff_iff, overloaded_iff, overloaded_iff]
    simp only [hsame]
  · rw [overloaded_iff] at ho ⊢
    obtain ⟨d, d', hdiffer, hd, hd'⟩ := ho
    exact ⟨d, d', hdiffer, hd.of_reaches hne hsub, hd'.of_reaches hne hsub⟩

/-- An interface `Sink` with `put(int)`, a class `Box` that implements it, with the given methods, and `Crate` below
`Box`. -/
def sink (methods : List MethodDecl) : Hierarchy :=
  ((empty.put ⟨"Sink", .interface, [], none, [], [⟨"put", "(I)V"⟩]⟩).put
    ⟨"Box", .ordinary, [], some .root, [.ofName "Sink"], methods⟩).put
      ⟨"Crate", .ordinary, [], some (.ofName "Box"), [], []⟩

/-- `Box` may repeat the `put(int)` that it has from `Sink`, and put it before its own methods. -/
theorem redeclares_sink (methods : List MethodDecl) :
    (sink methods).Redeclares (sink (⟨"put", "(I)V"⟩ :: methods)) "Box" := by
  have hoffered : (sink methods).Offers "Box" ⟨"put", "(I)V"⟩ := by
    refine ⟨"Sink", _, ?_, rfl, List.mem_singleton_self _⟩
    exact .single (extends_iff.2 ⟨_, rfl, List.mem_cons_of_mem _ List.mem_cons_self⟩)
  intro name
  generalize (sink methods).Offers "Box" = offered at hoffered
  unfold sink
  simp only [find?_put]
  split
  · exact .some ⟨⟨rfl, rfl, .refl _⟩, List.Subset.refl _, fun m hm => .inl hm⟩
  split
  · refine .some ⟨⟨rfl, rfl, .refl _⟩, List.subset_cons_self _ _, fun m hm => ?_⟩
    rcases List.mem_cons.1 hm with rfl | hm
    · exact .inr hoffered
    · exact .inl hm
  split
  · exact .some ⟨⟨rfl, rfl, .refl _⟩, List.Subset.refl _, fun m hm => .inl hm⟩
  · exact .none

/-- `put` with one argument is overloaded on `Box`, by its own `put(long)` and the `put(int)` of `Sink`.  So it is when
`Box` repeats `put(int)`, and so it is on `Crate`. -/
theorem overloads_counted_sink :
    (sink [⟨"put", "(J)V"⟩]).overloaded "Box" "put" 1 = true ∧
    (sink [⟨"put", "(I)V"⟩, ⟨"put", "(J)V"⟩]).overloaded "Box" "put" 1 = true ∧
    (sink [⟨"put", "(J)V"⟩]).overloaded "Crate" "put" 1 = true := by
  obtain ⟨hcount, hagain, hbelow⟩ := overloads_counted (sink [⟨"put", "(J)V"⟩])
  have hinherits : (sink [⟨"put", "(J)V"⟩]).Reaches "Box" "Sink" :=
    .single (extends_iff.2 ⟨_, rfl, List.mem_cons_of_mem _ List.mem_cons_self⟩)
  have hown : (sink [⟨"put", "(J)V"⟩]).Candidate "Box" "put" 1 "(J)V" :=
    ⟨⟨"Box", _, .refl, rfl, List.mem_singleton_self _⟩, by decide +kernel⟩
  have hinherited : (sink [⟨"put", "(J)V"⟩]).Candidate "Box" "put" 1 "(I)V" :=
    ⟨⟨"Sink", _, hinherits, rfl, List.mem_singleton_self _⟩, by decide +kernel⟩
  have hbox : (sink [⟨"put", "(J)V"⟩]).overloaded "Box" "put" 1 = true :=
    (hcount "Box" "put" 1).2 ⟨"(J)V", "(I)V", by decide, hown, hinherited⟩
  have hcrate : (sink [⟨"put", "(J)V"⟩]).Reaches "Crate" "Box" := .single (extends_iff.2 ⟨_, rfl, List.mem_cons_self⟩)
  refine ⟨hbox, ?_, hbelow "Crate" "Box" "put" 1 (by decide) hcrate hbox⟩
  rw [hagain _ "Box" (redeclares_sink [⟨"put", "(J)V"⟩]) "put" 1]
  exact hbox

end Hierarchy

end Recast
