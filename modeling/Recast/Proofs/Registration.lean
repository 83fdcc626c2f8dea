import Recast.Hierarchy.Assignable
import Recast.Hierarchy.Overloads
import Recast.Hierarchy.Platform
import Recast.Proofs.Grammar
/-!
# Registration — what a hierarchy knows after a while

Classes are registered one after the other, any number of times under one name.  A declaration is accepted where each of
its method descriptors has the form of one; otherwise the fault is that of the first that has not, and the hierarchy
stays as it was.

What a hierarchy answers, about a class, about assignability, about overloads, depends on nothing but the declaration
that it finds under each name (`Hierarchy.Agrees.ask`), and that is the last that was accepted
(`Hierarchy.find?_addAll`).  So declarations that were refused or have been replaced leave no trace, and neither does the
order in which different names were registered (`Hierarchy.registration_last_wins`).
-/
namespace Recast

open Descriptor

namespace ClassDecl

/-- **Whether a declaration can be registered.** -/
def accepted (c : ClassDecl) : Bool := c.fault?.isNone

/-- Whether it can be under the name. -/
def acceptedAs (name : String) (c : ClassDecl) : Bool := c.name == name && c.accepted

variable {c : ClassDecl} {e : DescriptorError}

theorem fault?_eq_none_iff : c.fault? = none ↔ ∀ m ∈ c.methods, MethodWord m.descriptor.toList := by
  unfold fault?
  rw [List.findSome?_eq_none_iff]
  refine forall₂_congr fun m _ => ?_
  rw [← MethodType.exists_ofDescriptor_iff]
  cases MethodType.ofDescriptor m.descriptor <;> simp

/-- **The fault of a declaration** is that of its first method descriptor without the form of one. -/
theorem fault?_eq_some_iff : c.fault? = some e ↔
    ∃ before m after, c.methods = before ++ m :: after ∧
      (∀ m' ∈ before, MethodWord m'.descriptor.toList) ∧ ¬ MethodWord m.descriptor.toList ∧
      MethodType.ofDescriptor m.descriptor = .error e := by
  unfold fault?
  rw [List.findSome?_eq_some_iff]
  -- a method has the form exactly if the reader answers with a signature
  simp only [← MethodType.exists_ofDescriptor_iff]
  constructor
  · rintro ⟨before, m, after, hmethods, hm, hbefore⟩
    refine ⟨before, m, after, hmethods, fun m' hm' => ?_, ?_⟩
    · have hnone := hbefore m' hm'
      cases hread : MethodType.ofDescriptor m'.descriptor with
      | ok t => exact ⟨t, rfl⟩
      | error f =>
        rw [hread] at hnone
        cases hnone
    · cases hread : MethodType.ofDescriptor m.descriptor with
      | ok t =>
        rw [hread] at hm
        cases hm
      | error f =>
        rw [hread] at hm
        cases hm
        exact ⟨nofun, rfl⟩
  · rintro ⟨before, m, after, hmethods, hbefore, -, hm⟩
    refine ⟨before, m, after, hmethods, by rw [hm], fun m' hm' => ?_⟩
    obtain ⟨t, ht⟩ := hbefore m' hm'
    rw [ht]

theorem exists_fault?_iff : (∃ e, c.fault? = some e) ↔ ∃ m ∈ c.methods, ¬ MethodWord m.descriptor.toList := by
  rw [← Option.isSome_iff_exists, ← Option.ne_none_iff_isSome, ne_eq, fault?_eq_none_iff]
  simp

end ClassDecl

namespace Hierarchy

/-- **A question to a hierarchy.** -/
inductive Question
  | declaration (name : String)
  | registered (name : String)
  | assignable (b : TypeBounds) (target source : ClassType)
  | overloaded (owner member : String) (arity : Nat)
  | resolution (name : String)

inductive Answer
  | declaration (c : Option ClassDecl)
  | verdict (yes : Bool)
  | type (t : Option ClassType)

def ask (h : Hierarchy) : Question → Answer
  | .declaration name => .declaration (h.find? name)
  | .registered name => .verdict (h.contains name)
  | .assignable b target source => .verdict (h.assignable b target source)
  | .overloaded owner member arity => .verdict (h.overloaded owner member arity)
  | .resolution name => .type (h.resolve? name)

/-- The hierarchy after a declaration was to be registered, accepted or not. -/
def add (h : Hierarchy) (c : ClassDecl) : Hierarchy :=
  match h.register c with
  | .ok h' => h'
  | .error _ => h

/-- The hierarchy after several were. -/
def addAll (h : Hierarchy) (cs : List ClassDecl) : Hierarchy := cs.foldl add h

/-- **The last accepted declaration of a name**, or that of the start. -/
def latest? (h : Hierarchy) (cs : List ClassDecl) (name : String) : Option ClassDecl :=
  (cs.filter (·.acceptedAs name)).getLast?.or (h.find? name)

/-- **The same declaration under every name.** -/
def Agrees (h h' : Hierarchy) : Prop := ∀ name, h'.find? name = h.find? name

/-- **Every declaration could be registered.** -/
def Sound (h : Hierarchy) : Prop := ∀ name c, h.find? name = some c → c.accepted = true

variable {h h' : Hierarchy} {c : ClassDecl} {e : DescriptorError}

/-! ## One declaration -/

theorem register_eq_error_iff : h.register c = .error e ↔ c.fault? = some e := by
  unfold register
  cases c.fault? <;> simp

theorem register_of_accepted (h : Hierarchy) (hc : c.accepted = true) : h.register c = .ok (h.put c) := by
  unfold register
  rw [Option.isNone_iff_eq_none.1 hc]

theorem add_of_accepted (h : Hierarchy) (hc : c.accepted = true) : h.add c = h.put c := by
  unfold add
  rw [h.register_of_accepted hc]

/-- **What is refused changes nothing.** -/
theorem add_of_error (hc : h.register c = .error e) : h.add c = h := by
  unfold add
  rw [hc]

theorem add_of_not_accepted (h : Hierarchy) (hc : c.accepted = false) : h.add c = h := by
  obtain ⟨e, he⟩ := Option.isSome_iff_exists.1 (Option.isNone_eq_false_iff.1 hc)
  exact add_of_error (register_eq_error_iff.2 he)

theorem find?_add (h : Hierarchy) (c : ClassDecl) (name : String) :
    (h.add c).find? name = if c.acceptedAs name then some c else h.find? name := by
  unfold ClassDecl.acceptedAs
  cases hc : c.accepted with
  | false => rw [h.add_of_not_accepted hc, Bool.and_false, if_neg Bool.false_ne_true]
  | true =>
    rw [h.add_of_accepted hc, find?_put, Bool.and_true]
    exact if_congr (eq_comm.trans beq_iff_eq.symm) rfl rfl

/-! ## Many of them -/

theorem latest?_cons (h : Hierarchy) (c : ClassDecl) (cs : List ClassDecl) (name : String) :
    h.latest? (c :: cs) name = (h.add c).latest? cs name := by
  unfold latest?
  rw [find?_add]
  by_cases hc : c.acceptedAs name = true
  · rw [if_pos hc, List.filter_cons_of_pos hc, List.getLast?_cons]
    cases (cs.filter (·.acceptedAs name)).getLast? <;> rfl
  · rw [if_neg hc, List.filter_cons_of_neg hc]

/-- **The last accepted declaration of a name is found.** -/
theorem find?_addAll (h : Hierarchy) (cs : List ClassDecl) (name : String) :
    (h.addAll cs).find? name = h.latest? cs name := by
  -- the hierarchy of the induction is the one that the declarations so far have made
  induction cs generalizing h with
  | nil => rfl
  | cons c cs ih => exact (ih (h.add c)).trans (h.latest?_cons c cs name).symm

theorem Sound.add (hs : h.Sound) (c : ClassDecl) : (h.add c).Sound := by
  intro name d hd
  rw [find?_add] at hd
  split at hd
  · rename_i hc
    obtain rfl := Option.some.inj hd
    exact (Bool.and_eq_true_iff.1 hc).2
  · exact hs name d hd

/-- **A hierarchy to which declarations are only registered stays sound.** -/
theorem Sound.addAll (hs : h.Sound) (cs : List ClassDecl) : (h.addAll cs).Sound := by
  induction cs generalizing h with
  | nil => exact hs
  | cons c cs ih => exact ih (hs.add c)

theorem sound_empty : empty.Sound := nofun

/-- **Every method of a sound hierarchy has an arity**, that of the signature it declares. -/
theorem Sound.exists_arity? (hs : h.Sound) {name : String} (hc : h.find? name = some c) {m : MethodDecl}
    (hm : m ∈ c.methods) : ∃ t, MethodType.ofDescriptor m.descriptor = .ok t ∧ m.arity? = some t.arity := by
  have hword := ClassDecl.fault?_eq_none_iff.1 (Option.isNone_iff_eq_none.1 (hs name c hc)) m hm
  obtain ⟨t, ht⟩ := MethodType.exists_ofDescriptor_iff.2 hword
  refine ⟨t, ht, ?_⟩
  unfold MethodDecl.arity?
  rw [ht]

/-- The platform classes can all be registered. -/
theorem accepted_platform : ∀ c ∈ Platform.classes, c.accepted = true := by decide +kernel

theorem addAll_of_accepted (h : Hierarchy) {cs : List ClassDecl} (hcs : ∀ c ∈ cs, c.accepted = true) :
    h.addAll cs = cs.foldl put h := by
  induction cs generalizing h with
  | nil => rfl
  | cons c cs ih =>
    obtain ⟨hc, hcs⟩ := List.forall_mem_cons.1 hcs
    unfold Hierarchy.addAll
    rw [List.foldl_cons, List.foldl_cons, h.add_of_accepted hc]
    exact ih (h.put c) hcs

/-- **The platform is what comes of registering its classes.** -/
theorem sound_platform : platform.Sound := by
  have hplatform : platform = empty.addAll Platform.classes := (addAll_of_accepted empty accepted_platform).symm
  rw [hplatform]
  exact sound_empty.addAll Platform.classes

/-! ## What is asked -/

theorem Agrees.directSupertypes (hh : h.Agrees h') (use : ClassType) :
    h'.directSupertypes use = h.directSupertypes use := by
  unfold Hierarchy.directSupertypes
  rw [hh]

/-- **A search asks for declarations by name** and for nothing else. -/
theorem Agrees.search (hh : h.Agrees h') (target : String) (seen : List String) (queue : List ClassType) :
    h'.search target seen queue = h.search target seen queue := by
  fun_induction h.search target seen queue with
  | case1 => rw [Hierarchy.search]
  | case2 seen c rest heq => rw [Hierarchy.search, if_pos heq]
  | case3 seen c rest hne hs ih =>
    rw [Hierarchy.search, if_neg hne, if_pos hs]
    exact ih
  | case4 seen c rest hne hs ih =>
    rw [Hierarchy.search, if_neg hne, if_neg hs, hh.directSupertypes]
    exact ih

theorem Agrees.namesAbove (hh : h.Agrees h') (seen : List String) (queue : List ClassType) :
    h'.namesAbove seen queue = h.namesAbove seen queue := by
  fun_induction h.namesAbove seen queue with
  | case1 => rw [Hierarchy.namesAbove]
  | case2 seen c rest hs ih =>
    rw [Hierarchy.namesAbove, if_pos hs]
    exact ih
  | case3 seen c rest hs ih =>
    rw [Hierarchy.namesAbove, if_neg hs, hh.directSupertypes, ih]

theorem Agrees.contains (hh : h.Agrees h') (name : String) : h'.contains name = h.contains name := by
  unfold Hierarchy.contains
  rw [hh]

theorem Agrees.assignable (hh : h.Agrees h') (b : TypeBounds) (target source : ClassType) :
    h'.assignable b target source = h.assignable b target source := by
  unfold Hierarchy.assignable supertype?
  rw [hh.search]

theorem Agrees.overloaded (hh : h.Agrees h') (owner member : String) (arity : Nat) :
    h'.overloaded owner member arity = h.overloaded owner member arity := by
  have howners : h'.owners owner member = h.owners owner member := by
    unfold owners supertypeNames
    rw [hh.namesAbove]
  have hcandidates : h'.candidates owner member arity = h.candidates owner member arity := by
    unfold candidates
    rw [howners]
    exact congrArg (List.flatMap · _) (funext fun name => by rw [hh])
  unfold Hierarchy.overloaded
  rw [hcandidates]

/-- **Hierarchies with the same declarations answer alike.** -/
theorem Agrees.ask (hh : h.Agrees h') : h'.ask = h.ask := by
  funext q
  cases q with
  | declaration name => exact congrArg Answer.declaration (hh name)
  | registered name => exact congrArg Answer.verdict (hh.contains name)
  | assignable b target source => exact congrArg Answer.verdict (hh.assignable b target source)
  | overloaded owner member arity => exact congrArg Answer.verdict (hh.overloaded owner member arity)
  | resolution name =>
    have hresolve : h'.resolve? name = h.resolve? name := by
      unfold resolve?
      rw [hh.contains]
    exact congrArg Answer.type hresolve

/-- The last declarations are the same for two orders in which each name has its declarations in one order. -/
theorem latest?_congr (h : Hierarchy) {cs cs' : List ClassDecl} {name : String}
    (hcs : cs'.filter (·.name == name) = cs.filter (·.name == name)) : h.latest? cs' name = h.latest? cs name := by
  have hsplit (ds : List ClassDecl) :
      ds.filter (·.acceptedAs name) = (ds.filter (·.name == name)).filter (·.accepted) := by
    rw [List.filter_filter]
    exact List.filter_congr fun c _ => Bool.and_comm _ _
  unfold latest?
  rw [hsplit, hsplit, hcs]

/-- **Registration is all or nothing, and the last declaration wins.**  A declaration is refused exactly if one of its
method descriptors does not have the form of one, with the fault that the reader finds in the first of these; and then
every question is answered as before.  After any number of registrations, refused ones among them, the last accepted
declaration of a name is the one that is found, and all answers come from these: they are the same wherever the last
accepted declarations are, so also where declarations of different names were registered in another order. -/
theorem registration_last_wins (h : Hierarchy) :
    (∀ c, (∃ e, h.register c = .error e) ↔ ∃ m ∈ c.methods, ¬ MethodWord m.descriptor.toList) ∧
    (∀ c e, h.register c = .error e ↔
      ∃ before m after, c.methods = before ++ m :: after ∧
        (∀ m' ∈ before, MethodWord m'.descriptor.toList) ∧ ¬ MethodWord m.descriptor.toList ∧
        MethodType.ofDescriptor m.descriptor = .error e) ∧
    (∀ cs c e, (h.addAll cs).register c = .error e → (h.addAll (cs ++ [c])).ask = (h.addAll cs).ask) ∧
    (∀ cs name, (h.addAll cs).find? name = h.latest? cs name) ∧
    (∀ cs (h' : Hierarchy) cs', (∀ name, h'.latest? cs' name = h.latest? cs name) → (h'.addAll cs').ask = (h.addAll cs).ask) ∧
    ∀ cs cs', (∀ name, cs'.filter (·.name == name) = cs.filter (·.name == name)) →
      (h.addAll cs').ask = (h.addAll cs).ask := by
  have hlast (cs : List ClassDecl) (h' : Hierarchy) (cs' : List ClassDecl)
      (hlatest : ∀ name, h'.latest? cs' name = h.latest? cs name) : (h'.addAll cs').ask = (h.addAll cs).ask := by
    refine Agrees.ask fun name => ?_
    rw [find?_addAll, find?_addAll, hlatest]
  refine ⟨fun c => ?_, fun c e => ?_, fun cs c e he => ?_, h.find?_addAll, hlast, fun cs cs' hcs => ?_⟩
  · simp only [register_eq_error_iff]
    exact ClassDecl.exists_fault?_iff
  · rw [register_eq_error_iff]
    exact ClassDecl.fault?_eq_some_iff
  · have hsame : h.addAll (cs ++ [c]) = h.addAll cs := by
      unfold addAll at he ⊢
      rw [List.foldl_append, List.foldl_cons, List.foldl_nil, add_of_error he]
    rw [hsame]
  · exact hlast cs h cs' fun name => h.latest?_congr (hcs name)

/-- `class Box` with the given methods. -/
def boxWith (methods : List MethodDecl) : ClassDecl := ⟨"Box", .ordinary, [], some .root, [], methods⟩

/-- A `Box` with two faulty methods is refused for the first, and the `Box` from before stays until the next; a `Crate`
that is registered meanwhile might as well have been registered later. -/
theorem registration_last_wins_box :
    empty.register (boxWith [⟨"get", "()I"⟩, ⟨"put", "(Lfoo"⟩, ⟨"put", "()VI"⟩]) = .error ⟨.malformed, "(Lfoo"⟩ ∧
    (empty.addAll ([boxWith []] ++ [boxWith [⟨"put", "(Lfoo"⟩]])).ask = (empty.addAll [boxWith []]).ask ∧
    (empty.addAll [boxWith [], boxWith [⟨"put", "(Lfoo"⟩], boxWith [⟨"put", "(I)V"⟩]]).find? "Box" =
      some (boxWith [⟨"put", "(I)V"⟩]) ∧
    (empty.addAll [boxWith [], .ofClass "Crate", boxWith [⟨"put", "(I)V"⟩]]).ask =
      (empty.addAll [boxWith [], boxWith [⟨"put", "(I)V"⟩], .ofClass "Crate"]).ask := by
  obtain ⟨-, hfault, hrefused, hlast, -, horder⟩ := registration_last_wins empty
  have hread : MethodType.ofDescriptor "(Lfoo" = .error ⟨.malformed, "(Lfoo"⟩ := by decide +kernel
  have hbad : ¬ MethodWord "(Lfoo".toList := by
    rw [← MethodType.exists_ofDescriptor_iff, hread]
    exact nofun
  have hgood : MethodWord "()I".toList :=
    MethodType.exists_ofDescriptor_iff.1 ⟨⟨[], .ofPrimitive .int⟩, by decide +kernel⟩
  refine ⟨?_, ?_, ?_, ?_⟩
  · exact (hfault _ _).2 ⟨[⟨"get", "()I"⟩], ⟨"put", "(Lfoo"⟩, [⟨"put", "()VI"⟩], rfl,
      List.forall_mem_singleton.2 hgood, hbad, hread⟩
  · exact hrefused [boxWith []] _ _ ((hfault _ _).2 ⟨[], _, [], rfl, nofun, hbad, hread⟩)
  · rw [hlast]
    decide +kernel
  · refine horder _ _ fun name => ?_
    by_cases hbox : name = "Box"
    · subst hbox
      rfl
    · simp [boxWith, ClassDecl.ofClass, List.filter_cons, Ne.symm hbox]

end Hierarchy

end Recast
