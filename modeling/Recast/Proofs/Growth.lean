import Recast.Proofs.Capture
import Recast.Proofs.Overloading
import Recast.Proofs.RawFallback
import Recast.Proofs.RawOrder
import Recast.Proofs.Registration
/-!
# Growth — what stays true when a class becomes known

A class may be referred to long before it is registered, and its registration can close a cycle or put new classes
between others, so a search meets them in another order than before.  What does not go is a way up: the steps from the
classes that were known are still there, and so is whatever can be reached by them (`Hierarchy.Grows.reaches`).  A raw
target asks for no more than a way, a name that is overloaded for no more than two methods on ways, and a name resolves
because it is known; so a class with a new name adds to what is answered and takes nothing back
(`Hierarchy.learning_only_adds`).

Arguments are another matter.  They are those of the use that a search finds first, and the new class may lead to one
before the use that was found without it; so a parameterized target may be lost (`Hierarchy.exists_learning_unfits`).
-/
namespace Recast

namespace Hierarchy

/-- **Every declaration of this hierarchy** is in the other one, under its name. -/
def Grows (h h' : Hierarchy) : Prop := ∀ name c, h.find? name = some c → h'.find? name = some c

variable {h h' h'' : Hierarchy} {c : ClassDecl} {target source : ClassType} {n m owner member name : String} {arity : Nat}

theorem Grows.trans (hg : h.Grows h') (hg' : h'.Grows h'') : h.Grows h'' := fun name c hc => hg' name c (hg name c hc)

/-- A class with a new name takes the place of none. -/
theorem grows_put (hnew : h.contains c.name = false) : h.Grows (h.put c) := by
  intro name d hd
  have hne : name ≠ c.name := by
    rintro rfl
    rw [contains, hd] at hnew
    cases hnew
  rw [find?_put, if_neg hne]
  exact hd

/-- Nor does one that is refused, whatever its name. -/
theorem grows_add (hnew : h.contains c.name = false) : h.Grows (h.add c) := by
  cases hc : c.accepted with
  | true =>
    rw [h.add_of_accepted hc]
    exact grows_put hnew
  | false =>
    rw [h.add_of_not_accepted hc]
    exact fun name d hd => hd

/-! ## Ways up -/

theorem Grows.extends (hg : h.Grows h') (he : h.Extends n m) : h'.Extends n m := by
  obtain ⟨c, hc, hm⟩ := extends_iff.1 he
  exact extends_iff.2 ⟨c, hg n c hc, hm⟩

/-- **What could be reached can be reached.** -/
theorem Grows.reaches (hg : h.Grows h') (hr : h.Reaches n m) : h'.Reaches n m :=
  Relation.ReflTransGen.mono (fun _ _ => hg.extends) n m hr

theorem Grows.takes (hg : h.Grows h') (ht : h.Takes target source) : h'.Takes target source := by
  cases ht with
  | root hname hd => exact .root hname hd
  | above hname hd hr => exact .above hname hd (hg.reaches hr)

theorem Grows.assignable (hg : h.Grows h') (hraw : target.isRaw = true) (b : TypeBounds)
    (ha : h.assignable b target source = true) : h'.assignable b target source = true := by
  rw [takes_iff hraw] at ha ⊢
  exact hg.takes ha

/-! ## Methods and names -/

theorem Grows.answers (hg : h.Grows h') (ha : h.Answers owner member name) : h'.Answers owner member name := by
  unfold Answers at ha ⊢
  split
  · rename_i hconstructor
    rwa [if_pos hconstructor] at ha
  · rename_i hmethod
    rw [if_neg hmethod] at ha
    exact hg.reaches ha

theorem Grows.candidate (hg : h.Grows h') {d : String} (hd : h.Candidate owner member arity d) :
    h'.Candidate owner member arity d := by
  obtain ⟨⟨name, c, hname, hc, hm⟩, harity⟩ := hd
  exact ⟨⟨name, c, hg.answers hname, hg name c hc, hm⟩, harity⟩

theorem Grows.overloaded (hg : h.Grows h') (ho : h.overloaded owner member arity = true) :
    h'.overloaded owner member arity = true := by
  rw [overloaded_iff] at ho ⊢
  obtain ⟨d, d', hne, hd, hd'⟩ := ho
  exact ⟨d, d', hne, hg.candidate hd, hg.candidate hd'⟩

theorem Grows.contains (hg : h.Grows h') (hn : h.contains name = true) : h'.contains name = true := by
  obtain ⟨c, hc⟩ := Option.isSome_iff_exists.1 hn
  exact Option.isSome_iff_exists.2 ⟨c, hg name c hc⟩

theorem Grows.resolve? (hg : h.Grows h') {t : ClassType} (ht : h.resolve? name = some t) :
    h'.resolve? name = some t := by
  unfold Hierarchy.resolve? at ht ⊢
  split at ht
  · rename_i hn
    rwa [if_pos (hg.contains hn)]
  · cases ht

/-! ## Classes that become known -/

/-- **Any number of new names takes nothing back.**  No two declarations may have one name, or the later would take the
place of the earlier. -/
theorem grows_addAll {cs : List ClassDecl} (hnew : ∀ c ∈ cs, h.contains c.name = false)
    (hdistinct : cs.Pairwise fun c d => c.name ≠ d.name) : h.Grows (h.addAll cs) := by
  induction cs generalizing h with
  | nil => exact fun name c hc => hc
  | cons c cs ih =>
    obtain ⟨hc, hcs⟩ := List.forall_mem_cons.1 hnew
    obtain ⟨hfresh, hdistinct⟩ := List.pairwise_cons.1 hdistinct
    refine (grows_add hc).trans (ih (fun d hd => ?_) hdistinct)
    have hother : ¬ c.acceptedAs d.name = true := fun haccepted =>
      hfresh d hd (beq_iff_eq.1 (Bool.and_eq_true_iff.1 haccepted).1)
    rw [contains, find?_add, if_neg hother]
    exact hcs d hd

/-- **To learn a class only adds.**  A class whose method descriptors have the form of one, under a name that is not
registered, can be registered; and then every raw target takes what it took, every name that was overloaded is
overloaded, and every name that resolved resolves to the same type, whatever the class is below or above. -/
theorem learning_only_adds (h : Hierarchy) (c : ClassDecl) (hnew : h.contains c.name = false)
    (hwell : ∀ m ∈ c.methods, Descriptor.MethodWord m.descriptor.toList) :
    ∃ h', h.register c = .ok h' ∧
      (∀ (b : TypeBounds) (target source : ClassType), target.isRaw = true →
        h.assignable b target source = true → h'.assignable b target source = true) ∧
      (∀ owner member arity, h.overloaded owner member arity = true → h'.overloaded owner member arity = true) ∧
      ∀ name t, h.resolve? name = some t → h'.resolve? name = some t := by
  have haccepted : c.accepted = true := Option.isNone_iff_eq_none.2 (ClassDecl.fault?_eq_none_iff.2 hwell)
  have hg : h.Grows (h.put c) := grows_put hnew
  exact ⟨h.put c, h.register_of_accepted haccepted, fun b _ _ hraw => hg.assignable hraw b,
    fun _ _ _ => hg.overloaded, fun _ _ => hg.resolve?⟩

/-- The root as a class below `Crate`. -/
def rootBelowCrate : ClassDecl := ⟨ClassType.rootName, .ordinary, [], some (.ofName "Crate"), [], [⟨"<init>", "()V"⟩]⟩

/-- `Box` extends the root and `Crate` extends `Box`; when it becomes known that the root extends `Crate`, there is a
cycle.  A `Box` is a `Sink` as before, and `put` is overloaded on it. -/
theorem learning_only_adds_root :
    (sink [⟨"put", "(J)V"⟩]).contains rootBelowCrate.name = false ∧
    (sink [⟨"put", "(J)V"⟩]).assignable .empty (.ofName "Sink") (.ofName "Box") = true ∧
    ∃ h', (sink [⟨"put", "(J)V"⟩]).register rootBelowCrate = .ok h' ∧
      h'.assignable .empty (.ofName "Sink") (.ofName "Box") = true ∧ h'.overloaded "Box" "put" 1 = true ∧
      h'.resolve? "Crate" = some (.ofName "Crate") := by
  have hwell : ∀ m ∈ rootBelowCrate.methods, Descriptor.MethodWord m.descriptor.toList :=
    List.forall_mem_singleton.2 (MethodType.exists_ofDescriptor_iff.1 ⟨⟨[], .ofPrimitive .void⟩, by decide +kernel⟩)
  have hinherits : (sink [⟨"put", "(J)V"⟩]).Reaches "Box" "Sink" :=
    .single (extends_iff.2 ⟨_, rfl, List.mem_cons_of_mem _ List.mem_cons_self⟩)
  have hsink : (sink [⟨"put", "(J)V"⟩]).assignable .empty (.ofName "Sink") (.ofName "Box") = true :=
    (takes_iff rfl .empty _).2 (.above (by decide) rfl hinherits)
  have hown : (sink [⟨"put", "(J)V"⟩]).Candidate "Box" "put" 1 "(J)V" :=
    ⟨⟨"Box", _, .refl, rfl, List.mem_singleton_self _⟩, by decide +kernel⟩
  have hinherited : (sink [⟨"put", "(J)V"⟩]).Candidate "Box" "put" 1 "(I)V" :=
    ⟨⟨"Sink", _, hinherits, rfl, List.mem_singleton_self _⟩, by decide +kernel⟩
  have hput : (sink [⟨"put", "(J)V"⟩]).overloaded "Box" "put" 1 = true :=
    (overloaded_iff _ _ _ _).2 ⟨_, _, by decide, hown, hinherited⟩
  obtain ⟨h', hh', hassignable, hoverloaded, hresolve⟩ :=
    learning_only_adds (sink [⟨"put", "(J)V"⟩]) rootBelowCrate rfl hwell
  exact ⟨rfl, hsink, h', hh', hassignable .empty _ _ rfl hsink, hoverloaded "Box" "put" 1 hput, hresolve "Crate" _ rfl⟩

/-- `A` extends `New` and implements `I`, which is a `Box<String>`; what `New` is, is not known. -/
def boxedString : Hierarchy :=
  (empty.put ⟨"A", .ordinary, [], some (.ofName "New"), [.ofName "I"], []⟩).put
    ⟨"I", .interface, [], none, [boxOf (.exact (.ofClass ClassType.stringName))], []⟩

/-- A class `New` that is a `Box<Integer>`. -/
def newBox : ClassDecl := ⟨"New", .ordinary, [], some (boxOf (.exact (.ofClass "java/lang/Integer"))), [], []⟩

theorem supertype?_boxedString :
    boxedString.supertype? (.ofName "A") "Box" = some (boxOf (.exact (.ofClass ClassType.stringName))) := by
  calc boxedString.supertype? (.ofName "A") "Box"
      = boxedString.search "Box" ["A"] [.ofName "New", .ofName "I"] :=
        Turn.search_eq (.enter [] (by simp)) (by decide)
    _ = boxedString.search "Box" ["New", "A"] [.ofName "I"] :=
        Turn.search_eq (.enter _ (by decide)) (by decide)
    _ = boxedString.search "Box" ["I", "New", "A"] [boxOf (.exact (.ofClass ClassType.stringName)), .root] :=
        Turn.search_eq (.enter _ (by decide)) (by decide)
    _ = some (boxOf (.exact (.ofClass ClassType.stringName))) := boxedString.search_found _ (boxOf _) _

/-- The box above `New` stands in the queue before the one above `I`. -/
theorem supertype?_newBox :
    (boxedString.put newBox).supertype? (.ofName "A") "Box" =
      some (boxOf (.exact (.ofClass "java/lang/Integer"))) := by
  calc (boxedString.put newBox).supertype? (.ofName "A") "Box"
      = (boxedString.put newBox).search "Box" ["A"] [.ofName "New", .ofName "I"] :=
        Turn.search_eq (.enter [] (by simp)) (by decide)
    _ = (boxedString.put newBox).search "Box" ["New", "A"]
          [.ofName "I", boxOf (.exact (.ofClass "java/lang/Integer"))] :=
        Turn.search_eq (.enter _ (by decide)) (by decide)
    _ = (boxedString.put newBox).search "Box" ["I", "New", "A"]
          [boxOf (.exact (.ofClass "java/lang/Integer")), boxOf (.exact (.ofClass ClassType.stringName)), .root] :=
        Turn.search_eq (.enter _ (by decide)) (by decide)
    _ = some (boxOf (.exact (.ofClass "java/lang/Integer"))) :=
        (boxedString.put newBox).search_found _ (boxOf _) _

/-- **A parameterized target can be lost**: an `A` was a `Box<String>`, and is a `Box<Integer>` when `New` is known. -/
theorem exists_learning_unfits :
    ¬ ∀ (h h' : Hierarchy) (c : ClassDecl) (b : TypeBounds) (target source : ClassType), h.contains c.name = false →
      h.register c = .ok h' → h.assignable b target source = true → h'.assignable b target source = true := by
  intro hall
  have hname : (boxOf (.exact (.ofClass ClassType.stringName))).name ≠ ClassType.rootName := by decide
  have hbefore : boxedString.assignable .empty (boxOf (.exact (.ofClass ClassType.stringName))) (.ofName "A") = true :=
    (assignable_of_found (.ofName "A") hname rfl supertype?_boxedString).trans (rawOrFit_self .empty _)
  have hafter : (boxedString.put newBox).assignable .empty (boxOf (.exact (.ofClass ClassType.stringName)))
      (.ofName "A") = false :=
    (assignable_of_found (.ofName "A") hname rfl supertype?_newBox).trans (rawOrFit_exact (by decide) [] [])
  rw [hall boxedString _ newBox .empty _ _ rfl (boxedString.register_of_accepted rfl) hbefore] at hafter
  cases hafter

end Hierarchy

end Recast
