import Recast.Proofs.Tour
/-!
# Heads — the arguments of an overloaded call keep picking the overload

Java picks an overload by the static types of the arguments, and of these by their heads: the class, or the type
variable.  A forced slot ends with the head of the type it asks for (`Expr.head_reconcile`): what is kept has the name
of the required class already, what is cast has the required type or its raw form, and no cast is taken away again.

The arguments of a call are such slots where the call is overloaded, so a run leaves every overloaded call with the
arguments that its parameters ask for (`CastPass.run_pins_overloads`).
-/
namespace Recast

/-- **A type with the head of another**: the same class, whatever the arguments, or the same type variable. -/
inductive Ty.HasHead : Ty → Ty → Prop
  | object {c target : ClassType} (h : c.name = target.name) : HasHead (.object c) (.object target)
  | var (v : TypeVar) : HasHead (.var v) (.var v)

namespace Ty

theorem HasHead.refl {t : Ty} (h : t.isPrimitive = false) : t.HasHead t := by
  cases t with
  | primitive p d => cases h
  | object c => exact .object rfl
  | var v => exact .var v

end Ty

namespace TypeFacts

variable {f : TypeFacts} {b : TypeBounds} {required t : Ty} {e e' : Expr}

/-- By force no class is kept under another name. -/
theorem classVerdict_forced_keep {isNew : Bool} {target source : ClassType}
    (h : f.classVerdict b true isNew target source = .keep) : source.name = target.name := by
  unfold classVerdict at h
  split at h
  · split at h <;> cases h
  · rename_i hname
    exact Eq.symm (by simpa using hname)

theorem head_of_forced_keep (he : e.ty.isPrimitive = false) (hp : required.isPrimitive = false)
    (hr : required.isRoot = false) (h : f.verdict b true required e = .keep) : e.ty.HasHead required := by
  unfold verdict at h
  split at h
  · rename_i hk
    have hty : e.ty = required := hk.resolve_right (by simp [hr])
    rw [hty]
    exact .refl hp
  · cases required with
    | primitive p d => cases hp
    | object target =>
      cases hs : e.ty with
      | primitive p d => simp [hs, Ty.isPrimitive] at he
      | object source =>
        rw [hs] at h
        exact .object (classVerdict_forced_keep h)
      | var v => simp [hs] at h
    | var v =>
      cases hs : e.ty with
      | primitive p d => simp [hs, Ty.isPrimitive] at he
      | object source => simp [hs] at h
      | var w => simp [hs] at h

/-- What gets the target of a verdict as its type has the head of the required type. -/
theorem head_of_cast {forced : Bool} (hp : required.isPrimitive = false)
    (h : f.verdict b forced required e = .cast t) (ht : e'.ty = t) : e'.ty.HasHead required := by
  rcases (verdict_cast h).target with rfl | ⟨c, rfl, -, rfl⟩
  · rw [ht]
    exact .refl hp
  · rw [ht]
    exact .object rfl

end TypeFacts

/-- **A forced slot ends with the head of the required type.** -/
theorem Rules.head_settle {r : Rules} {b : TypeBounds} {d : Demand} {required : Ty} {e : Expr}
    (hd : r.facts.required? d = some (required, true)) (he : e.isNull = true ∨ e.ty.isPrimitive = false)
    (hp : required.isPrimitive = false) (hr : required.isRoot = false) : (r.settle b d e).ty.HasHead required := by
  unfold settle
  rw [edits_of_required e hd]
  have h := r.fitting b required true e
  generalize r.fitEdits b required true e = es at h
  cases h with
  | nullKept hn hf => cases hf
  | nullPicked line hn => exact .refl hp
  | kept hn hv => exact TypeFacts.head_of_forced_keep (he.resolve_left (by simp [hn])) hp hr hv
  | inserted line t hn hc hv => exact TypeFacts.head_of_cast hp hv rfl
  | erased line hw hf hv => exact .refl hp
  | retargeted l s x t hv => exact TypeFacts.head_of_cast hp hv rfl
  | collapsed l s x hv => exact TypeFacts.head_of_cast hp hv rfl
  -- a cast is taken away in a slot that is not forced, and nowhere else
  | removed l s x hv hu => cases (unwraps_iff.1 hu).1
  | retargetRemoved l s x t hv ht hu => cases (unwraps_iff.1 hu).1
  | collapseRemoved l s m t y hv hu => cases (unwraps_iff.1 hu).1

theorem Expr.head_reconcile (r : Rules) (sc : Scope) {d : Demand} {required : Ty} {e : Expr}
    (hd : r.facts.required? d = some (required, true)) (he : e.isNull = true ∨ e.ty.isPrimitive = false)
    (hp : required.isPrimitive = false) (hr : required.isRoot = false) :
    (e.reconcile r sc (some d)).ty.HasHead required := by
  rw [reconcile_some, ((r.settle sc.bounds d e).walk_alike r sc).ty]
  exact Rules.head_settle hd he hp hr

/-! ## Reconciled calls -/

namespace Call

/-- What a parameter type demands of the argument; an object creation is never forced. -/
def demand (c : Call) (t : Ty) : Demand :=
  match c.creates with
  | true => .fit t false
  | false => .argument t c.owner c.member c.arguments.length

def reconcile (r : Rules) (sc : Scope) (c : Call) : Call :=
  { c with arguments := reconcileArguments r sc c.demand c.parameters c.arguments }

end Call

/-- **Each argument is reconciled by itself**, against the parameter at its position. -/
theorem getElem?_reconcileArguments (r : Rules) (sc : Scope) (d : Ty → Demand) {t : Ty} {e : Expr} :
    ∀ (ps : List Ty) (as : List Expr) (i : Nat), ps[i]? = some t → as[i]? = some e →
      (reconcileArguments r sc d ps as)[i]? = some (e.reconcile r sc (some (d t)))
  | [], _, _, hp, _ => by cases hp
  | _ :: _, [], _, _, ha => by cases ha
  | p :: ps, a :: as, 0, hp, ha => by
    cases hp
    cases ha
    rfl
  | _ :: ps, _ :: as, i + 1, hp, ha => getElem?_reconcileArguments r sc d ps as i hp ha

variable {r : Rules}

theorem Expr.call?_reconcile (sc : Scope) (l : UInt32) {t t' : Ty} {k : ExprKind} (ht : Retypes ⟨l, t, k⟩ t') :
    call? ⟨l, t', k.reconcile r sc t⟩ = (call? ⟨l, t, k⟩).map (·.reconcile r sc) := by
  cases k with
  | new desc as ps b =>
    have hname : t'.createdName = t.createdName := by
      rcases ht with rfl | ⟨-, rfl⟩
      · rfl
      · exact t.createdName_raw
    cases b <;> simp only [ExprKind.reconcile, call?, hname] <;> rfl
  | field q m => cases q <;> rfl
  | lambda ps b => cases b <;> rfl
  | _ => rfl

theorem Node.Toured.call? {x y : Node} (h : Toured r x y) :
    Option.Rel (fun c c' => ∃ sc, c' = Call.reconcile r sc c) x.call? y.call? := by
  cases h with
  | expr sc l t t' k ht =>
    change Option.Rel _ (Expr.call? ⟨l, t, k⟩) (Expr.call? ⟨l, t', k.reconcile r sc t⟩)
    rw [Expr.call?_reconcile sc l ht]
    cases Expr.call? ⟨l, t, k⟩ with
    | none => exact .none
    | some c => exact .some ⟨sc, rfl⟩
  | body b h => exact .none

/-- **The calls of a reconciled unit** are those of the unit, each with its arguments reconciled. -/
theorem CompilationUnit.calls_reconcile {u : CompilationUnit}
    (h : (u.nodes r.anonymous).findSome? (·.fault?) = none) :
    List.Forall₂ (fun c c' => ∃ sc, c' = Call.reconcile r sc c) (u.calls r.anonymous)
      ((u.reconcile r).calls r.anonymous) :=
  List.rel_filterMap (fun _ _ h => h.call?) ((u.tours r).nodes h)

/-- **A call before and after a run.**  Its own name and parameters stay, there is an argument for each argument and a
parameter type for it, and where the call is overloaded the arguments have the heads of their parameter types.  Nothing
is said of primitive arguments, nor of parameters that are primitive or the root. -/
structure Call.Pinned (f : TypeFacts) (c c' : Call) : Prop where
  owner : c'.owner = c.owner
  member : c'.member = c.member
  parameters : c'.parameters = c.parameters
  count : c'.arguments.length = c.arguments.length
  supplied : ¬ c.Short
  heads : c.creates = false → f.overloaded c.owner c.member c.arguments.length = true →
    ∀ (i : Nat) (e e' : Expr) (t : Ty), c.arguments[i]? = some e → c'.arguments[i]? = some e' →
      c.parameters[i]? = some t → (e.isNull = true ∨ e.ty.isPrimitive = false) → t.isPrimitive = false →
      t.isRoot = false → e'.ty.HasHead t

namespace Call

variable {sc : Scope} {c : Call} {t : Ty} {i : Nat} {e e' : Expr}

/-- Each argument of a call that is overloaded stands in a forced slot. -/
theorem required?_demand (f : TypeFacts) (hcreates : c.creates = false)
    (hover : f.overloaded c.owner c.member c.arguments.length = true) (t : Ty) :
    f.required? (c.demand t) = some (t, true) := by
  unfold demand
  rw [hcreates]
  exact congrArg (fun b => some (t, b)) hover

/-- An argument after the run is the one before, reconciled against the parameter at its position. -/
theorem argument_reconcile (hin : c.arguments[i]? = some e) (hout : (c.reconcile r sc).arguments[i]? = some e')
    (ht : c.parameters[i]? = some t) : e' = e.reconcile r sc (some (c.demand t)) := by
  have hout' : (reconcileArguments r sc c.demand c.parameters c.arguments)[i]? = some e' := hout
  rw [getElem?_reconcileArguments r sc c.demand _ _ _ ht hin, Option.some.injEq] at hout'
  exact hout'.symm

theorem pinned_reconcile (r : Rules) (sc : Scope) {c : Call} (hs : ¬ c.Short) :
    c.Pinned r.facts (c.reconcile r sc) where
  owner := rfl
  member := rfl
  parameters := rfl
  count := length_reconcileArguments r sc c.demand c.parameters c.arguments
  supplied := hs
  heads := by
    intro hcreates hover i e e' t hin hout ht he hp hr
    rw [argument_reconcile hin hout ht]
    exact Expr.head_reconcile r sc (required?_demand r.facts hcreates hover t) he hp hr

end Call

/-- **Overloads stay pinned.**  Every call of the unit, in the order of a walk, against the one that a run has made of
it. -/
theorem CastPass.run_pins_overloads (p : CastPass) (u u' : CompilationUnit) (report : CastReport)
    (hrun : (p.run u).result = .ok (report, u')) :
    List.Forall₂ (Call.Pinned p.rules.facts) (u.calls p.rules.anonymous) (u'.calls p.rules.anonymous) := by
  have hfault := (whole_ok hrun).1
  obtain ⟨-, rfl⟩ := run_ok hrun
  rw [fault?_stepsOf, (u.tours p.rules).fault] at hfault
  have hcalls := CompilationUnit.calls_reconcile hfault
  rw [Node.findSome?_fault?, List.findSome?_eq_none_iff] at hfault
  have hsupplied : ∀ c ∈ u.calls p.rules.anonymous, ¬ c.Short := fun c hc => c.fault?_site_eq_none.1 (hfault c hc)
  refine ((List.forall₂_and_left _ _).2 ⟨hsupplied, hcalls⟩).imp ?_
  rintro c - ⟨hs, sc, rfl⟩
  exact c.pinned_reconcile p.rules sc hs

/-- `put(argument)` in the body of a method, where `put` takes a list. -/
def CompilationUnit.put (argument : Expr) : CompilationUnit :=
  ⟨[⟨.ordinary, AccessFlag.isPublic, "Box", some ⟨"Box", .empty,
    [.method (.named "fill" "()V" (.ofPrimitive .void))
      (some [.expr ⟨2, .ofPrimitive .void, .call (.this 2 (.ofClass "Box")) ⟨"Box", "put", "(Ljava/util/List;)V"⟩ none
        [argument] [.ofClass "java/util/List"]⟩])]⟩⟩]⟩

/-- Facts of a class that has several methods `put` with one parameter. -/
def TypeFacts.overloadedPut : TypeFacts :=
  { Hierarchy.empty.facts with
    overloaded := fun owner member count => owner == "Box" && member == "put" && count == 1 }

/-- A new list that might go to another `put` gets a cast, and gives up its type arguments for it. -/
theorem CastPass.run_put :
    ((CastPass.ofFacts .overloadedPut).run (.put ⟨2, .object ⟨"java/util/ArrayList", some [.exact (.ofVar "T")], 0⟩,
        .new "()V" [] [] none⟩)).result =
      .ok ({ inserted := 1, erased := 1 },
        .put (.cast 2 (.ofClass "java/util/List") ⟨2, .ofClass "java/util/ArrayList", .new "()V" [] [] none⟩)) := by
  with_unfolding_all rfl

theorem CastPass.run_pins_overloads_put :
    TypeFacts.overloadedPut.overloaded "Box" "put" 1 = true ∧
      (Expr.cast 2 (.ofClass "java/util/List") ⟨2, .ofClass "java/util/ArrayList", .new "()V" [] [] none⟩).ty.HasHead
        (.ofClass "java/util/List") := by
  refine ⟨rfl, ?_⟩
  -- the call of `put` comes first, the creation of its argument second
  have h := run_pins_overloads _ _ _ _ run_put
  exact (List.forall₂_cons.1 h).1.heads rfl rfl 0 _ _ _ rfl rfl rfl (.inr rfl) rfl rfl

end Recast
