import Recast.Cast.Plan
/-!
# Plans — the lists of edits a slot can get

`Rules.fitEdits` decides in three steps: a verdict, the cast it asks for, and whether a cast has become needless.
`Rules.Fitting` is the same function read backwards: ten cases, each with the form of the expression, the list of
edits, and every test that led there.  `Rules.fitting` says that there are no others, and nothing after it unfolds
the decision.

`Edit.Planned` forgets the types and keeps the shape: which edits follow which on what kind of node.  That a new cast
is never taken away at once is part of it.
-/
namespace Recast

namespace TypeFacts

variable {f : TypeFacts} {b : TypeBounds} {forced : Bool} {required t : Ty} {e : Expr}

/-- Whether `x` fits as it is, by its class. -/
def fitsBare (f : TypeFacts) (b : TypeBounds) (required : Ty) (x : Expr) : Bool :=
  match required.class?, x.ty.class? with
  | some target, some source => f.assignable b target source
  | _, _ => false

theorem fitsBare_iff {x : Expr} : f.fitsBare b required x = true ↔
    ∃ target source, required = .object target ∧ x.ty = .object source ∧ f.assignable b target source = true := by
  unfold fitsBare
  cases required <;> cases x.ty <;> simp [Ty.class?]

theorem redundant_of_not_cast (h : e.castOperand? = none) : f.redundant b required e = false := by
  unfold redundant
  rw [h]
  cases required.class? <;> rfl

/-- A verdict between two classes that keeps found the source assignable. -/
theorem classVerdict_keep {isNew : Bool} {target source : ClassType}
    (h : f.classVerdict b forced isNew target source = .keep) : f.assignable b target source = true := by
  unfold classVerdict at h
  split at h
  · split at h <;> cases h
  · split at h
    · assumption
    · cases h

/-- **What a verdict to keep rests on.** -/
theorem verdict_keep (h : f.verdict b forced required e = .keep) :
    e.ty = required ∨ required.isRoot = true ∨ f.fitsBare b required e = true ∨
      required.isPrimitive = true ∨ e.ty.isPrimitive = true := by
  unfold verdict at h
  split at h
  · rename_i hk
    exact hk.imp id .inl
  · cases required with
    | primitive p d => exact .inr (.inr (.inr (.inl rfl)))
    | object target =>
      cases hs : e.ty with
      | primitive p d => exact .inr (.inr (.inr (.inr rfl)))
      | object source =>
        rw [hs] at h
        exact .inr (.inr (.inl (fitsBare_iff.2 ⟨target, source, rfl, hs, classVerdict_keep h⟩)))
      | var v => simp [hs] at h
    | var v =>
      cases hs : e.ty with
      | primitive p d => exact .inr (.inr (.inr (.inr rfl)))
      | object source => simp [hs] at h
      | var w => simp [hs] at h

/-- The target of a cast between classes: the required class, or its raw form where both have arguments. -/
theorem castTarget_cases (f : TypeFacts) (b : TypeBounds) (target source : ClassType) :
    f.castTarget b target source = target ∨
      f.castTarget b target source = target.raw ∧ target.arguments.isSome = true ∧ source.arguments.isSome = true := by
  unfold castTarget
  split
  · rename_i hts hss
    split
    · exact .inl rfl
    · exact .inr ⟨rfl, by simp [hts], by simp [hss]⟩
  · exact .inl rfl

/-- **What a verdict to cast rests on.**  The target is the required type or its raw form, and an expression in a slot
that is not forced does not fit as it is. -/
structure CastGrounds (f : TypeFacts) (b : TypeBounds) (required : Ty) (forced : Bool) (e : Expr) (t : Ty) : Prop where
  not_root : required.isRoot = false
  ty_ne : e.ty ≠ t
  target : t = required ∨ ∃ c, required = .object c ∧ c.arguments.isSome = true ∧ t = .object c.raw
  unfit : forced = false → f.fitsBare b required e = false

/-- A verdict between two classes that casts: either by force, or because the source is not assignable. -/
theorem classVerdict_cast {isNew : Bool} {target source : ClassType} (hne : source ≠ target)
    (h : f.classVerdict b forced isNew target source = .cast t) :
    .object source ≠ t ∧ (t = .object target ∨ target.arguments.isSome = true ∧ t = .object target.raw) ∧
      (forced = false → f.assignable b target source = false) := by
  unfold classVerdict at h
  split at h
  · rename_i hforced
    split at h
    · cases h
    · injection h with ht
      subst ht
      exact ⟨by simpa using hne, .inl rfl, fun hf => absurd hforced.1 (by simp [hf])⟩
  · split at h
    · cases h
    · rename_i hassign
      injection h with ht
      subst ht
      have hassign : f.assignable b target source = false := Bool.eq_false_iff.2 hassign
      rcases f.castTarget_cases b target source with hc | ⟨hc, hta, hsa⟩
      · rw [hc]
        exact ⟨by simpa using hne, .inl rfl, fun _ => hassign⟩
      · rw [hc]
        refine ⟨fun he => ?_, .inr ⟨hta, rfl⟩, fun _ => hassign⟩
        -- the source has arguments and the raw target has none
        injection he with he
        simp [he] at hsa

theorem verdict_cast (h : f.verdict b forced required e = .cast t) : f.CastGrounds b required forced e t := by
  unfold verdict at h
  split at h
  · cases h
  rename_i hk
  have hne : e.ty ≠ required := fun he => hk (.inl he)
  have hroot : required.isRoot = false := by simpa using fun hr => hk (.inr hr)
  split at h
  · rename_i target source hsource
    have hne' : source ≠ target := fun he => hne (hsource.trans (congrArg Ty.object he))
    obtain ⟨hty, hshape, hunfit⟩ := classVerdict_cast hne' h
    refine ⟨hroot, hsource ▸ hty, ?_, fun hf => ?_⟩
    · exact hshape.imp id fun hraw => ⟨target, rfl, hraw⟩
    · simpa [fitsBare, hsource, Ty.class?] using hunfit hf
  · rename_i c v hv
    injection h with ht
    exact ⟨hroot, ht ▸ hne, .inl ht.symm, fun _ => by simp [fitsBare, hv, Ty.class?]⟩
  · injection h with ht
    exact ⟨hroot, ht ▸ hne, .inl ht.symm, fun _ => by simp [fitsBare, Ty.class?]⟩
  · injection h with ht
    exact ⟨hroot, ht ▸ hne, .inl ht.symm, fun _ => by simp [fitsBare, Ty.class?]⟩
  · cases h

/-- **What a verdict to erase rests on**: an object creation in a forced slot, and the required type as the target. -/
theorem verdict_eraseAndCast (h : f.verdict b forced required e = .eraseAndCast t) :
    forced = true ∧ e.isNew = true ∧ t = required := by
  unfold verdict at h
  split at h
  · cases h
  · split at h
    · unfold classVerdict at h
      split at h
      · rename_i hforced
        split at h
        · rename_i hnew
          injection h with ht
          exact ⟨hforced.1, hnew, ht.symm⟩
        · cases h
      · split at h <;> cases h
    all_goals cases h

theorem verdict_of_ty_eq (h : e.ty = required) : f.verdict b forced required e = .keep := by
  unfold verdict
  rw [if_pos (.inl h)]

theorem verdict_of_isRoot (h : required.isRoot = true) : f.verdict b forced required e = .keep := by
  unfold verdict
  rw [if_pos (.inr h)]

theorem verdict_of_fitsBare (h : f.fitsBare b required e = true) (hf : forced = false) :
    f.verdict b forced required e = .keep := by
  obtain ⟨target, source, rfl, hs, ha⟩ := fitsBare_iff.1 h
  unfold verdict
  split
  · rfl
  · simp only [hs, classVerdict, hf, Bool.false_eq_true, false_and, if_false, ha, if_true]

/-- Between a class or a type variable and a primitive nothing is cast. -/
theorem verdict_of_isPrimitive (h : required.isPrimitive = true ∨ e.ty.isPrimitive = true) :
    f.verdict b forced required e = .keep := by
  unfold verdict
  split
  · rfl
  · cases required <;> cases hs : e.ty <;> simp_all [Ty.isPrimitive]

/-- A verdict looks at the type, and at whether the expression is an object creation. -/
theorem verdict_congr {e' : Expr} (ht : e'.ty = e.ty) (hn : e'.isNew = e.isNew) :
    f.verdict b forced required e' = f.verdict b forced required e := by
  unfold verdict
  rw [ht, hn]

theorem fitsBare_congr {e' : Expr} (ht : e'.ty = e.ty) : f.fitsBare b required e' = f.fitsBare b required e := by
  unfold fitsBare
  rw [ht]

end TypeFacts

namespace Expr

theorem castOperand?_eq_none {e : Expr} : e.castOperand? = none ↔ e.isCast = false := by
  obtain ⟨l, t, k⟩ := e
  cases k <;> simp [castOperand?, isCast]

theorem castOperand?_ne_some {e : Expr} (h : e.isCast = false) (x : Expr) : e.castOperand? ≠ some x := by
  rw [castOperand?_eq_none.2 h]
  exact nofun

theorem exists_of_isCast {e : Expr} (h : e.isCast = true) : ∃ l t x, e = ⟨l, t, .cast x⟩ := by
  obtain ⟨l, t, k⟩ := e
  cases k <;> simp [isCast] at h
  exact ⟨l, t, _, rfl⟩

theorem isCast_of_isNull {e : Expr} (h : e.isNull = true) : e.isCast = false := by
  obtain ⟨l, t, k⟩ := e
  cases k with
  | cast x => cases h
  | _ => rfl

theorem isCast_of_isNew {e : Expr} (h : e.isNew = true) : e.isCast = false := by
  obtain ⟨l, t, k⟩ := e
  cases k with
  | cast x => cases h
  | _ => rfl

end Expr

theorem Edit.castTo_of_not_cast {e : Expr} (target : Ty) (h : e.isCast = false) :
    Edit.castTo target e = .insert e.firstLine target := by
  unfold castTo
  rw [Expr.castOperand?_eq_none.2 h]

theorem Edit.castTo_cast (target : Ty) (l : UInt32) (s : Ty) (x : Expr) :
    Edit.castTo target ⟨l, s, .cast x⟩ =
      if x.ty = target then .collapse l s target else .retarget l s target := rfl

namespace Rules

/-- Whether the cast over `x` is taken away in a slot. -/
def unwraps (r : Rules) (b : TypeBounds) (required : Ty) (forced : Bool) (x : Expr) : Bool :=
  !forced && r.settings.removeRedundantCasts && r.facts.fitsBare b required x

theorem unwraps_iff {r : Rules} {b : TypeBounds} {required : Ty} {forced : Bool} {x : Expr} :
    r.unwraps b required forced x = true ↔
      forced = false ∧ r.settings.removeRedundantCasts = true ∧ r.facts.fitsBare b required x = true := by
  simp [unwraps, and_assoc]

theorem unwraps_of_forced {r : Rules} {b : TypeBounds} {required : Ty} {forced : Bool} (hf : forced = true) (x : Expr) :
    r.unwraps b required forced x = false := by
  simp [unwraps, hf]

theorem unwraps_congr {r : Rules} {b : TypeBounds} {required : Ty} {forced : Bool} {e e' : Expr} (ht : e'.ty = e.ty) :
    r.unwraps b required forced e' = r.unwraps b required forced e := by
  unfold unwraps
  rw [TypeFacts.fitsBare_congr ht]

/-- **The edits of a slot with a type to fit**, each list with the expression it is for and the tests behind it. -/
inductive Fitting (r : Rules) (b : TypeBounds) (required : Ty) (forced : Bool) : Expr → List Edit → Prop
  | nullKept {e : Expr} (hn : e.isNull = true) (hf : forced = false) : Fitting r b required forced e []
  | nullPicked {e : Expr} (line : UInt32) (hn : e.isNull = true) (hf : forced = true) :
    Fitting r b required forced e [.insert line required]
  | kept {e : Expr} (hn : e.isNull = false) (hv : r.facts.verdict b forced required e = .keep)
    (hu : ∀ x, e.castOperand? = some x → r.unwraps b required forced x = false) : Fitting r b required forced e []
  | removed (l : UInt32) (s : Ty) (x : Expr) (hv : r.facts.verdict b forced required ⟨l, s, .cast x⟩ = .keep)
    (hu : r.unwraps b required forced x = true) : Fitting r b required forced ⟨l, s, .cast x⟩ [.remove l s]
  | inserted {e : Expr} (line : UInt32) (t : Ty) (hn : e.isNull = false) (hc : e.isCast = false)
    (hv : r.facts.verdict b forced required e = .cast t) : Fitting r b required forced e [.insert line t]
  | erased {e : Expr} (line : UInt32) (hw : e.isNew = true) (hf : forced = true)
    (hv : r.facts.verdict b forced required e = .eraseAndCast required) :
    Fitting r b required forced e [.erase, .insert line required]
  | retargeted (l : UInt32) (s : Ty) (x : Expr) (t : Ty)
    (hv : r.facts.verdict b forced required ⟨l, s, .cast x⟩ = .cast t) (ht : x.ty ≠ t)
    (hu : r.unwraps b required forced x = false) : Fitting r b required forced ⟨l, s, .cast x⟩ [.retarget l s t]
  | retargetRemoved (l : UInt32) (s : Ty) (x : Expr) (t : Ty)
    (hv : r.facts.verdict b forced required ⟨l, s, .cast x⟩ = .cast t) (ht : x.ty ≠ t)
    (hu : r.unwraps b required forced x = true) :
    Fitting r b required forced ⟨l, s, .cast x⟩ [.retarget l s t, .remove l t]
  | collapsed (l : UInt32) (s : Ty) (x : Expr)
    (hv : r.facts.verdict b forced required ⟨l, s, .cast x⟩ = .cast x.ty)
    (hu : ∀ y, x.castOperand? = some y → r.unwraps b required forced y = false) :
    Fitting r b required forced ⟨l, s, .cast x⟩ [.collapse l s x.ty]
  | collapseRemoved (l : UInt32) (s : Ty) (m : UInt32) (t : Ty) (y : Expr)
    (hv : r.facts.verdict b forced required ⟨l, s, .cast ⟨m, t, .cast y⟩⟩ = .cast t)
    (hu : r.unwraps b required forced y = true) :
    Fitting r b required forced ⟨l, s, .cast ⟨m, t, .cast y⟩⟩ [.collapse l s t, .remove m t]

variable (r : Rules) (b : TypeBounds) (required : Ty) (forced : Bool)

theorem removal_of_not_cast {e : Expr} (h : e.isCast = false) :
    (!forced && r.settings.removeRedundantCasts && r.facts.redundant b required e) = false := by
  rw [TypeFacts.redundant_of_not_cast (Expr.castOperand?_eq_none.2 h), Bool.and_false]

theorem fitEdits_of_isNull {e : Expr} (hn : e.isNull = true) :
    r.Fitting b required forced e (r.fitEdits b required forced e) := by
  unfold fitEdits
  rw [if_pos hn]
  cases forced with
  | false => exact .nullKept hn rfl
  | true =>
    rw [if_pos rfl, Edit.castTo_of_not_cast required (Expr.isCast_of_isNull hn)]
    exact .nullPicked _ hn rfl

/-- The edits when the verdict keeps: only the removal of a cast is left to decide. -/
theorem fitEdits_of_keep {e : Expr} (hn : e.isNull = false) (hv : r.facts.verdict b forced required e = .keep) :
    r.Fitting b required forced e (r.fitEdits b required forced e) := by
  unfold fitEdits
  simp only [hn, Bool.false_eq_true, if_false, hv, Verdict.edits, Edit.applyAll, List.foldl_nil, List.nil_append]
  cases hc : e.isCast with
  | false =>
    rw [removal_of_not_cast r b required forced hc, if_neg Bool.false_ne_true]
    exact .kept hn hv fun x hx => absurd hx (Expr.castOperand?_ne_some hc x)
  | true =>
    obtain ⟨l, s, x, rfl⟩ := Expr.exists_of_isCast hc
    change r.Fitting b required forced _ (if r.unwraps b required forced x = true then _ else _)
    cases hu : r.unwraps b required forced x with
    | true => exact .removed l s x hv hu
    | false => exact .kept hn hv fun y hy => by cases hy; exact hu

/-- The edits of a cast that has to change its target: merge first, then decide on its removal. -/
theorem fitEdits_of_cast_cast {t : Ty} (l : UInt32) (s : Ty) (x : Expr)
    (hv : r.facts.verdict b forced required ⟨l, s, .cast x⟩ = .cast t) :
    r.Fitting b required forced ⟨l, s, .cast x⟩ (r.fitEdits b required forced ⟨l, s, .cast x⟩) := by
  unfold fitEdits
  simp only [Expr.isNull, Bool.false_eq_true, if_false, hv, Verdict.edits, Edit.castTo_cast, Edit.applyAll,
    List.foldl_cons, List.foldl_nil]
  by_cases ht : x.ty = t
  · subst ht
    rw [if_pos rfl]
    simp only [Edit.apply, Edit.uncast]
    cases hc : x.isCast with
    | false =>
      simp only [removal_of_not_cast r b required forced hc, Bool.false_eq_true, if_false]
      exact .collapsed l s x hv fun y hy => absurd hy (Expr.castOperand?_ne_some hc y)
    | true =>
      obtain ⟨m, t, y, rfl⟩ := Expr.exists_of_isCast hc
      change r.Fitting b required forced _ (if r.unwraps b required forced y = true then _ else _)
      cases hu : r.unwraps b required forced y with
      | true => exact .collapseRemoved l s m t y hv hu
      | false => exact .collapsed l s _ hv fun z hz => by cases hz; exact hu
  · rw [if_neg ht]
    simp only [Edit.apply]
    change r.Fitting b required forced _ (if r.unwraps b required forced x = true then _ else _)
    cases hu : r.unwraps b required forced x with
    | true => exact .retargetRemoved l s x t hv ht hu
    | false => exact .retargeted l s x t hv ht hu

/-- A new cast is not redundant: the verdict has just found that the expression does not fit without. -/
theorem unwraps_of_verdict_cast {t : Ty} {e : Expr} (hv : r.facts.verdict b forced required e = .cast t) :
    r.unwraps b required forced e = false := by
  cases hu : r.unwraps b required forced e with
  | false => rfl
  | true =>
    obtain ⟨hforced, -, hbare⟩ := unwraps_iff.1 hu
    rw [(TypeFacts.verdict_cast hv).unfit hforced] at hbare
    cases hbare

/-- An expression that gets a new cast gets nothing else. -/
theorem fitEdits_eq_insert {t : Ty} {e : Expr} (hn : e.isNull = false) (hc : e.isCast = false)
    (hv : r.facts.verdict b forced required e = .cast t) :
    r.fitEdits b required forced e = [.insert e.firstLine t] := by
  have hu := unwraps_of_verdict_cast r b required forced hv
  unfold fitEdits
  simp only [hn, Bool.false_eq_true, if_false, hv, Verdict.edits, Edit.castTo_of_not_cast t hc, Edit.applyAll,
    List.foldl_cons, List.foldl_nil, Edit.apply, Expr.cast]
  change (if r.unwraps b required forced e = true then _ else _) = _
  rw [hu, if_neg Bool.false_ne_true]

theorem fitEdits_of_cast_bare {t : Ty} {e : Expr} (hn : e.isNull = false) (hc : e.isCast = false)
    (hv : r.facts.verdict b forced required e = .cast t) :
    r.Fitting b required forced e (r.fitEdits b required forced e) := by
  rw [fitEdits_eq_insert r b required forced hn hc hv]
  exact .inserted _ t hn hc hv

/-- **There are no other edits.** -/
theorem fitting (e : Expr) : r.Fitting b required forced e (r.fitEdits b required forced e) := by
  cases hn : e.isNull with
  | true => exact fitEdits_of_isNull r b required forced hn
  | false =>
    cases hv : r.facts.verdict b forced required e with
    | keep => exact fitEdits_of_keep r b required forced hn hv
    | cast t =>
      cases hc : e.isCast with
      | false => exact fitEdits_of_cast_bare r b required forced hn hc hv
      | true =>
        obtain ⟨l, s, x, rfl⟩ := Expr.exists_of_isCast hc
        exact fitEdits_of_cast_cast r b required forced l s x hv
    | eraseAndCast t =>
      obtain ⟨rfl, hw, rfl⟩ := TypeFacts.verdict_eraseAndCast hv
      unfold fitEdits
      simp only [hn, Bool.false_eq_true, if_false, hv, Verdict.edits,
        Edit.castTo_of_not_cast t (Expr.isCast_of_isNew hw), Bool.not_true, Bool.false_and]
      exact .erased _ hw rfl hv

end Rules

namespace Edit

/-- **The shape of a plan**: which edits follow which, on which kind of node. -/
inductive Planned : Expr → List Edit → Prop
  | keep (e : Expr) : Planned e []
  | insert {e : Expr} (line : UInt32) (t : Ty) (hc : e.isCast = false) : Planned e [.insert line t]
  | erase {e : Expr} (line : UInt32) (t : Ty) (hw : e.isNew = true) : Planned e [.erase, .insert line t]
  | retarget (l : UInt32) (s : Ty) (x : Expr) (t : Ty) (ht : t ≠ s) : Planned ⟨l, s, .cast x⟩ [.retarget l s t]
  | collapse (l : UInt32) (s : Ty) (x : Expr) : Planned ⟨l, s, .cast x⟩ [.collapse l s x.ty]
  | remove (l : UInt32) (s : Ty) (x : Expr) : Planned ⟨l, s, .cast x⟩ [.remove l s]
  | retargetRemove (l : UInt32) (s : Ty) (x : Expr) (t : Ty) :
    Planned ⟨l, s, .cast x⟩ [.retarget l s t, .remove l t]
  | collapseRemove (l : UInt32) (s : Ty) (m : UInt32) (t : Ty) (y : Expr) :
    Planned ⟨l, s, .cast ⟨m, t, .cast y⟩⟩ [.collapse l s t, .remove m t]

theorem planned_castTo {t : Ty} {e : Expr} (ht : e.ty ≠ t) : Planned e [castTo t e] := by
  cases hc : e.isCast with
  | false =>
    rw [castTo_of_not_cast t hc]
    exact .insert _ t hc
  | true =>
    obtain ⟨l, s, x, rfl⟩ := Expr.exists_of_isCast hc
    rw [castTo_cast]
    split
    · rename_i hx
      subst hx
      exact .collapse l s x
    · exact .retarget l s x t (Ne.symm ht)

theorem planned_of_fitting {r : Rules} {b : TypeBounds} {required : Ty} {forced : Bool} {e : Expr} {es : List Edit}
    (h : r.Fitting b required forced e es) : Planned e es := by
  cases h with
  | nullKept | kept => exact .keep e
  | nullPicked line hn => exact .insert line required (Expr.isCast_of_isNull hn)
  | removed l s x => exact .remove l s x
  | inserted line t _ hc => exact .insert line t hc
  | erased line hw => exact .erase line required hw
  | retargeted l s x t hv => exact .retarget l s x t (Ne.symm (TypeFacts.verdict_cast hv).ty_ne)
  | retargetRemoved l s x t => exact .retargetRemove l s x t
  | collapsed l s x => exact .collapse l s x
  | collapseRemoved l s m t y => exact .collapseRemove l s m t y

end Edit

namespace Rules

theorem edits_of_required {r : Rules} {b : TypeBounds} {d : Demand} {required : Ty} {forced : Bool} (e : Expr)
    (h : r.facts.required? d = some (required, forced)) : r.edits b d e = r.fitEdits b required forced e := by
  unfold edits
  cases d with
  | thrown t => cases h
  | _ => simp only [h]

theorem planned (r : Rules) (b : TypeBounds) (d : Demand) (e : Expr) : Edit.Planned e (r.edits b d e) := by
  cases hd : r.facts.required? d with
  | some p =>
    rw [edits_of_required e hd]
    exact Edit.planned_of_fitting (r.fitting b p.1 p.2 e)
  | none =>
    unfold edits
    cases d with
    | thrown t =>
      by_cases ht : e.ty = t
      · simp only [ht, if_true]
        exact .keep e
      · simp only [ht, if_false]
        exact Edit.planned_castTo ht
    | _ =>
      simp only [hd]
      exact .keep e

theorem planned_editsAt (r : Rules) (b : TypeBounds) (e : Expr) : ∀ d, Edit.Planned e (r.editsAt b d e)
  | none => .keep e
  | some d => r.planned b d e

end Rules

end Recast
