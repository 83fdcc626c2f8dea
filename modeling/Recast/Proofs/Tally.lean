import Recast.Proofs.Balance
import Recast.Proofs.Lines
import Recast.Proofs.Plain
/-!
# Tallies — kinds of casts that a run does not multiply

Of some kinds a cast can be told to be by its target and the node right under it.  A walk leaves both, so the number of
casts of the kind changes in slots alone, and what no slot raises a run does not raise (`CastPass.run_countP_le`).

Two kinds are counted.  A cast right over another: a new cast goes around what is no cast, and where a cast goes, those
under it keep what they stand on, so a run stacks no casts (`CastPass.run_never_stacks`).  A cast to the root of what is
no `null`: the root takes everything as it is, so nothing but a `null` that has to pick an overload gets a cast to it,
as long as the root is never asked for with arguments, whose raw form it is (`CastPass.run_casts_no_value_to_root`).
Neither the unit nor the facts may ask so: where a class is resolved to `Object<String>`, a unit without such a type gets
a cast to the root all the same (`CastPass.exists_run_casts_value_to_root`).
-/
namespace Recast

namespace Expr

/-- A cast right over another cast. -/
def isStacked : Expr → Bool
  | ⟨_, _, .cast x⟩ => x.isCast
  | _ => false

/-- A cast to the root, around anything but a `null` literal. -/
def castsValueToRoot : Expr → Bool
  | ⟨_, t, .cast x⟩ => t.isRoot && !x.isNull
  | _ => false

/-- **A kind of casts that shows at the top**: a test that sees the cast and the node right under it. -/
def Shallow (q : Expr → Bool) : Prop :=
  ∀ (l : UInt32) (t : Ty) {x x' : Expr}, x.Alike x' → q ⟨l, t, .cast x'⟩ = q ⟨l, t, .cast x⟩

theorem shallow_isStacked : Shallow isStacked := fun _ _ _ _ h => h.isCast

theorem shallow_castsValueToRoot : Shallow castsValueToRoot :=
  fun _ t _ _ h => congrArg (fun isNull => t.isRoot && !isNull) h.isNull

theorem castsValueToRoot_of_ne_root {t : Ty} (l : UInt32) (x : Expr) (h : t ≠ .root) :
    castsValueToRoot ⟨l, t, .cast x⟩ = false := by
  have hroot : t.isRoot = false := Bool.eq_false_iff.2 fun hr => h ((Ty.isRoot_iff t).1 hr)
  rw [castsValueToRoot, hroot, Bool.false_and]

/-- How many of the casts at the top are of a kind. -/
def tally (q : Expr → Bool) (e : Expr) : Nat := e.topCasts.countP q

variable {q : Expr → Bool} {e : Expr}

theorem tally_cast (q : Expr → Bool) (l : UInt32) (t : Ty) (x : Expr) :
    tally q ⟨l, t, .cast x⟩ = x.tally q + if q ⟨l, t, .cast x⟩ then 1 else 0 := List.countP_cons

theorem tally_of_not_cast (hc : e.isCast = false) : e.tally q = 0 := by
  rw [tally, topCasts_of_not_cast hc, List.countP_nil]

/-- A cast that goes takes none of those under it along. -/
theorem tally_operand_le (q : Expr → Bool) (l : UInt32) (t : Ty) (x : Expr) : x.tally q ≤ tally q ⟨l, t, .cast x⟩ := by
  rw [tally_cast]
  exact Nat.le_add_right _ _

/-- **A walk leaves the tally**: it changes neither targets nor what the casts stand on. -/
theorem tally_walk (hq : Shallow q) (r : Rules) (sc : Scope) : ∀ e : Expr, (e.reconcile r sc none).tally q = e.tally q
  | ⟨l, t, k⟩ => by
    cases hc : isCast ⟨l, t, k⟩ with
    | false => rw [tally_of_not_cast hc, tally_of_not_cast ((walk_alike r sc _).isCast.trans hc)]
    | true =>
      cases k with
      | cast x => rw [walk_cast, tally_cast, tally_cast, tally_walk hq r sc x, hq l t (x.walk_alike r sc)]
      | _ => cases hc

end Expr

/-! ## From slots to a run -/

/-- **A tally that no slot raises is not raised over all the parts.** -/
theorem Rules.Accounts.countP_le {r : Rules} {q : Expr → Bool} (hq : Expr.Shallow q) {vs : List Visit}
    {xs ys : List Part} (h : r.Accounts vs xs ys)
    (hslot : ∀ sc d e, .slot sc d e ∈ vs → (r.settle sc.bounds d e).tally q ≤ e.tally q) :
    (castsOf ys).countP q ≤ (castsOf xs).countP q := by
  induction h with
  | nil => exact Nat.le_refl _
  | @part vs ws x y xs ys h _ ih =>
    have hrest := ih fun sc d e hv => hslot sc d e (List.mem_append_right vs hv)
    have hpart : y.casts.countP q ≤ x.casts.countP q := by
      cases h with
      | declared t => exact Nat.le_refl _
      | untouched e => exact Nat.le_refl _
      | walked sc e => exact Nat.le_of_eq (e.tally_walk hq r sc)
      | settled sc d e =>
        have hsettled : (e.reconcile r sc (some d)).tally q = (r.settle sc.bounds d e).tally q := by
          rw [Expr.reconcile_some, Expr.tally_walk hq]
        exact Nat.le_trans (Nat.le_of_eq hsettled) (hslot sc d e (List.mem_append_left ws List.mem_cons_self))
    unfold castsOf at *
    rw [List.flatMap_cons, List.flatMap_cons, List.countP_append, List.countP_append]
    exact Nat.add_le_add hpart hrest
  | call s _ ih => exact ih fun sc d e hv => hslot sc d e (List.mem_cons_of_mem _ hv)
  | skip w _ ih => exact ih fun sc d e hv => hslot sc d e (List.mem_cons_of_mem _ hv)
  | reorder hp _ ih => exact ih fun sc d e hv => hslot sc d e (hp.mem_iff.1 hv)

theorem CastPass.run_countP_le {p : CastPass} {u u' : CompilationUnit} {report : CastReport} {q : Expr → Bool}
    (hq : Expr.Shallow q) (hrun : (p.run u).result = .ok (report, u'))
    (hslot : ∀ sc d e, .slot sc d e ∈ u.visits p.rules.anonymous →
      (p.rules.settle sc.bounds d e).tally q ≤ e.tally q) :
    u'.casts.countP q ≤ u.casts.countP q := by
  obtain ⟨-, rfl⟩ := run_ok hrun
  exact (u.traces p.rules).accounts.countP_le hq hslot

/-! ## From edits to a slot -/

namespace Edit

/-- The target of the cast that an edit makes or changes. -/
def target? : Edit → Option Ty
  | insert _ t => some t
  | retarget _ _ t => some t
  | collapse .. => none
  | remove .. => none
  | erase => none

theorem target?_castTo (t : Ty) (e : Expr) {s : Ty} (h : (castTo t e).target? = some s) : s = t := by
  unfold castTo at h
  split at h
  · split at h
    · cases h
    · exact (Option.some.inj h).symm
  · exact (Option.some.inj h).symm

/-- What is created is no `null`, whatever becomes of its type. -/
theorem isNull_erase {e : Expr} (hw : e.isNew = true) : (erase.apply e).isNull = e.isNull := by
  obtain ⟨l, t, k⟩ := e
  cases k with
  | new desc as ps b => rfl
  | _ => cases hw

/-- **A plan raises no tally** where no cast that is new is of the kind, and none becomes so by a new target. -/
theorem Planned.tally_le {q : Expr → Bool} {e : Expr} {es : List Edit} (h : Planned e es)
    (hnew : ∀ line t x, .insert line t ∈ es → x.isCast = false → x.isNull = e.isNull → q (.cast line t x) = false)
    (hchanged : ∀ l s t x, e = ⟨l, s, .cast x⟩ → .retarget l s t ∈ es → q ⟨l, t, .cast x⟩ = true → q e = true) :
    (applyAll es e).tally q ≤ e.tally q := by
  -- what is not of the kind and stands over no cast has nothing to count
  have hzero {line : UInt32} {t : Ty} {x : Expr} (hc : x.isCast = false) (hq : q (.cast line t x) = false) :
      (Expr.cast line t x).tally q ≤ e.tally q := by
    rw [Expr.cast, Expr.tally_cast, Expr.tally_of_not_cast hc, ← Expr.cast, hq]
    exact Nat.zero_le _
  cases h with
  | keep => exact Nat.le_refl _
  | insert line t hc => exact hzero hc (hnew line t e List.mem_cons_self hc rfl)
  | erase line t hw =>
    have hc : (Edit.erase.apply e).isCast = false := (isCast_erase e).trans (Expr.isCast_of_isNew hw)
    exact hzero hc (hnew line t _ (List.mem_cons_of_mem _ List.mem_cons_self) hc (isNull_erase hw))
  | retarget l s x t =>
    have hkind := hchanged l s t x rfl List.mem_cons_self
    change Expr.tally q ⟨l, t, .cast x⟩ ≤ Expr.tally q ⟨l, s, .cast x⟩
    rw [Expr.tally_cast, Expr.tally_cast]
    refine Nat.add_le_add_left ?_ _
    split
    · rename_i hq
      exact Nat.le_of_eq (if_pos (hkind hq)).symm
    · exact Nat.zero_le _
  | collapse l s x => exact Expr.tally_operand_le q l s x
  | remove l s x => exact Expr.tally_operand_le q l s x
  | retargetRemove l s x t => exact Expr.tally_operand_le q l s x
  | collapseRemove l s m t y => exact Nat.le_trans (Expr.tally_operand_le q m t y) (Expr.tally_operand_le q l s _)

end Edit

/-! ## Casts over casts -/

/-- **A run stacks no casts.**  In the whole tree there are not more casts right over casts than before, and none where
there was none. -/
theorem CastPass.run_never_stacks (p : CastPass) (u u' : CompilationUnit) (report : CastReport)
    (hrun : (p.run u).result = .ok (report, u')) :
    u'.casts.countP Expr.isStacked ≤ u.casts.countP Expr.isStacked ∧
    ((∀ e ∈ u.casts, e.isStacked = false) → ∀ e ∈ u'.casts, e.isStacked = false) := by
  have hle : u'.casts.countP Expr.isStacked ≤ u.casts.countP Expr.isStacked := by
    refine run_countP_le Expr.shallow_isStacked hrun fun sc d e _ => ?_
    refine (p.rules.planned sc.bounds d e).tally_le (fun _ _ _ _ hc _ => hc) fun l s t x he _ hstacked => ?_
    rw [he]
    exact hstacked
  refine ⟨hle, fun hnone e he => ?_⟩
  have hzero : u.casts.countP Expr.isStacked = 0 :=
    List.countP_eq_zero.2 fun e he => Bool.eq_false_iff.1 (hnone e he)
  rw [hzero, Nat.le_zero] at hle
  exact Bool.eq_false_iff.2 (List.countP_eq_zero.1 hle e he)

/-- Of two casts over a value read through the root the outer one falls onto the inner. -/
theorem CastPass.run_readBack_stacked :
    ((CastPass.ofFacts Hierarchy.empty.facts).run
      (.readBack (.cast 3 .root (.cast 3 (.ofVar "T") (.localVar 3 .root "value"))))).result =
        .ok ({ collapsed := 1 }, .readBack (.cast 3 (.ofVar "T") (.localVar 3 .root "value"))) := by
  with_unfolding_all rfl

theorem CastPass.run_never_stacks_readBack :
    (CompilationUnit.readBack (.cast 3 (.ofVar "T") (.localVar 3 .root "value"))).casts.countP Expr.isStacked ≤
      (CompilationUnit.readBack
        (.cast 3 .root (.cast 3 (.ofVar "T") (.localVar 3 .root "value")))).casts.countP Expr.isStacked :=
  (run_never_stacks _ _ _ _ run_readBack_stacked).1

/-! ## Casts to the root -/

/-- Nothing but a `null` that picks an overload is cast to a root that is required without arguments. -/
theorem Rules.Fitting.target_ne_root {r : Rules} {b : TypeBounds} {required t : Ty} {forced : Bool} {e : Expr}
    {es : List Edit} {ed : Edit} (h : r.Fitting b required forced e es) (hr : required.parameterizesRoot = false)
    (hed : ed ∈ es) (ht : ed.target? = some t) : t ≠ .root ∨ e.isNull = true := by
  cases h with
  | nullKept | kept => cases hed
  | nullPicked line hn => exact .inr hn
  | inserted line t hn hc hv =>
    cases List.mem_singleton.1 hed
    cases ht
    exact .inl (TypeFacts.verdict_cast_ne_root hr hv)
  | erased line hw hf hv =>
    -- the root itself is not asked to erase anything
    have hroot : required ≠ .root := fun he => by
      rw [TypeFacts.verdict_of_isRoot ((Ty.isRoot_iff required).2 he)] at hv
      cases hv
    rcases List.mem_cons.1 hed with rfl | hed
    · cases ht
    · cases List.mem_singleton.1 hed
      cases ht
      exact .inl hroot
  | retargeted l s x t hv =>
    cases List.mem_singleton.1 hed
    cases ht
    exact .inl (TypeFacts.verdict_cast_ne_root hr hv)
  | retargetRemoved l s x t hv =>
    rcases List.mem_cons.1 hed with rfl | hed
    · cases ht
      exact .inl (TypeFacts.verdict_cast_ne_root hr hv)
    · cases List.mem_singleton.1 hed
      cases ht
  | removed | collapsed =>
    cases List.mem_singleton.1 hed
    cases ht
  | collapseRemoved =>
    rcases List.mem_cons.1 hed with rfl | hed
    · cases ht
    · cases List.mem_singleton.1 hed
      cases ht

/-- **What a plain slot casts to is not the root**, but where a `null` has to pick an overload. -/
theorem Rules.target_ne_root {r : Rules} {b : TypeBounds} {d : Demand} {e : Expr} {ed : Edit} {t : Ty}
    (hf : r.facts.Plain) (hd : d.Plain) (hed : ed ∈ r.edits b d e) (ht : ed.target? = some t) :
    t ≠ .root ∨ e.isNull = true := by
  cases hq : r.facts.required? d with
  | some p =>
    rw [edits_of_required e hq] at hed
    exact (r.fitting b p.1 p.2 e).target_ne_root (hd.required hf hq) hed ht
  | none =>
    unfold edits at hed
    cases d with
    | thrown s =>
      have hs : s ≠ .root := by
        rintro rfl
        cases hd
      by_cases he : e.ty = s
      · simp only [he, if_true] at hed
        cases hed
      · simp only [he, if_false] at hed
        cases List.mem_singleton.1 hed
        exact .inl (Edit.target?_castTo s e ht ▸ hs)
    | _ =>
      simp only [hq] at hed
      cases hed

/-- **A run casts no value to the root.**  Where neither the facts nor a type of the unit gives arguments to the root,
there are not more casts to the root around anything but a `null` than before; whatever a hierarchy resolves is raw
(`Hierarchy.plain_facts`). -/
theorem CastPass.run_casts_no_value_to_root (p : CastPass) (u u' : CompilationUnit) (report : CastReport)
    (hf : p.rules.facts.Plain) (hu : u.Plain) (hrun : (p.run u).result = .ok (report, u')) :
    u'.casts.countP Expr.castsValueToRoot ≤ u.casts.countP Expr.castsValueToRoot := by
  have hvisits := u.plainVisits p.rules.settings.anonymousClassBodies hu
  refine run_countP_le Expr.shallow_castsValueToRoot hrun fun sc d e hslot => ?_
  have htarget {ed : Edit} {t : Ty} (hed : ed ∈ p.rules.edits sc.bounds d e) (ht : ed.target? = some t) :
      t ≠ .root ∨ e.isNull = true := Rules.target_ne_root hf (hvisits _ hslot) hed ht
  refine (p.rules.planned sc.bounds d e).tally_le (fun line t x hed _ hnull => ?_) fun l s t x he hed hkind => ?_
  · rcases htarget hed rfl with ht | hn
    · exact Expr.castsValueToRoot_of_ne_root line x ht
    · rw [Expr.cast, Expr.castsValueToRoot, hnull, hn, Bool.not_true, Bool.and_false]
  · rcases htarget hed rfl with ht | hn
    · have hno : Expr.castsValueToRoot ⟨l, t, .cast x⟩ = false := Expr.castsValueToRoot_of_ne_root l x ht
      rw [hno] at hkind
      cases hkind
    · rw [he] at hn
      cases hn

theorem CompilationUnit.plain_readBack :
    (readBack (.cast 3 .root (.cast 3 (.ofVar "T") (.localVar 3 .root "value")))).Plain := by
  have hparts : (readBack (.cast 3 .root (.cast 3 (.ofVar "T") (.localVar 3 .root "value")))).parts =
      [.declared (.ofVar "T"),
        .position (.conditional 3 (.ofVar "T") (.localVar 3 (.ofPrimitive .boolean) "flag")
          (.cast 3 .root (.cast 3 (.ofVar "T") (.localVar 3 .root "value"))) (.null 4)),
        .position (.localVar 3 (.ofPrimitive .boolean) "flag"),
        .position (.cast 3 .root (.cast 3 (.ofVar "T") (.localVar 3 .root "value"))),
        .position (.null 4)] := by
    with_unfolding_all rfl
  unfold Plain
  rw [hparts]
  simp only [List.forall_mem_cons, List.not_mem_nil, false_imp_iff, implies_true, and_true]
  exact ⟨rfl, Expr.plain_of_not_cast rfl rfl, Expr.plain_of_not_cast rfl rfl,
    Expr.plain_cast 3 rfl (Expr.plain_cast 3 rfl (Expr.plain_of_not_cast rfl rfl)), Expr.plain_of_not_cast rfl rfl⟩

theorem CastPass.run_casts_no_value_to_root_readBack :
    (CompilationUnit.readBack (.cast 3 (.ofVar "T") (.localVar 3 .root "value"))).casts.countP Expr.castsValueToRoot ≤
      (CompilationUnit.readBack
        (.cast 3 .root (.cast 3 (.ofVar "T") (.localVar 3 .root "value")))).casts.countP Expr.castsValueToRoot :=
  run_casts_no_value_to_root _ _ _ _ Hierarchy.empty.plain_facts CompilationUnit.plain_readBack run_readBack_stacked

/-- Facts that resolve every class to `Object<String>`. -/
def TypeFacts.parameterizingRoot : TypeFacts :=
  { Hierarchy.empty.facts with resolve? := fun _ => some ⟨ClassType.rootName, some [.exact (.object .string)], 0⟩ }

/-- A variable of the type `Box<Integer>`. -/
def Expr.boxedInteger : Expr := .localVar 7 (.object ⟨"Box", some [.exact (.ofClass "java/lang/Integer")], 0⟩) "value"

theorem CompilationUnit.plain_readSize : (readSize .boxedInteger).Plain := by
  have hparts : (readSize .boxedInteger).parts =
      [.declared (.ofPrimitive .void),
        .position ⟨9, .ofPrimitive .int, .field (some .boxedInteger) ⟨"Box", "size", "I"⟩⟩,
        .position .boxedInteger] := by
    with_unfolding_all rfl
  unfold Plain
  rw [hparts]
  simp only [List.forall_mem_cons, List.not_mem_nil, false_imp_iff, implies_true, and_true]
  exact ⟨rfl, Expr.plain_of_not_cast rfl rfl, Expr.plain_of_not_cast rfl rfl⟩

/-- `Box<Integer>` does not fit `Object<String>`, and the raw form of that is the root. -/
theorem CastPass.run_readSize_boxedInteger :
    ((CastPass.ofFacts .parameterizingRoot).run (.readSize .boxedInteger)).result =
      .ok ({ inserted := 1 }, .readSize (.cast 7 .root .boxedInteger)) := by
  with_unfolding_all rfl

/-- **Facts may bring a cast to the root.**  In `value.size` nothing but the facts gives arguments to the root, and the
value gets a cast to it. -/
theorem CastPass.exists_run_casts_value_to_root :
    ¬ ∀ (p : CastPass) (u u' : CompilationUnit) (report : CastReport), u.Plain → (p.run u).result = .ok (report, u') →
      u'.casts.countP Expr.castsValueToRoot ≤ u.casts.countP Expr.castsValueToRoot := by
  intro hall
  have hle := hall _ _ _ _ CompilationUnit.plain_readSize run_readSize_boxedInteger
  have hbefore : (CompilationUnit.readSize .boxedInteger).casts = [] := by
    with_unfolding_all rfl
  have hafter : (CompilationUnit.readSize (.cast 7 .root .boxedInteger)).casts = [.cast 7 .root .boxedInteger] := by
    with_unfolding_all rfl
  rw [hbefore, hafter] at hle
  exact absurd hle (by decide)

end Recast
