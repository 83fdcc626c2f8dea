import Mathlib.Data.List.Forall2
import Recast.Proofs.Balance
import Recast.Proofs.Bare
/-!
# Inserts — a run over a tree without casts

Where no cast stands, none can change its target, fall together with another or be taken away.  A slot is left or gets
one cast, and it gets one only where its expression does not suit (`Rules.edits_inserts`).  Nothing that is walked
afterwards meets a new cast a second time, so the casts of the tree that comes out are those of its slots, one each
(`CastPass.run_only_inserts`).
-/
namespace Recast

/-- **An expression that needs no cast** to the required type under the bounds of its scope. -/
inductive TypeFacts.Suits (f : TypeFacts) (b : TypeBounds) : Ty → Expr → Prop
  | null {required : Ty} {e : Expr} (h : e.isNull = true) : Suits f b required e
  | same {required : Ty} {e : Expr} (h : e.ty = required) : Suits f b required e
  | root {required : Ty} {e : Expr} (h : required.isRoot = true) : Suits f b required e
  | primitive {required : Ty} {e : Expr} (h : required.isPrimitive = true ∨ e.ty.isPrimitive = true) :
    Suits f b required e
  | assignable {target source : ClassType} {e : Expr} (hs : e.ty = .object source)
    (h : f.assignable b target source = true) : Suits f b (.object target) e

/-- **A demand that takes a cast** of `e` to `t`: to the required type or to its raw form, and only for want of a type
that suits, unless the slot is forced; a thrown expression to the type variable that the member throws. -/
inductive TypeFacts.Wants (f : TypeFacts) (b : TypeBounds) (d : Demand) (e : Expr) : Ty → Prop
  | required {required t : Ty} {forced : Bool} (hd : f.required? d = some (required, forced))
    (ht : t = required ∨ t = required.raw) (hunfit : forced = false → ¬ f.Suits b required e) : Wants f b d e t
  | thrown {t : Ty} (hd : d = .thrown t) (hne : e.ty ≠ t) : Wants f b d e t

/-- **A visit before and after a run that only inserts.**  A slot holds the same node, or one cast around an expression
that is none. -/
inductive Visit.Dressed (f : TypeFacts) : Visit → Visit → Prop
  | call (s : CallSite) : Dressed f (.call s) (.call s)
  | skip (w : Skipped) : Dressed f (.skip w) (.skip w)
  | left (sc : Scope) (d : Demand) {e e' : Expr} (hc : e'.isCast = false) (halike : e.Alike e')
    (hbare : e'.bare = e.bare) : Dressed f (.slot sc d e) (.slot sc d e')
  | wrapped (sc : Scope) (d : Demand) (l : UInt32) {t : Ty} {e x : Expr} (hc : x.isCast = false)
    (hbare : x.bare = e.bare) (ht : f.Wants sc.bounds d e t) :
    Dressed f (.slot sc d e) (.slot sc d (.cast l t x))

/-- The cast that stands in a slot. -/
def Visit.cast? : Visit → Option Expr
  | .slot _ _ e => if e.isCast then some e else none
  | .call _ => none
  | .skip _ => none

theorem TypeFacts.verdict_of_suits {f : TypeFacts} {b : TypeBounds} {required : Ty} {e : Expr}
    (hn : e.isNull = false) (h : f.Suits b required e) : f.verdict b false required e = .keep := by
  cases h with
  | null h =>
    rw [hn] at h
    cases h
  | same h => exact verdict_of_ty_eq h
  | root h => exact verdict_of_isRoot h
  | primitive h => exact verdict_of_isPrimitive h
  | assignable hs h => exact verdict_of_fitsBare (fitsBare_iff.2 ⟨_, _, rfl, hs, h⟩) rfl

/-! ## One slot -/

/-- **The edits of a slot that holds no cast.** -/
inductive Rules.Inserts (r : Rules) (b : TypeBounds) (d : Demand) (e : Expr) : List Edit → Prop
  | nothing : Inserts r b d e []
  | plain (line : UInt32) {t : Ty} (ht : r.facts.Wants b d e t) : Inserts r b d e [.insert line t]
  | erased (line : UInt32) {t : Ty} (hw : e.isNew = true) (ht : r.facts.Wants b d e t) :
    Inserts r b d e [.erase, .insert line t]

/-- A verdict to cast names a type that the slot wants. -/
theorem TypeFacts.Wants.of_verdict_cast {f : TypeFacts} {b : TypeBounds} {d : Demand} {required t : Ty} {forced : Bool}
    {e : Expr} (hd : f.required? d = some (required, forced)) (hn : e.isNull = false)
    (hv : f.verdict b forced required e = .cast t) : f.Wants b d e t := by
  refine .required hd ?_ fun hf hsuits => ?_
  · rcases (verdict_cast hv).target with ht | ⟨c, rfl, -, ht⟩
    · exact .inl ht
    · exact .inr ht
  · subst hf
    rw [verdict_of_suits hn hsuits] at hv
    cases hv

/-- **Where no cast stands, a slot is left or gets one cast.** -/
theorem Rules.edits_inserts (r : Rules) (b : TypeBounds) (d : Demand) {e : Expr} (hc : e.isCast = false) :
    r.Inserts b d e (r.edits b d e) := by
  cases hd : r.facts.required? d with
  | some p =>
    obtain ⟨required, forced⟩ := p
    rw [edits_of_required e hd]
    have hfit := r.fitting b required forced e
    generalize r.fitEdits b required forced e = es at hfit
    -- forced slots may want a cast of what suits
    have hpicked (hf : forced = true) : r.facts.Wants b d e required :=
      .required hd (.inl rfl) fun hf' => by
        rw [hf] at hf'
        cases hf'
    cases hfit with
    | nullKept | kept => exact .nothing
    | nullPicked line hn hf => exact .plain line (hpicked hf)
    | inserted line t hn _ hv => exact .plain line (.of_verdict_cast hd hn hv)
    | erased line hw hf => exact .erased line hw (hpicked hf)
    | _ => cases hc
  | none =>
    unfold edits
    cases d with
    | thrown t =>
      by_cases ht : e.ty = t
      · simp only [ht, if_true]
        exact .nothing
      · simp only [ht, if_false, Edit.castTo_of_not_cast t hc]
        exact .plain _ (.thrown rfl ht)
    | _ =>
      simp only [hd]
      exact .nothing

/-- **A slot that held no cast, settled.** -/
theorem Visit.dressed_settled (r : Rules) (sc : Scope) (d : Demand) {e : Expr} (hc : e.isCast = false) :
    Dressed r.facts (.slot sc d e) ((Visit.slot sc d e).settled r) := by
  have hinserts := r.edits_inserts sc.bounds d hc
  have hwalk := e.walk_alike r sc
  have hbare := e.bare_reconcile r sc none
  have hsettled : (Visit.slot sc d e).settled r =
      .slot sc d (Edit.applyAll (r.edits sc.bounds d e) (e.reconcile r sc none)) :=
    congrArg (Visit.slot sc d) (e.reconcile_eq_applyAll r sc (some d))
  rw [hsettled]
  generalize r.edits sc.bounds d e = es at hinserts
  cases hinserts with
  | nothing => exact .left sc d (hwalk.isCast.trans hc) hwalk hbare
  | plain line ht => exact .wrapped sc d line (hwalk.isCast.trans hc) hbare ht
  | @erased line t hw ht =>
    have hplan : Edit.Planned (e.reconcile r sc none) [.erase, .insert line t] := .erase line t (hwalk.isNew.trans hw)
    refine .wrapped sc d line ?_ (hplan.bare_applyAll.trans hbare) ht
    exact (Edit.isCast_erase _).trans (hwalk.isCast.trans hc)

/-- The casts at the top of a slot after such a run: the one that stands in it, or none. -/
theorem Visit.Dressed.topCasts {f : TypeFacts} {v : Visit} {sc : Scope} {d : Demand} {e : Expr}
    (h : Dressed f v (.slot sc d e)) : e.topCasts = (Visit.cast? (.slot sc d e)).toList := by
  cases h with
  | left _ _ hc =>
    simp only [cast?, hc, Expr.topCasts_of_not_cast hc, Bool.false_eq_true, if_false, Option.toList_none]
  | wrapped _ _ l hc =>
    exact congrArg (Expr.cast l _ _ :: ·) (Expr.topCasts_of_not_cast hc)

/-! ## The whole run -/

/-- **A report of insertions alone**; an erasure comes with an insertion. -/
def CastReport.OnlyInserts (r : CastReport) : Prop := r.retargeted = 0 ∧ r.collapsed = 0 ∧ r.removed = 0

theorem CastReport.OnlyInserts.add {a b : CastReport} (ha : a.OnlyInserts) (hb : b.OnlyInserts) :
    (a + b).OnlyInserts := by
  unfold OnlyInserts at *
  rw [add_eq]
  dsimp only
  omega

theorem Rules.Inserts.onlyInserts {r : Rules} {b : TypeBounds} {d : Demand} {e : Expr} {es : List Edit}
    (h : r.Inserts b d e es) : (CastReport.ofEdits es).OnlyInserts := by
  cases h <;> exact ⟨rfl, rfl, rfl⟩

/-- The edits of a whole run over slots without casts. -/
theorem Rules.editsOf_onlyInserts (r : Rules) : ∀ vs : List Visit,
    (∀ sc d e, .slot sc d e ∈ vs → e.isCast = false) → (CastReport.ofEdits (r.editsOf vs)).OnlyInserts
  | [], _ => ⟨rfl, rfl, rfl⟩
  | .slot sc d e :: vs, h => by
    have hrest := r.editsOf_onlyInserts vs fun sc d e he => h sc d e (List.mem_cons_of_mem _ he)
    have hedits : r.editsOf (.slot sc d e :: vs) = r.edits sc.bounds d e ++ r.editsOf vs := List.flatMap_cons
    rw [hedits, CastReport.ofEdits_append]
    exact (r.edits_inserts sc.bounds d (h sc d e List.mem_cons_self)).onlyInserts.add hrest
  | .call _ :: vs, h | .skip _ :: vs, h =>
    r.editsOf_onlyInserts vs fun sc d e he => h sc d e (List.mem_cons_of_mem _ he)

theorem castsOf_eq_nil_iff (xs : List Part) : castsOf xs = [] ↔ ∀ e, .position e ∈ xs → e.isCast = false := by
  unfold castsOf
  rw [List.flatMap_eq_nil_iff]
  constructor
  · intro h e he
    exact Expr.topCasts_eq_nil_iff.1 (h _ he)
  · intro h x hx
    cases x with
    | position e => exact Expr.topCasts_eq_nil_iff.2 (h e hx)
    | declared t => rfl

/-- **The casts of what comes out are those of the slots**, each once. -/
theorem Rules.Accounts.casts_perm {r : Rules} {vs : List Visit} {xs ys : List Part} (h : r.Accounts vs xs ys)
    (hbare : ∀ e, .position e ∈ xs → e.isCast = false) :
    (castsOf ys).Perm ((vs.map (Visit.settled r)).filterMap Visit.cast?) := by
  induction h with
  | nil => exact .nil
  | @part vs ws x y xs ys h _ ih =>
    have hrest := ih fun e he => hbare e (List.mem_cons_of_mem _ he)
    have hpart : y.casts = (vs.map (Visit.settled r)).filterMap Visit.cast? := by
      cases h with
      | declared t => rfl
      | untouched e => exact Expr.topCasts_of_not_cast (hbare e List.mem_cons_self)
      | walked sc e =>
        exact Expr.topCasts_of_not_cast ((e.walk_alike r sc).isCast.trans (hbare e List.mem_cons_self))
      | settled sc d e =>
        have hslot := (Visit.dressed_settled r sc d (hbare e List.mem_cons_self)).topCasts
        refine hslot.trans ?_
        rw [List.map_singleton, List.filterMap_cons, List.filterMap_nil]
        change (Visit.cast? ((Visit.slot sc d e).settled r)).toList = _
        cases Visit.cast? ((Visit.slot sc d e).settled r) <;> rfl
    rw [List.map_append, List.filterMap_append, ← hpart]
    exact hrest.append_left _
  | call s _ ih => exact ih hbare
  | skip w _ ih => exact ih hbare
  | reorder hp _ ih => exact (ih hbare).trans ((hp.map _).filterMap _)

/-- **On a tree without casts a run only inserts, and only where needed.**  Nothing is retargeted, collapsed or
removed.  The casts of the tree that comes out are those that stand in its slots.  The slots are those of the tree that
went in, and each is as it was or holds one cast, around an expression that is none, to a type that the slot wants. -/
theorem CastPass.run_only_inserts (p : CastPass) (u u' : CompilationUnit) (report : CastReport) (hu : u.casts = [])
    (hrun : (p.run u).result = .ok (report, u')) :
    report.retargeted = 0 ∧ report.collapsed = 0 ∧ report.removed = 0 ∧
    u'.casts.Perm ((u'.visits p.rules.settings.anonymousClassBodies).filterMap Visit.cast?) ∧
    List.Forall₂ (Visit.Dressed p.rules.facts) (u.visits p.rules.settings.anonymousClassBodies)
      (u'.visits p.rules.settings.anonymousClassBodies) := by
  obtain ⟨rfl, rfl⟩ := run_ok hrun
  have htraces := u.traces p.rules
  have hpositions := (castsOf_eq_nil_iff u.parts).1 hu
  have hslots (sc : Scope) (d : Demand) (e : Expr) (he : .slot sc d e ∈ u.visits p.rules.anonymous) :
      e.isCast = false := hpositions e (htraces.accounts.position_mem he)
  have hvisits := htraces.retraces.eq_map_settled hslots
  have hdressed : ∀ v ∈ u.visits p.rules.anonymous, Visit.Dressed p.rules.facts v (v.settled p.rules)
    | .slot sc d e, hv => Visit.dressed_settled p.rules sc d (hslots sc d e hv)
    | .call s, _ => .call s
    | .skip w, _ => .skip w
  have hreport := p.rules.editsOf_onlyInserts _ hslots
  rw [← filterMap_edit?_stepsOf] at hreport
  refine ⟨hreport.1, hreport.2.1, hreport.2.2, ?_, ?_⟩
  · rw [hvisits]
    exact htraces.accounts.casts_perm hpositions
  · rw [hvisits]
    exact List.forall₂_map_right_iff.2 (List.forall₂_same.2 hdressed)

/-- The cast that erasure has lost comes back, and stands in a branch of the conditional; the conditional itself and the
`null` are left. -/
theorem CastPass.run_only_inserts_readBack :
    (CompilationUnit.readBack (.localVar 3 .root "value")).casts = [] ∧
    (CompilationUnit.readBack (.cast 3 (.ofVar "T") (.localVar 3 .root "value"))).casts.Perm
      [.cast 3 (.ofVar "T") (.localVar 3 .root "value")] ∧
    List.Forall₂ (Visit.Dressed Hierarchy.empty.facts)
      ((CompilationUnit.readBack (.localVar 3 .root "value")).visits true)
      ((CompilationUnit.readBack (.cast 3 (.ofVar "T") (.localVar 3 .root "value"))).visits true) := by
  have hbare : (CompilationUnit.readBack (.localVar 3 .root "value")).casts = [] := by
    with_unfolding_all rfl
  obtain ⟨-, -, -, hcasts, hslots⟩ := run_only_inserts _ _ _ _ hbare run_readBack
  exact ⟨hbare, hcasts, hslots⟩

end Recast
