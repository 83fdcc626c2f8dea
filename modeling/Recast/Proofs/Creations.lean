import Recast.Proofs.Balance
import Recast.Proofs.Frame
import Recast.Proofs.Heads
/-!
# Creations — the type arguments that object creations lose

An object creation in a forced slot gives up its type arguments for the cast around it.  No other edit touches what
stands under the casts of a position, and a walk leaves it, so the object creations of a tree answer one to one, each
with the type it had or with the raw form of it.

The report counts the slots that make an object creation raw.  Where it was raw already there is nothing to lose, and
it counts all the same: the report has the type arguments that are gone, and the raw object creations that have been
cast by force besides (`CastPass.run_counts_erasures`).
-/
namespace Recast

/-- Whether type arguments are written, if only those of the diamond. -/
def Ty.hasArguments : Ty → Bool
  | .object c => c.arguments.isSome
  | _ => false

@[simp] theorem Ty.hasArguments_raw (t : Ty) : t.raw.hasArguments = false := by
  cases t <;> rfl

/-- The type of the object creation in a position, under whatever casts. -/
def Expr.creation? (e : Expr) : Option Ty := if e.core.isNew then some e.core.ty else none

def Part.creation? : Part → Option Ty
  | position e => e.creation?
  | declared _ => none

def creationsOf (xs : List Part) : List Ty := xs.filterMap (·.creation?)

/-- **The types of the object creations in a unit**, skipped members and bodies that are not entered included. -/
def CompilationUnit.creations (u : CompilationUnit) : List Ty := creationsOf u.parts

/-- How many types have type arguments where those that answer to them have none. -/
def erasures (ts ts' : List Ty) : Nat := (ts.zip ts').countP fun p => p.1.hasArguments && !p.2.hasArguments

/-- Whether a slot makes an object creation raw: by force, for a cast to a class of another name. -/
def TypeFacts.erases (f : TypeFacts) (d : Demand) (e : Expr) : Bool :=
  match f.required? d, e.ty with
  | some (.object target, true), .object source => e.isNew && target.name != source.name && !target.isRoot
  | _, _ => false

/-- Whether the visit is a slot that makes raw what is raw already. -/
def Visit.erasesRaw (f : TypeFacts) : Visit → Bool
  | .slot _ d e => f.erases d e && !e.ty.hasArguments
  | .call _ => false
  | .skip _ => false

/-! ## Slots that erase -/

namespace TypeFacts

variable {f : TypeFacts} {b : TypeBounds} {forced : Bool} {required : Ty} {d : Demand} {e : Expr}

theorem erases_iff : f.erases d e = true ↔
    ∃ target source, f.required? d = some (.object target, true) ∧ e.ty = .object source ∧ e.isNew = true ∧
      target.name ≠ source.name ∧ target.isRoot = false := by
  unfold erases
  constructor
  · intro h
    split at h
    · rename_i target source hd hs
      simp only [Bool.and_eq_true, bne_iff_ne, Bool.not_eq_true'] at h
      exact ⟨target, source, hd, hs, h.1.1, h.1.2, h.2⟩
    · cases h
  · rintro ⟨target, source, hd, hs, hw, hname, hroot⟩
    rw [hd, hs]
    simp only [hw, hroot, bne_iff_ne.2 hname]
    rfl

/-- **A verdict to erase**: an object creation in a forced slot for a class of another name. -/
theorem verdict_eraseAndCast_iff (hd : f.required? d = some (required, forced)) :
    f.verdict b forced required e = .eraseAndCast required ↔ f.erases d e = true := by
  rw [erases_iff, hd]
  constructor
  · intro h
    obtain ⟨rfl, hw, -⟩ := verdict_eraseAndCast h
    unfold verdict at h
    split at h
    · cases h
    rename_i hkeep
    split at h
    · rename_i target source hs
      unfold classVerdict at h
      split at h
      · rename_i hforced
        exact ⟨target, source, rfl, hs, hw, hforced.2, Bool.eq_false_iff.2 fun hr => hkeep (.inr hr)⟩
      · split at h <;> cases h
    all_goals cases h
  · rintro ⟨target, source, hreq, hs, hw, hname, hroot⟩
    obtain ⟨rfl, rfl⟩ := Prod.mk.inj (Option.some.inj hreq)
    have hkeep : ¬ (e.ty = .object target ∨ (Ty.object target).isRoot = true) := by
      rintro (hty | hr)
      · rw [hs] at hty
        exact hname (congrArg ClassType.name (Ty.object.inj hty)).symm
      · exact Bool.eq_false_iff.1 hroot hr
    unfold verdict
    rw [if_neg hkeep, hs]
    simp only [classVerdict, hw, hname, ne_eq, not_false_eq_true, and_self, if_true]

end TypeFacts

theorem Edit.castTo_ne_erase (t : Ty) (e : Expr) : castTo t e ≠ .erase := by
  unfold castTo
  split
  · split <;> exact nofun
  · exact nofun

/-- **An erasure is among the edits of a slot** exactly where the slot makes an object creation raw. -/
theorem Rules.erase_mem_edits_iff {r : Rules} {b : TypeBounds} {d : Demand} {e : Expr} :
    .erase ∈ r.edits b d e ↔ r.facts.erases d e = true := by
  cases hd : r.facts.required? d with
  | none =>
    have hnone : r.facts.erases d e = false := by
      unfold TypeFacts.erases
      rw [hd]
    rw [hnone]
    refine iff_of_false (fun h => ?_) Bool.false_ne_true
    unfold edits at h
    cases d with
    | thrown t =>
      by_cases ht : e.ty = t
      · simp only [ht, if_true] at h
        cases h
      · simp only [ht, if_false] at h
        exact Edit.castTo_ne_erase t e (List.mem_singleton.1 h).symm
    | _ =>
      simp only [hd] at h
      cases h
  | some p =>
    obtain ⟨required, forced⟩ := p
    rw [edits_of_required e hd, ← TypeFacts.verdict_eraseAndCast_iff hd]
    have h := r.fitting b required forced e
    generalize r.fitEdits b required forced e = es at h
    have hnull (hn : e.isNull = true) : r.facts.verdict b forced required e ≠ .eraseAndCast required := by
      intro hv
      obtain ⟨-, hw, -⟩ := TypeFacts.verdict_eraseAndCast hv
      obtain ⟨l, t, k⟩ := e
      cases k with
      | new desc as ps body => cases hn
      | _ => cases hw
    cases h with
    | nullKept hn | nullPicked line hn => exact iff_of_false (by simp) (hnull hn)
    | erased line hw hf hv => exact iff_of_true List.mem_cons_self hv
    | kept hn hv | removed l s x hv | inserted line t hn hc hv | retargeted l s x t hv | retargetRemoved l s x t hv
    | collapsed l s x hv | collapseRemoved l s m t y hv =>
      refine iff_of_false (by simp) ?_
      rw [hv]
      exact nofun

/-! ## What becomes of an object creation -/

/-- **The type of an object creation before and after**: the same, or without its type arguments. -/
def Ty.Raws (t t' : Ty) : Prop := t' = t ∨ t' = t.raw

theorem forall₂_raws_refl (ts : List Ty) : List.Forall₂ Ty.Raws ts ts := List.forall₂_same.2 fun _ _ => .inl rfl

theorem erasures_cons (t t' : Ty) (ts ts' : List Ty) :
    erasures (t :: ts) (t' :: ts') = erasures ts ts' + if t.hasArguments && !t'.hasArguments then 1 else 0 :=
  List.countP_cons

theorem erasures_append {ts ts' : List Ty} (h : ts.length = ts'.length) (ss ss' : List Ty) :
    erasures (ts ++ ss) (ts' ++ ss') = erasures ts ts' + erasures ss ss' := by
  unfold erasures
  rw [List.zip_append h, List.countP_append]

theorem erasures_self : ∀ ts : List Ty, erasures ts ts = 0
  | [] => rfl
  | t :: ts => by
    rw [erasures_cons, erasures_self ts, Bool.and_not_self]
    rfl

theorem creationsOf_cons (x : Part) (xs : List Part) : creationsOf (x :: xs) = x.creation?.toList ++ creationsOf xs := by
  unfold creationsOf
  rw [List.filterMap_cons]
  cases x.creation? <;> rfl

namespace Expr

theorem creation?_of_isNew {e : Expr} (h : e.isNew = true) : e.creation? = some e.ty := by
  unfold creation?
  rw [core_of_not_cast (isCast_of_isNew h), if_pos h]

theorem creation?_walk (r : Rules) (sc : Scope) (e : Expr) : (e.reconcile r sc none).creation? = e.creation? := by
  have halike := e.core.walk_alike r sc
  unfold creation?
  rw [core_walk, halike.isNew, halike.ty]

end Expr

namespace Edit

/-- An object creation that is made raw for a cast. -/
theorem creation?_erase {e : Expr} (hw : e.isNew = true) (line : UInt32) (t : Ty) :
    (applyAll [.erase, .insert line t] e).creation? = some e.ty.raw := by
  obtain ⟨l, s, k⟩ := e
  cases k with
  | new desc as ps b => rfl
  | _ => cases hw

theorem Planned.creations {e : Expr} {es : List Edit} (h : Planned e es) :
    List.Forall₂ Ty.Raws e.creation?.toList (applyAll es e).creation?.toList := by
  cases h with
  | erase line t hw =>
    rw [Expr.creation?_of_isNew hw, creation?_erase hw line t]
    exact .cons (.inr rfl) .nil
  | _ => exact forall₂_raws_refl _

/-- **The erasures among the edits of a slot**: one where an object creation loses its type arguments, and one where it
is made raw and has none to lose. -/
theorem Planned.erased {e : Expr} {es : List Edit} (h : Planned e es) :
    (CastReport.ofEdits es).erased =
      erasures e.creation?.toList (applyAll es e).creation?.toList +
        if .erase ∈ es ∧ e.ty.hasArguments = false then 1 else 0 := by
  cases h with
  | erase line t hw =>
    have hcounted : (CastReport.ofEdits [.erase, .insert line t]).erased = 1 := rfl
    have hmem : Edit.erase ∈ [Edit.erase, .insert line t] := List.mem_cons_self
    rw [Expr.creation?_of_isNew hw, creation?_erase hw line t, Option.toList_some, Option.toList_some, erasures_cons,
      erasures_self, Ty.hasArguments_raw, hcounted]
    cases ht : e.ty.hasArguments with
    | true => simp
    | false => simp [hmem]
  | _ =>
    rw [if_neg (by simp)]
    exact (erasures_self _).symm

end Edit

/-! ## From slots to a run -/

theorem Visit.erasesRaw_slot_iff {r : Rules} {sc : Scope} {d : Demand} {e : Expr} :
    (Visit.slot sc d e).erasesRaw r.facts = true ↔
      .erase ∈ r.edits sc.bounds d e ∧ e.ty.hasArguments = false := by
  rw [Rules.erase_mem_edits_iff, erasesRaw, Bool.and_eq_true, Bool.not_eq_true']

namespace Part.Becomes

variable {r : Rules} {vs : List Visit} {x y : Part}

theorem creations (h : Becomes r vs x y) : List.Forall₂ Ty.Raws x.creation?.toList y.creation?.toList := by
  cases h with
  | declared t => exact .nil
  | untouched e => exact forall₂_raws_refl _
  | walked sc e =>
    simp only [Part.creation?, Expr.creation?_walk]
    exact forall₂_raws_refl _
  | settled sc d e =>
    simp only [Part.creation?, Expr.reconcile_some, Expr.creation?_walk]
    exact (r.planned sc.bounds d e).creations

theorem erased (h : Becomes r vs x y) :
    (CastReport.ofEdits (r.editsOf vs)).erased =
      erasures x.creation?.toList y.creation?.toList + vs.countP (Visit.erasesRaw r.facts) := by
  cases h with
  | declared t => rfl
  | untouched e => exact (erasures_self _).symm
  | walked sc e =>
    simp only [Part.creation?, Expr.creation?_walk]
    exact (erasures_self _).symm
  | settled sc d e =>
    have hedits : r.editsOf [.slot sc d e] = r.edits sc.bounds d e := List.append_nil _
    rw [hedits, (r.planned sc.bounds d e).erased, List.countP_singleton]
    simp only [Part.creation?, Expr.reconcile_some, Expr.creation?_walk, Visit.erasesRaw_slot_iff, Rules.settle]

end Part.Becomes

namespace Rules.Accounts

variable {r : Rules} {vs : List Visit} {xs ys : List Part}

/-- **The object creations of the parts answer one to one.** -/
theorem creations (h : r.Accounts vs xs ys) : List.Forall₂ Ty.Raws (creationsOf xs) (creationsOf ys) := by
  induction h with
  | nil => exact .nil
  | part h _ ih =>
    rw [creationsOf_cons, creationsOf_cons]
    exact List.rel_append h.creations ih
  | call s _ ih => exact ih
  | skip w _ ih => exact ih
  | reorder hp _ ih => exact ih

/-- **The erasures of the slots** are those of the object creations that lose type arguments, and those of the ones that
have none. -/
theorem erased (h : r.Accounts vs xs ys) :
    (CastReport.ofEdits (r.editsOf vs)).erased =
      erasures (creationsOf xs) (creationsOf ys) + vs.countP (Visit.erasesRaw r.facts) := by
  induction h with
  | nil => rfl
  | part h _ ih =>
    rw [editsOf_append, CastReport.ofEdits_append, creationsOf_cons, creationsOf_cons,
      erasures_append h.creations.length_eq, List.countP_append, CastReport.add_eq]
    dsimp only
    rw [h.erased, ih]
    omega
  | call s _ ih =>
    rw [List.countP_cons_of_neg Bool.false_ne_true]
    exact ih
  | skip w _ ih =>
    rw [List.countP_cons_of_neg Bool.false_ne_true]
    exact ih
  | reorder hp _ ih =>
    rw [← CastReport.ofEdits_perm (r.editsOf_perm hp), ← hp.countP_eq]
    exact ih

end Rules.Accounts

/-- **What a run counts as erased.**  The object creations of the unit and those of the unit that comes out answer one
to one, each with its type or the raw form of it.  Those that have lost type arguments are counted, and so are the slots
that make an object creation raw that is raw already; so the count is that of the lost type arguments exactly where
there is no such slot. -/
theorem CastPass.run_counts_erasures (p : CastPass) (u u' : CompilationUnit) (report : CastReport)
    (hrun : (p.run u).result = .ok (report, u')) :
    List.Forall₂ Ty.Raws u.creations u'.creations ∧
    report.erased = erasures u.creations u'.creations +
      (u.visits p.rules.anonymous).countP (Visit.erasesRaw p.rules.facts) ∧
    (report.erased = erasures u.creations u'.creations ↔
      ∀ v ∈ u.visits p.rules.anonymous, v.erasesRaw p.rules.facts = false) := by
  obtain ⟨rfl, rfl⟩ := run_ok hrun
  have haccounts := (u.traces p.rules).accounts
  have herased := haccounts.erased
  rw [← filterMap_edit?_stepsOf] at herased
  change (CastReport.ofSteps _).erased = erasures u.creations (u.reconcile p.rules).creations + _ at herased
  refine ⟨haccounts.creations, herased, ?_⟩
  rw [herased, Nat.add_eq_left, List.countP_eq_zero]
  simp only [Bool.not_eq_true]

/-- A new list that is cast for an overloaded `put` loses its one type argument. -/
theorem CastPass.run_counts_erasures_put :
    1 = erasures [.object ⟨"java/util/ArrayList", some [.exact (.ofVar "T")], 0⟩] [.ofClass "java/util/ArrayList"] := by
  obtain ⟨-, -, hcount⟩ := run_counts_erasures _ _ _ _ run_put
  exact hcount.2 (by decide)

/-- One that is raw is cast and counted like it. -/
theorem CastPass.run_put_raw :
    ((CastPass.ofFacts .overloadedPut).run
        (.put ⟨2, .ofClass "java/util/ArrayList", .new "()V" [] [] none⟩)).result =
      .ok ({ inserted := 1, erased := 1 },
        .put (.cast 2 (.ofClass "java/util/List") ⟨2, .ofClass "java/util/ArrayList", .new "()V" [] [] none⟩)) := by
  with_unfolding_all rfl

/-- **A run counts an erasure where no type argument has gone.** -/
theorem CastPass.exists_run_counts_raw :
    ¬ ∀ (p : CastPass) (u u' : CompilationUnit) (report : CastReport), (p.run u).result = .ok (report, u') →
      report.erased = erasures u.creations u'.creations := by
  intro hall
  have hone := hall _ _ _ _ run_put_raw
  cases hone

end Recast
