import Recast.Proofs.Balance
import Recast.Proofs.Heads
import Recast.Proofs.Slots
/-!
# Arguments — each for itself, in any order

The arguments of a call are reconciled in place: one slot after the other, from the last to the first, on a pass that
counts what it changes.  Each step takes an argument out, reconciles it and puts the result back
(`CastPass.walkInOrder`).

A step reads its own slot and the parameter at its index, and writes its own slot, so the slots that are still to come
hold the arguments as they were.  That is the invariant of the loop (`CastPass.walkSlots_eq`): whatever the order, it
ends as a single call over the arguments, visited in that order.  So an argument becomes what it becomes alone, the
changes add up, and another order gives the same arguments and the same report (`CastPass.arguments_reconciled_alone`).
-/
namespace Recast

namespace Outcome

variable {α β : Type}

/-- A call and then another on the same pass; a fault ends both. -/
def andThen (o : Outcome α) (next : α → CastPass → Outcome β) : Outcome β :=
  match o.result with
  | .ok a => { next a o.pass with events := o.events ++ (next a o.pass).events }
  | .error e => ⟨.error e, o.pass, o.events⟩

end Outcome

namespace CastPass

/-- **The arguments of a call**, as a walk comes by them: the call is checked, then they are visited. -/
def walkArguments (p : CastPass) (sc : Scope) (owner member : String) (d : Ty → Demand) (ps : List Ty)
    (as : List Expr) : Outcome (List Expr) :=
  p.single
    (p.stepsOf (.call ⟨owner, member, as.length, ps.length⟩ :: visitArguments p.rules.anonymous sc d ps as))
    (reconcileArguments p.rules sc d ps as)

/-- **The slots at some indices**, one after the other. -/
def walkSlots (sc : Scope) (d : Ty → Demand) (ps : List Ty) :
    CastPass → List Nat → List Expr → Outcome (List Expr)
  | p, [], as => ⟨.ok as, p, []⟩
  | p, i :: order, as =>
    match ps[i]?, as[i]? with
    | some t, some a =>
      (p.walkExpr sc (some (d t)) a).andThen fun a' p =>
        walkSlots sc d ps p order ((as.set i .placeholder).set i a')
    | _, _ => walkSlots sc d ps p order as

/-- **The arguments of a call, in place and in some order**: the check, then the slots. -/
def walkInOrder (p : CastPass) (sc : Scope) (owner member : String) (d : Ty → Demand) (ps : List Ty)
    (order : List Nat) (as : List Expr) : Outcome (List Expr) :=
  match (CallSite.mk owner member as.length ps.length).fault? with
  | some e => ⟨.error e, p, []⟩
  | none => walkSlots sc d ps p order as

end CastPass

/-! ## Calls one after the other -/

theorem CastReport.add_empty (a : CastReport) : a + empty = a := (add_comm a empty).trans (empty_add a)

theorem CallSite.fault?_of_le (owner member : String) {arguments parameters : Nat} (h : arguments ≤ parameters) :
    (CallSite.mk owner member arguments parameters).fault? = none := if_neg (Nat.not_lt.2 h)

theorem Step.taken_of_fault {xs : List Step} (h : xs.findSome? (·.fault?) ≠ none) (ys : List Step) :
    taken (xs ++ ys) = taken xs := by
  induction xs with
  | nil => exact absurd rfl h
  | cons x xs ih =>
    unfold taken at ih ⊢
    rw [List.cons_append, List.takeWhile_cons, List.takeWhile_cons]
    cases hx : x.fault? with
    | some e => rfl
    | none =>
      rw [List.findSome?_cons, hx] at h
      simp only [Option.isNone_none, if_true]
      rw [ih h]

theorem Step.taken_of_no_fault {xs : List Step} (h : xs.findSome? (·.fault?) = none) (ys : List Step) :
    taken (xs ++ ys) = xs ++ taken ys := by
  rw [List.findSome?_eq_none_iff] at h
  unfold taken
  rw [List.takeWhile_append_of_pos]
  intro x hx
  rw [h x hx]
  rfl

theorem Step.taken_eq_self {xs : List Step} (h : xs.findSome? (·.fault?) = none) : taken xs = xs := by
  have hall := taken_of_no_fault h []
  rw [List.append_nil] at hall
  rw [hall]
  exact List.append_nil xs

namespace CastPass

variable {α β : Type} {p : CastPass}

/-- **Two single calls are one**, over the steps of both, where the second only depends on the first through the
report. -/
theorem single_andThen (p : CastPass) (xs ys : List Step) (a : α) (b : β) (next : α → CastPass → Outcome β)
    (h : ∀ report, next a { p with report } = single { p with report } ys b) :
    (p.single xs a).andThen next = p.single (xs ++ ys) b := by
  cases hf : xs.findSome? (·.fault?) with
  | some e =>
    have hfault : (xs ++ ys).findSome? (·.fault?) = some e := by
      rw [List.findSome?_append, hf]
      rfl
    have htaken : Step.taken (xs ++ ys) = Step.taken xs := by
      refine Step.taken_of_fault ?_ ys
      rw [hf]
      exact Option.some_ne_none e
    unfold single Outcome.andThen
    simp only [hf, hfault, htaken]
  | none =>
    have hfault : (xs ++ ys).findSome? (·.fault?) = ys.findSome? (·.fault?) := by
      rw [List.findSome?_append, hf]
      rfl
    have htaken : Step.taken (xs ++ ys) = xs ++ Step.taken ys := Step.taken_of_no_fault hf ys
    unfold Outcome.andThen
    simp only [single, hf, h]
    simp only [hfault, htaken, Step.taken_eq_self hf, CastReport.ofSteps_append, CastReport.add_assoc,
      List.filterMap_append]

/-- **A method call is walked arguments first**: the qualifier comes when they are done. -/
theorem walkExpr_call (p : CastPass) (sc : Scope) (l : UInt32) (t : Ty) (q : Expr) (m : MemberRef)
    (ts : Option (List TypeArgument)) (as : List Expr) (ps : List Ty) :
    p.walkExpr sc none ⟨l, t, .call q m ts as ps⟩ =
      (p.walkArguments sc m.owner m.name (.argument · m.owner m.name as.length) ps as).andThen fun as' p =>
        (p.walkExpr sc none q).map fun q' => ⟨l, t, .call q' m ts as' ps⟩ := by
  have hafter : ∀ report, (({ p with report } : CastPass).walkExpr sc none q).map
      (fun q' => ⟨l, t, .call q' m ts (reconcileArguments p.rules sc (.argument · m.owner m.name as.length) ps as) ps⟩) =
        single { p with report } (p.stepsOf (q.visits p.rules.anonymous sc none))
          (Expr.reconcile p.rules sc none ⟨l, t, .call q m ts as ps⟩) :=
    fun report => map_single { p with report } _ _ _
  unfold walkArguments
  rw [single_andThen p _ _ _ _ _ hafter, stepsOf, stepsOf, ← List.flatMap_append]
  rfl

/-! ## The loop -/

/-- What a walk comes by at one index. -/
def slotVisits (anonymous : Bool) (sc : Scope) (d : Ty → Demand) (ps : List Ty) (as : List Expr) (i : Nat) :
    List Visit :=
  match ps[i]?, as[i]? with
  | some t, some a => a.visits anonymous sc (some (d t))
  | _, _ => []

/-- The list with the result for one index in its slot. -/
def settleSlot (r : Rules) (sc : Scope) (d : Ty → Demand) (ps : List Ty) (as : List Expr) (now : List Expr) (i : Nat) :
    List Expr :=
  match ps[i]?, as[i]? with
  | some t, some a => now.set i (a.reconcile r sc (some (d t)))
  | _, _ => now

variable {sc : Scope} {d : Ty → Demand} {ps : List Ty} {as : List Expr}

/-- **The loop is a single call** over the slots in its order.  What carries the induction is that the slots to come
hold the arguments as they were. -/
theorem walkSlots_eq (sc : Scope) (d : Ty → Demand) (ps : List Ty) (as : List Expr) :
    ∀ (order : List Nat) (p : CastPass) (now : List Expr), order.Nodup → (∀ i ∈ order, now[i]? = as[i]?) →
      walkSlots sc d ps p order now =
        p.single (p.stepsOf (order.flatMap (slotVisits p.rules.anonymous sc d ps as)))
          (order.foldl (settleSlot p.rules sc d ps as) now)
  | [], p, now, _, _ => by
    change Outcome.mk _ _ _ = Outcome.mk _ (CastPass.mk p.rules (p.report + .empty)) _
    rw [p.report.add_empty]
    rfl
  | i :: order, p, now, hnodup, hsame => by
    obtain ⟨hi, hnodup⟩ := List.nodup_cons.1 hnodup
    obtain ⟨hnow, hrest⟩ := List.forall_mem_cons.1 hsame
    have ih := walkSlots_eq sc d ps as order
    unfold walkSlots
    rw [List.flatMap_cons, List.foldl_cons, hnow, stepsOf, List.flatMap_append]
    unfold slotVisits settleSlot at *
    cases hp : ps[i]? with
    | none => exact ih p now hnodup hrest
    | some t =>
      cases ha : as[i]? with
      | none => exact ih p now hnodup hrest
      | some a =>
        refine single_andThen p _ _ _ _ _ fun report => ?_
        rw [List.set_set]
        refine ih { p with report } _ hnodup fun j hj => ?_
        have hne : i ≠ j := fun h => hi (h ▸ hj)
        rw [List.getElem?_set_ne hne]
        exact hrest j hj

/-! ## The slots of a call -/

/-- Last to first, the slots of a call are its arguments as a walk comes by them. -/
theorem flatMap_slotVisits (anonymous : Bool) (sc : Scope) (d : Ty → Demand) : ∀ (ps : List Ty) (as : List Expr),
    as.length ≤ ps.length →
      (List.range as.length).reverse.flatMap (slotVisits anonymous sc d ps as) = visitArguments anonymous sc d ps as
  | ps, [], _ => by
    cases ps <;> rfl
  | [], a :: as, h => absurd h (Nat.not_succ_le_zero _)
  | t :: ps, a :: as, h => by
    have ih := flatMap_slotVisits anonymous sc d ps as (Nat.le_of_succ_le_succ h)
    have hshift : slotVisits anonymous sc d (t :: ps) (a :: as) ∘ Nat.succ = slotVisits anonymous sc d ps as := rfl
    rw [List.length_cons, List.range_succ_eq_map, List.reverse_cons, ← List.map_reverse, List.flatMap_append,
      List.flatMap_map]
    change List.flatMap (slotVisits anonymous sc d (t :: ps) (a :: as) ∘ Nat.succ) _ ++ _ = _
    rw [hshift, ih, List.flatMap_singleton]
    rfl

variable {order : List Nat}

theorem length_settleSlot (r : Rules) (sc : Scope) (d : Ty → Demand) (ps : List Ty) (as now : List Expr) (i : Nat) :
    (settleSlot r sc d ps as now i).length = now.length := by
  unfold settleSlot
  split
  · exact List.length_set
  · rfl

theorem length_settleSlots (r : Rules) (sc : Scope) (d : Ty → Demand) (ps : List Ty) (as : List Expr) :
    ∀ (order : List Nat) (now : List Expr), (order.foldl (settleSlot r sc d ps as) now).length = now.length
  | [], _ => rfl
  | i :: order, now => by
    rw [List.foldl_cons, length_settleSlots r sc d ps as order, length_settleSlot]

/-- What stands at an index that does not come up stays. -/
theorem getElem?_settleSlots_of_not_mem (r : Rules) (sc : Scope) (d : Ty → Demand) (ps : List Ty) (as : List Expr)
    {j : Nat} : ∀ (order : List Nat) (now : List Expr), j ∉ order →
      (order.foldl (settleSlot r sc d ps as) now)[j]? = now[j]?
  | [], _, _ => rfl
  | i :: order, now, hj => by
    obtain ⟨hi, hj⟩ := not_or.1 (mt List.mem_cons.2 hj)
    rw [List.foldl_cons, getElem?_settleSlots_of_not_mem r sc d ps as order _ hj]
    unfold settleSlot
    split
    · exact List.getElem?_set_ne (Ne.symm hi)
    · rfl

/-- **An index that comes up holds its argument reconciled**, whatever comes up besides. -/
theorem getElem?_settleSlots (r : Rules) (sc : Scope) (d : Ty → Demand) {ps : List Ty} {as : List Expr} {j : Nat}
    {t : Ty} {a : Expr} (hp : ps[j]? = some t) (ha : as[j]? = some a) :
    ∀ (order : List Nat) (now : List Expr), j ∈ order → j < now.length →
      (order.foldl (settleSlot r sc d ps as) now)[j]? = some (a.reconcile r sc (some (d t)))
  | i :: order, now, hj, hlt => by
    have hlength : j < (settleSlot r sc d ps as now i).length := by
      rw [length_settleSlot]
      exact hlt
    rw [List.foldl_cons]
    by_cases hlater : j ∈ order
    · exact getElem?_settleSlots r sc d hp ha order _ hlater hlength
    · obtain rfl : j = i := (List.mem_cons.1 hj).resolve_right hlater
      rw [getElem?_settleSlots_of_not_mem r sc d ps as order _ hlater]
      unfold settleSlot
      simp only [hp, ha]
      exact List.getElem?_set_self hlt

/-- **In whatever order**, the slots end with the reconciled arguments. -/
theorem settleSlots_eq (r : Rules) (sc : Scope) (d : Ty → Demand) {ps : List Ty} {as : List Expr}
    (hlen : as.length ≤ ps.length) (horder : order.Perm (List.range as.length)) :
    order.foldl (settleSlot r sc d ps as) as = reconcileArguments r sc d ps as := by
  refine List.ext_getElem? fun j => ?_
  by_cases hj : j < as.length
  · have hmem : j ∈ order := horder.mem_iff.2 (List.mem_range.2 hj)
    have ha : as[j]? = some as[j] := List.getElem?_eq_getElem hj
    have hp : ps[j]? = some ps[j] := List.getElem?_eq_getElem (Nat.lt_of_lt_of_le hj hlen)
    rw [getElem?_settleSlots r sc d hp ha order as hmem hj, getElem?_reconcileArguments r sc d ps as j hp ha]
  · have hout : as.length ≤ j := Nat.le_of_not_lt hj
    rw [List.getElem?_eq_none, List.getElem?_eq_none]
    · rw [length_reconcileArguments]
      exact hout
    · rw [length_settleSlots]
      exact hout

/-- **The arguments in place and in some order** are a single call, over the slots in that order. -/
theorem walkInOrder_eq (p : CastPass) (sc : Scope) (owner member : String) (d : Ty → Demand) {ps : List Ty}
    {as : List Expr} (hlen : as.length ≤ ps.length) (horder : order.Perm (List.range as.length)) :
    p.walkInOrder sc owner member d ps order as =
      p.single (p.stepsOf (order.flatMap (slotVisits p.rules.anonymous sc d ps as)))
        (reconcileArguments p.rules sc d ps as) := by
  have hnodup : order.Nodup := horder.nodup_iff.2 List.nodup_range
  have hcheck := CallSite.fault?_of_le owner member hlen
  unfold walkInOrder
  rw [hcheck]
  change walkSlots sc d ps p order as = _
  rw [walkSlots_eq sc d ps as order p as hnodup fun _ _ => rfl, settleSlots_eq p.rules sc d hlen horder]

/-- The check adds no step where it finds a parameter type for each argument. -/
theorem walkArguments_eq (p : CastPass) (sc : Scope) (owner member : String) (d : Ty → Demand) {ps : List Ty}
    {as : List Expr} (hlen : as.length ≤ ps.length) :
    p.walkArguments sc owner member d ps as =
      p.single (p.stepsOf (visitArguments p.rules.anonymous sc d ps as)) (reconcileArguments p.rules sc d ps as) := by
  have hcheck := CallSite.fault?_of_le owner member hlen
  unfold walkArguments stepsOf
  rw [List.flatMap_cons, Visit.steps, hcheck]
  rfl

/-- A call with too few parameter types is over with its check. -/
theorem walkArguments_short (p : CastPass) (sc : Scope) (owner member : String) (d : Ty → Demand) {ps : List Ty}
    {as : List Expr} (hlen : ps.length < as.length) :
    p.walkArguments sc owner member d ps as =
      ⟨.error (.missingParameterTypes ⟨owner, member, as.length, ps.length⟩), p, []⟩ := by
  have hcheck : (CallSite.mk owner member as.length ps.length).fault? =
      some (.missingParameterTypes ⟨owner, member, as.length, ps.length⟩) := if_pos hlen
  unfold walkArguments stepsOf
  rw [List.flatMap_cons, Visit.steps, hcheck]
  change Outcome.mk _ (CastPass.mk p.rules (p.report + .empty)) _ = _
  rw [p.report.add_empty]
  rfl

/-- **The loop from the last argument to the first is the walk**, faults and events included. -/
theorem walkInOrder_reverse (p : CastPass) (sc : Scope) (owner member : String) (d : Ty → Demand) (ps : List Ty)
    (as : List Expr) :
    p.walkInOrder sc owner member d ps (List.range as.length).reverse as = p.walkArguments sc owner member d ps as := by
  by_cases hlen : as.length ≤ ps.length
  · rw [walkInOrder_eq p sc owner member d hlen (List.reverse_perm _), walkArguments_eq p sc owner member d hlen,
      flatMap_slotVisits _ sc d ps as hlen]
  · have hshort : ps.length < as.length := Nat.lt_of_not_le hlen
    rw [walkArguments_short p sc owner member d hshort]
    unfold walkInOrder
    rw [CallSite.fault?, if_pos hshort]

/-! ## The report -/

/-- A call that meets no fault adds the edits of its slots. -/
theorem pass_single (p : CastPass) {vs : List Visit} (value : α) (h : vs.findSome? (·.fault?) = none) :
    (p.single (p.stepsOf vs) value).pass = { p with report := p.report + .ofEdits (p.rules.editsOf vs) } := by
  have hsteps : (p.stepsOf vs).findSome? (·.fault?) = none := (p.fault?_stepsOf vs).trans h
  unfold single
  rw [Step.taken_eq_self hsteps, CastReport.ofSteps, filterMap_edit?_stepsOf]

/-- **A call that meets no fault meets none in another order**, returns the same and leaves the same report. -/
theorem single_perm (p : CastPass) {vs ws : List Visit} (value : α) (hperm : vs.Perm ws)
    (h : vs.findSome? (·.fault?) = none) :
    (p.single (p.stepsOf ws) value).result = .ok value ∧
      (p.single (p.stepsOf ws) value).pass = (p.single (p.stepsOf vs) value).pass := by
  have hws : ws.findSome? (·.fault?) = none := by
    rw [List.findSome?_eq_none_iff] at h ⊢
    exact fun v hv => h v (hperm.mem_iff.2 hv)
  refine ⟨single_ok_iff.2 ⟨hws, rfl⟩, ?_⟩
  rw [pass_single p value h, pass_single p value hws, CastReport.ofEdits_perm (p.rules.editsOf_perm hperm)]

/-- What one argument changes, on a pass of its own. -/
def changesAlone (p : CastPass) (sc : Scope) (d : Ty → Demand) (t : Ty) (a : Expr) : CastReport :=
  (p.fresh.walkExpr sc (some (d t)) a).pass.report

theorem changesAlone_eq (p : CastPass) (sc : Scope) (d : Ty → Demand) {t : Ty} {a : Expr}
    (h : (a.visits p.rules.anonymous sc (some (d t))).findSome? (·.fault?) = none) :
    p.changesAlone sc d t a = .ofEdits (p.rules.editsOf (a.visits p.rules.anonymous sc (some (d t)))) := by
  have hpass := pass_single p.fresh (a.reconcile p.rules sc (some (d t))) h
  exact (congrArg CastPass.report hpass).trans (CastReport.empty_add _)

/-- **The changes of the arguments add up.** -/
theorem ofEdits_visitArguments (p : CastPass) (sc : Scope) (d : Ty → Demand) : ∀ (ps : List Ty) (as : List Expr),
    (visitArguments p.rules.anonymous sc d ps as).findSome? (·.fault?) = none →
      CastReport.ofEdits (p.rules.editsOf (visitArguments p.rules.anonymous sc d ps as)) =
        .sum (List.zipWith (p.changesAlone sc d) ps as)
  | ps, [], _ => by
    cases ps <;> rfl
  | [], a :: as, _ => rfl
  | t :: ps, a :: as, h => by
    rw [visitArguments, List.findSome?_append, Option.or_eq_none_iff] at h
    obtain ⟨hrest, hfirst⟩ := h
    have ih := ofEdits_visitArguments p sc d ps as hrest
    rw [visitArguments, p.rules.editsOf_append, CastReport.ofEdits_append, ih, ← changesAlone_eq p sc d hfirst,
      CastReport.add_comm]
    rfl

/-- A walk over the arguments that succeeds has met no fault. -/
theorem walkArguments_ok {owner member : String} {as' : List Expr}
    (h : (p.walkArguments sc owner member d ps as).result = .ok as') :
    as.length ≤ ps.length ∧ (visitArguments p.rules.anonymous sc d ps as).findSome? (·.fault?) = none ∧
      as' = reconcileArguments p.rules sc d ps as := by
  by_cases hlen : as.length ≤ ps.length
  · rw [walkArguments_eq p sc owner member d hlen] at h
    exact ⟨hlen, single_ok_iff.1 h⟩
  · rw [walkArguments_short p sc owner member d (Nat.lt_of_not_le hlen)] at h
    cases h

/-- What stands past the last argument is no parameter of any. -/
theorem visitArguments_append (anonymous : Bool) (sc : Scope) (d : Ty → Demand) (extra : List Ty) :
    ∀ (ps : List Ty) (as : List Expr), as.length ≤ ps.length →
      visitArguments anonymous sc d (ps ++ extra) as = visitArguments anonymous sc d ps as
  | ps, [], _ => by
    cases ps <;> cases extra <;> rfl
  | [], a :: as, h => absurd h (Nat.not_succ_le_zero _)
  | t :: ps, a :: as, h => by
    have ih := visitArguments_append anonymous sc d extra ps as (Nat.le_of_succ_le_succ h)
    rw [List.cons_append, visitArguments, visitArguments, ih]

theorem reconcileArguments_append (r : Rules) (sc : Scope) (d : Ty → Demand) (extra : List Ty) :
    ∀ (ps : List Ty) (as : List Expr), as.length ≤ ps.length →
      reconcileArguments r sc d (ps ++ extra) as = reconcileArguments r sc d ps as
  | ps, [], _ => by
    cases ps <;> cases extra <;> rfl
  | [], a :: as, h => absurd h (Nat.not_succ_le_zero _)
  | t :: ps, a :: as, h => by
    have ih := reconcileArguments_append r sc d extra ps as (Nat.le_of_succ_le_succ h)
    rw [List.cons_append, reconcileArguments, reconcileArguments, ih]

/-- **The arguments of a call are reconciled each for itself.**  The loop that takes each argument out, from the last to
the first, ends as the walk over the arguments does, and parameter types past the last argument make no difference.
Where the walk succeeds there is a parameter type for each argument; an argument becomes what it becomes alone; the
report grows by what the arguments change alone; and in any other order the loop ends with the same arguments and the
same report.  `d` is what a parameter type demands, by force or not. -/
theorem arguments_reconciled_alone (p : CastPass) (sc : Scope) (owner member : String) (d : Ty → Demand)
    (ps : List Ty) (as : List Expr) :
    p.walkInOrder sc owner member d ps (List.range as.length).reverse as = p.walkArguments sc owner member d ps as ∧
    (as.length ≤ ps.length → ∀ extra,
      p.walkArguments sc owner member d (ps ++ extra) as = p.walkArguments sc owner member d ps as) ∧
    ∀ as' : List Expr, (p.walkArguments sc owner member d ps as).result = .ok as' →
      as'.length = as.length ∧
      (∀ (i : Nat) (a : Expr), as[i]? = some a → ∃ t a', ps[i]? = some t ∧ as'[i]? = some a' ∧
        (p.walkExpr sc (some (d t)) a).result = .ok a') ∧
      (p.walkArguments sc owner member d ps as).pass =
        { p with report := p.report + .sum (List.zipWith (p.changesAlone sc d) ps as) } ∧
      ∀ order, order.Perm (List.range as.length) →
        (p.walkInOrder sc owner member d ps order as).result = .ok as' ∧
        (p.walkInOrder sc owner member d ps order as).pass = (p.walkArguments sc owner member d ps as).pass := by
  refine ⟨walkInOrder_reverse p sc owner member d ps as, fun hlen extra => ?_, fun as' hok => ?_⟩
  · have hlonger : as.length ≤ (ps ++ extra).length := by
      rw [List.length_append]
      exact Nat.le_add_right_of_le hlen
    rw [walkArguments_eq p sc owner member d hlen, walkArguments_eq p sc owner member d hlonger,
      visitArguments_append _ sc d extra ps as hlen, reconcileArguments_append _ sc d extra ps as hlen]
  · obtain ⟨hlen, hfault, rfl⟩ := walkArguments_ok hok
    refine ⟨length_reconcileArguments p.rules sc d ps as, fun i a ha => ?_, ?_, fun order horder => ?_⟩
    · obtain ⟨hi, -⟩ := List.getElem?_eq_some_iff.1 ha
      have hp : ps[i]? = some ps[i] := List.getElem?_eq_getElem (Nat.lt_of_lt_of_le hi hlen)
      refine ⟨ps[i], _, hp, getElem?_reconcileArguments p.rules sc d ps as i hp ha, single_ok_iff.2 ⟨?_, rfl⟩⟩
      rw [List.findSome?_eq_none_iff] at hfault ⊢
      exact fun v hv => hfault v (visits_subset_visitArguments _ sc d ps as i hp ha hv)
    · rw [walkArguments_eq p sc owner member d hlen, pass_single p _ hfault, ofEdits_visitArguments p sc d ps as hfault]
    · rw [walkInOrder_eq p sc owner member d hlen horder, walkArguments_eq p sc owner member d hlen]
      refine single_perm p _ ?_ hfault
      rw [← flatMap_slotVisits _ sc d ps as hlen]
      exact ((List.reverse_perm _).trans horder.symm).flatMap_right _

/-- Of a new list and a `null`, both by force, the first may as well come first; a third parameter is left over. -/
theorem arguments_reconciled_alone_forced :
    ((CastPass.ofFacts Hierarchy.empty.facts).walkInOrder (.ofBounds .empty) "Box" "put" (.fit · true)
      [.ofClass "java/util/List", .ofClass "java/lang/String", .root] [0, 1]
      [⟨2, .object ⟨"java/util/ArrayList", some [.exact (.ofVar "T")], 0⟩, .new "()V" [] [] none⟩, .null 2]).result =
    .ok [.cast 2 (.ofClass "java/util/List") ⟨2, .ofClass "java/util/ArrayList", .new "()V" [] [] none⟩,
      .cast 2 (.ofClass "java/lang/String") (.null 2)] := by
  obtain ⟨-, -, hwalk⟩ := arguments_reconciled_alone (CastPass.ofFacts Hierarchy.empty.facts) (.ofBounds .empty)
    "Box" "put" (.fit · true) [.ofClass "java/util/List", .ofClass "java/lang/String", .root]
    [⟨2, .object ⟨"java/util/ArrayList", some [.exact (.ofVar "T")], 0⟩, .new "()V" [] [] none⟩, .null 2]
  have hok : ((CastPass.ofFacts Hierarchy.empty.facts).walkArguments (.ofBounds .empty) "Box" "put" (.fit · true)
      [.ofClass "java/util/List", .ofClass "java/lang/String", .root]
      [⟨2, .object ⟨"java/util/ArrayList", some [.exact (.ofVar "T")], 0⟩, .new "()V" [] [] none⟩, .null 2]).result =
    .ok [.cast 2 (.ofClass "java/util/List") ⟨2, .ofClass "java/util/ArrayList", .new "()V" [] [] none⟩,
      .cast 2 (.ofClass "java/lang/String") (.null 2)] := by
    with_unfolding_all rfl
  obtain ⟨-, -, -, horder⟩ := hwalk _ hok
  exact (horder [0, 1] (List.Perm.refl _)).1

end CastPass

end Recast
