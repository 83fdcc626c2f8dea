import Mathlib.Data.List.Forall2
import Recast.Proofs.Inserts
import Recast.Proofs.Within
/-!
# Lines — casts that come, and the lines on which expressions start

A new cast stands on the line on which its operand starts, and asks its operand where it knows none.  So the cast and
the operand start on one line (`Expr.line?_cast_firstLine`), and whatever asks the one or the other, at any depth and in
whatever place among the operands, finds what it found before (`Expr.line?_reconcile`).

A cast that goes can take a line with it that nothing below it knows.  Hence `Rules.KeepsCasts`, which a run owes to its
report: nothing collapsed and nothing removed (`CastPass.run_keeps_lines`).
-/
namespace Recast

/-- Whether the edit takes a cast away. -/
def Edit.uncovers : Edit → Bool
  | .collapse .. => true
  | .remove .. => true
  | _ => false

/-- **Visits whose edits take no cast away.** -/
def Rules.KeepsCasts (r : Rules) (vs : List Visit) : Prop := ∀ x ∈ r.editsOf vs, x.uncovers = false

/-- **Node for node down the casts at the top**, each starts on the line on which it started.  Under the casts stands
the same expression but for casts, and a cast may have another target. -/
inductive Expr.SameLines : Expr → Expr → Prop
  | node {e e' : Expr} (hc : e.isCast = false) (hc' : e'.isCast = false) (hbare : e'.bare = e.bare)
    (hline : e'.firstLine = e.firstLine) : SameLines e e'
  | cast (l : UInt32) {s s' : Ty} {x x' : Expr} (h : SameLines x x')
    (hline : firstLine ⟨l, s', .cast x'⟩ = firstLine ⟨l, s, .cast x⟩) : SameLines ⟨l, s, .cast x⟩ ⟨l, s', .cast x'⟩

/-- **The expression of a position before and after a run that takes no cast away**: line for line the same, as it is
or under a new cast, which stands on the line of its operand and starts where the expression started. -/
inductive Expr.KeepsLines : Expr → Expr → Prop
  | left {e e' : Expr} (h : SameLines e e') : KeepsLines e e'
  | wrapped (l : UInt32) (t : Ty) {e x : Expr} (hc : e.isCast = false) (h : SameLines e x) (hl : l = x.firstLine)
    (hline : firstLine (.cast l t x) = e.firstLine) : KeepsLines e (.cast l t x)

/-! ## One slot -/

/-- A cast on the line on which an expression starts, over what starts there too. -/
theorem Expr.line?_cast_firstLine (t : Ty) {e x : Expr} (h : x.line? = e.line?) :
    (cast e.firstLine t x).line? = e.line? := by
  change (knownLine? e.firstLine).or x.line? = e.line?
  rw [h]
  unfold firstLine knownLine?
  cases e.line? with
  | none => rfl
  | some n => by_cases hn : n = 0 <;> simp [hn]

theorem Expr.line?_withTy (e : Expr) (t : Ty) : { e with ty := t }.line? = e.line? := by
  obtain ⟨l, s, k⟩ := e
  rfl

namespace Edit

variable {line : UInt32} {t u : Ty} {e : Expr}

/-- **A new cast stands on the line on which its operand starts.** -/
theorem line_of_castTo (h : castTo t e = .insert line u) : line = e.firstLine := by
  unfold castTo at h
  split at h
  · split at h <;> cases h
  · injection h with hline
    exact hline.symm

theorem line_of_verdict {v : Verdict} (h : .insert line u ∈ v.edits e) : line = e.firstLine := by
  cases v with
  | keep => cases h
  | cast t => exact line_of_castTo (List.mem_singleton.1 h).symm
  | eraseAndCast t =>
    rcases List.mem_cons.1 h with h | h
    · cases h
    · exact line_of_castTo (List.mem_singleton.1 h).symm

end Edit

namespace Rules

variable {r : Rules} {b : TypeBounds} {d : Demand} {line : UInt32} {t : Ty} {e : Expr}

theorem line_of_fitEdits {required : Ty} {forced : Bool} (h : .insert line t ∈ r.fitEdits b required forced e) :
    line = e.firstLine := by
  unfold fitEdits at h
  split at h
  · split at h
    · exact Edit.line_of_castTo (List.mem_singleton.1 h).symm
    · cases h
  · dsimp only at h
    split at h
    · rcases List.mem_append.1 h with h | h
      · exact Edit.line_of_verdict h
      · cases List.mem_singleton.1 h
    · exact Edit.line_of_verdict h

theorem line_of_edits (h : .insert line t ∈ r.edits b d e) : line = e.firstLine := by
  cases hd : r.facts.required? d with
  | some p =>
    rw [edits_of_required e hd] at h
    exact line_of_fitEdits h
  | none =>
    unfold edits at h
    cases d with
    | thrown u =>
      dsimp only at h
      split at h
      · cases h
      · exact Edit.line_of_castTo (List.mem_singleton.1 h).symm
    | _ =>
      simp only [hd] at h
      cases h

end Rules

/-- **A plan that takes no cast away.** -/
inductive Edit.Covering : Expr → List Edit → Prop
  | keep (e : Expr) : Covering e []
  | insert {e : Expr} (t : Ty) (hc : e.isCast = false) : Covering e [.insert e.firstLine t]
  | erase {e : Expr} (t : Ty) (hw : e.isNew = true) : Covering e [.erase, .insert e.firstLine t]
  | retarget (l : UInt32) (s : Ty) (x : Expr) (t : Ty) : Covering ⟨l, s, .cast x⟩ [.retarget l s t]

theorem Rules.covering_edits {r : Rules} {b : TypeBounds} {d : Demand} {e : Expr}
    (h : ∀ x ∈ r.edits b d e, x.uncovers = false) : Edit.Covering e (r.edits b d e) := by
  have hline (line : UInt32) (t : Ty) : .insert line t ∈ r.edits b d e → line = e.firstLine := line_of_edits
  have hplan := r.planned b d e
  generalize r.edits b d e = es at h hline hplan
  cases hplan with
  | keep => exact .keep e
  | insert line t hc =>
    obtain rfl := hline line t List.mem_cons_self
    exact .insert t hc
  | erase line t hw =>
    obtain rfl := hline line t (List.mem_cons_of_mem _ List.mem_cons_self)
    exact .erase t hw
  | retarget l s x t => exact .retarget l s x t
  | collapse | remove | collapseRemove => cases h _ List.mem_cons_self
  | retargetRemove => cases h _ (List.mem_cons_of_mem _ List.mem_cons_self)

/-- **Edits that take no cast away leave the line** of what starts where the expression does. -/
theorem Edit.Covering.line?_applyAll {e w : Expr} {es : List Edit} (h : Covering e es) (hw : w.line? = e.line?) :
    (applyAll es w).line? = e.line? := by
  cases h with
  | keep => exact hw
  | insert t hc => exact Expr.line?_cast_firstLine t hw
  | erase t hn => exact Expr.line?_cast_firstLine t ((w.line?_withTy w.ty.raw).trans hw)
  | retarget l s x t => exact (w.line?_withTy t).trans hw

/-! ## Everything inside an expression -/

namespace Rules.KeepsCasts

variable {r : Rules} {vs ws : List Visit}

theorem mono (hsub : vs ⊆ ws) (h : r.KeepsCasts ws) : r.KeepsCasts vs := by
  intro x hx
  obtain ⟨v, hv, hx⟩ := List.mem_flatMap.1 hx
  exact h x (List.mem_flatMap.2 ⟨v, hsub hv, hx⟩)

theorem fst (h : r.KeepsCasts (vs ++ ws)) : r.KeepsCasts vs := h.mono (List.subset_append_left vs ws)

theorem snd (h : r.KeepsCasts (vs ++ ws)) : r.KeepsCasts ws := h.mono (List.subset_append_right vs ws)

theorem tail {v : Visit} (h : r.KeepsCasts (v :: vs)) : r.KeepsCasts vs := h.mono (List.subset_cons_self v vs)

variable {sc : Scope} {e : Expr}

/-- The slot that the expression stands in, if none of these visits takes a cast away. -/
theorem edits {d : Demand} (h : r.KeepsCasts (e.visits r.anonymous sc (some d))) :
    Edit.Covering e (r.edits sc.bounds d e) := by
  rw [Expr.visits_eq] at h
  exact covering_edits fun x hx => h x (List.mem_flatMap.2 ⟨.slot sc d e, List.mem_cons_self, hx⟩)

/-- The same without the slot. -/
theorem walk {d : Option Demand} (h : r.KeepsCasts (e.visits r.anonymous sc d)) :
    r.KeepsCasts (e.visits r.anonymous sc none) := by
  rw [Expr.visits_eq] at h ⊢
  exact h.snd

end Rules.KeepsCasts

variable (r : Rules)

mutual

/-- **A reconciled expression starts on the line on which it started**, if no cast goes inside it. -/
theorem Expr.line?_reconcile (sc : Scope) : ∀ (d : Option Demand) (e : Expr),
    r.KeepsCasts (e.visits r.anonymous sc d) → (e.reconcile r sc d).line? = e.line?
  | d, ⟨l, t, k⟩, h => by
    have hwalk : Expr.line? ⟨l, t, k.reconcile r sc t⟩ = Expr.line? ⟨l, t, k⟩ := by
      obtain ⟨hleading, htrailing⟩ := k.line?_reconcile sc t h.snd
      simp only [Expr.line?, hleading, htrailing]
    cases d with
    | none => exact hwalk
    | some d => exact h.edits.line?_applyAll hwalk

theorem ExprKind.line?_reconcile (sc : Scope) (t : Ty) : ∀ k : ExprKind, r.KeepsCasts (k.visits r.anonymous sc t) →
    (k.reconcile r sc t).leadingLine? = k.leadingLine? ∧ (k.reconcile r sc t).trailingLine? = k.trailingLine?
  | .leaf _, _ | .field none _, _ | .lambda _ none, _ | .lambda _ (some _), _ | .methodRef _ _, _ => ⟨rfl, rfl⟩
  | .field (some q) _, h => ⟨q.line?_reconcile sc _ h, rfl⟩
  | .call q _ _ as ps, h => ⟨q.line?_reconcile sc none h.tail.snd, line?_reconcileArguments sc _ ps as h.tail.fst⟩
  | .delegate _ _ _ as ps, h => ⟨rfl, line?_reconcileArguments sc _ ps as h.tail⟩
  | .new _ as ps none, h => ⟨rfl, line?_reconcileArguments sc _ ps as h.tail⟩
  | .new _ as ps (some _), h => ⟨rfl, line?_reconcileArguments sc _ ps as h.tail.fst⟩
  | .newArray ds, h => ⟨rfl, line?_reconcileExprs sc ds h⟩
  | .filledArray es, h => ⟨rfl, line?_reconcileInits sc _ es h⟩
  | .binary _ x y, h => ⟨x.line?_reconcile sc none h.fst, y.line?_reconcile sc _ h.snd⟩
  | .unary .before _ x, h => ⟨rfl, x.line?_reconcile sc none h⟩
  | .unary .after _ x, h => ⟨x.line?_reconcile sc none h, rfl⟩
  | .instanceOf x _, h => ⟨x.line?_reconcile sc none h, rfl⟩
  | .conditional c x y, h => by
    refine ⟨c.line?_reconcile sc none h.fst.fst, ?_⟩
    simp only [ExprKind.reconcile, ExprKind.trailingLine?]
    rw [x.line?_reconcile sc _ h.fst.snd, y.line?_reconcile sc _ h.snd]
  | .index a i, h => ⟨a.line?_reconcile sc none h.fst, i.line?_reconcile sc none h.snd⟩
  | .cast x, h => ⟨rfl, x.line?_reconcile sc none h⟩

theorem line?_reconcileArguments (sc : Scope) (d : Ty → Demand) : ∀ (ps : List Ty) (as : List Expr),
    r.KeepsCasts (visitArguments r.anonymous sc d ps as) → firstLine? (reconcileArguments r sc d ps as) = firstLine? as
  | [], [], _ | _ :: _, [], _ | [], _ :: _, _ => rfl
  | _ :: ps, a :: as, h => by
    simp only [reconcileArguments, firstLine?]
    rw [a.line?_reconcile sc _ h.snd, line?_reconcileArguments sc d ps as h.fst]

theorem line?_reconcileExprs (sc : Scope) : ∀ es : List Expr, r.KeepsCasts (visitExprs r.anonymous sc es) →
    firstLine? (reconcileExprs r sc es) = firstLine? es
  | [], _ => rfl
  | e :: es, h => by
    simp only [reconcileExprs, firstLine?]
    rw [e.line?_reconcile sc none h.fst, line?_reconcileExprs sc es h.snd]

theorem Init.line?_reconcile (sc : Scope) (t : Ty) : ∀ i : Init, r.KeepsCasts (i.visits r.anonymous sc t) →
    (i.reconcile r sc t).line? = i.line?
  | .expr e, h => e.line?_reconcile sc _ h
  | .array es, h => line?_reconcileInits sc _ es h

theorem line?_reconcileInits (sc : Scope) (t : Ty) : ∀ is : List Init, r.KeepsCasts (visitInits r.anonymous sc t is) →
    firstInitLine? (reconcileInits r sc t is) = firstInitLine? is
  | [], _ => rfl
  | i :: is, h => by
    simp only [reconcileInits, firstInitLine?]
    rw [i.line?_reconcile sc t h.fst, line?_reconcileInits sc t is h.snd]

end

/-! ## Positions -/

namespace Expr

theorem firstLine_congr {e e' : Expr} (h : e'.line? = e.line?) : e'.firstLine = e.firstLine :=
  congrArg (Option.getD · 0) h

theorem SameLines.refl : ∀ e : Expr, e.SameLines e
  | ⟨l, t, k⟩ => by
    cases k with
    | cast x => exact .cast l (refl x) rfl
    | _ => exact .node rfl rfl rfl rfl

/-- A walk keeps the lines, from the casts at the top down to what stands under them. -/
theorem sameLines_walk (sc : Scope) : ∀ e : Expr, r.KeepsCasts (e.visits r.anonymous sc none) →
    e.SameLines (e.reconcile r sc none)
  | ⟨l, t, k⟩, h => by
    have hline := firstLine_congr (line?_reconcile r sc none ⟨l, t, k⟩ h)
    cases hc : isCast ⟨l, t, k⟩ with
    | true =>
      cases k with
      | cast x => exact .cast l (sameLines_walk sc x h) hline
      | _ => cases hc
    | false =>
      exact .node hc ((walk_alike r sc ⟨l, t, k⟩).isCast.trans hc) (bare_reconcile r sc none ⟨l, t, k⟩) hline

theorem SameLines.firstLine {e e' : Expr} (h : e.SameLines e') : e'.firstLine = e.firstLine := by
  cases h with
  | node _ _ _ hline => exact hline
  | cast _ _ hline => exact hline

/-- An object creation that has lost its type arguments starts where it started. -/
theorem SameLines.erase {e w : Expr} (h : e.SameLines w) (hw : w.isNew = true) :
    e.SameLines { w with ty := w.ty.raw } := by
  have herased : { w with ty := w.ty.raw }.bare = w.bare := (Edit.Planned.erase 0 w.ty hw).bare_applyAll
  cases h with
  | node hc hc' hbare hline =>
    exact .node hc ((Edit.isCast_erase w).trans hc') (herased.trans hbare)
      ((firstLine_congr (w.line?_withTy w.ty.raw)).trans hline)
  | cast l h hline => cases hw

/-- **A position of a run that takes no cast away.** -/
theorem keepsLines_reconcile (sc : Scope) (d : Option Demand) (e : Expr)
    (h : r.KeepsCasts (e.visits r.anonymous sc d)) : e.KeepsLines (e.reconcile r sc d) := by
  have hwalk := e.sameLines_walk r sc h.walk
  cases d with
  | none => exact .left hwalk
  | some d =>
    have hline := firstLine_congr (e.line?_reconcile r sc (some d) h)
    have hplan := h.edits
    rw [reconcile_eq_applyAll] at hline ⊢
    unfold Rules.editsAt at hline ⊢
    dsimp only at hline ⊢
    generalize r.edits sc.bounds d e = es at hplan hline ⊢
    cases hplan with
    | keep => exact .left hwalk
    | insert t hc => exact .wrapped _ t hc hwalk hwalk.firstLine.symm hline
    | erase t hn =>
      have herased := hwalk.erase ((e.walk_alike r sc).isNew.trans hn)
      exact .wrapped _ t (isCast_of_isNew hn) herased herased.firstLine.symm hline
    | retarget l s x t =>
      rw [walk_cast] at hwalk hline ⊢
      cases hwalk with
      | node hc => cases hc
      | cast _ h => exact .left (.cast l h hline)

end Expr

theorem Part.Within.keepsLines {r : Rules} {vs : List Visit} {x y : Part} (hvs : r.KeepsCasts vs)
    (h : Within r vs x y) : Option.Rel Expr.KeepsLines x.position? y.position? := by
  cases h with
  | declared t => exact .none
  | untouched e => exact .some (.left (.refl e))
  | reconciled sc d e hsub => exact .some (e.keepsLines_reconcile r sc d (hvs.mono hsub))

/-! ## The whole run -/

/-- Nothing collapsed and nothing removed: no edit has taken a cast away. -/
theorem CastReport.uncovers_of_ofEdits : ∀ es : List Edit, (ofEdits es).collapsed = 0 → (ofEdits es).removed = 0 →
    ∀ x ∈ es, x.uncovers = false
  | [], _, _, _, hx => by cases hx
  | d :: es, hcollapsed, hremoved, x, hx => by
    rw [ofEdits, add_eq] at hcollapsed hremoved
    dsimp only at hcollapsed hremoved
    rcases List.mem_cons.1 hx with rfl | hx
    · cases x <;> simp_all [ofEdit, Edit.uncovers]
    · exact uncovers_of_ofEdits es (by omega) (by omega) x hx

/-- **New casts shift no line.**  Over a unit without casts a run takes none away.  A run that takes none away adds as
many as it reports, and every expression starts on the line on which it started: in its place it stands as it was, or
under a new cast that has the line of its operand. -/
theorem CastPass.run_keeps_lines (p : CastPass) (u u' : CompilationUnit) (report : CastReport)
    (hrun : (p.run u).result = .ok (report, u')) :
    (u.casts = [] → report.collapsed = 0 ∧ report.removed = 0) ∧
    (report.collapsed = 0 → report.removed = 0 →
      u'.casts.length = u.casts.length + report.inserted ∧ List.Forall₂ Expr.KeepsLines u.positions u'.positions) := by
  have haccounts := (u.traces p.rules).accounts
  unfold Rules.anonymous at haccounts
  obtain ⟨rfl, rfl⟩ := run_ok hrun
  unfold CastReport.ofSteps
  rw [filterMap_edit?_stepsOf]
  refine ⟨fun hu => ?_, fun hcollapsed hremoved => ⟨?_, ?_⟩⟩
  · have hpositions := (castsOf_eq_nil_iff u.parts).1 hu
    have hreport := p.rules.editsOf_onlyInserts _ fun sc d e he => hpositions e (haccounts.position_mem he)
    exact hreport.2
  · have hbalance := haccounts.balances
    unfold CastReport.Balances at hbalance
    change u.casts.length + _ = (u.reconcile p.rules).casts.length + _ + _ at hbalance
    omega
  · have hkeeps : p.rules.KeepsCasts (u.visits p.rules.anonymous) :=
      CastReport.uncovers_of_ofEdits _ hcollapsed hremoved
    exact List.rel_filterMap (fun _ _ h => h.keepsLines hkeeps) (u.within p.rules)

/-- `value.size;` in the body of a method, on a line after that of the value. -/
def CompilationUnit.readSize (value : Expr) : CompilationUnit :=
  ⟨[⟨.ordinary, AccessFlag.isPublic, "Box", some ⟨"Box", .empty,
    [.method (.named "read" "()V" (.ofPrimitive .void))
      (some [.expr ⟨9, .ofPrimitive .int, .field (some value) ⟨"Box", "size", "I"⟩⟩])]⟩⟩]⟩

/-- Facts under which every class is known by its name. -/
def TypeFacts.resolving : TypeFacts := { Hierarchy.empty.facts with resolve? := fun name => some ⟨name, none, 0⟩ }

/-- The qualifier of a field, which is asked for its line before the field is, gets a cast. -/
theorem CastPass.run_readSize :
    ((CastPass.ofFacts .resolving).run (.readSize (.localVar 7 (.ofVar "T") "value"))).result =
      .ok ({ inserted := 1 }, .readSize (.cast 7 (.ofClass "Box") (.localVar 7 (.ofVar "T") "value"))) := by
  with_unfolding_all rfl

theorem CastPass.run_keeps_lines_readSize :
    (CompilationUnit.readSize (.localVar 7 (.ofVar "T") "value")).casts = [] ∧
    List.Forall₂ Expr.KeepsLines (CompilationUnit.readSize (.localVar 7 (.ofVar "T") "value")).positions
      (CompilationUnit.readSize (.cast 7 (.ofClass "Box") (.localVar 7 (.ofVar "T") "value"))).positions := by
  have hbare : (CompilationUnit.readSize (.localVar 7 (.ofVar "T") "value")).casts = [] := by
    with_unfolding_all rfl
  obtain ⟨hnone, hlines⟩ := run_keeps_lines _ _ _ _ run_readSize
  obtain ⟨hcollapsed, hremoved⟩ := hnone hbare
  exact ⟨hbare, (hlines hcollapsed hremoved).2⟩

end Recast
