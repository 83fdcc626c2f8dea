import Recast.Proofs.Parts
import Recast.Proofs.Walk
import Recast.Cast.Visit
/-!
# Traces — the visits and the parts of a tree, before and after

A run comes by a list of visits and leaves a tree whose positions answer the old ones.  Two relations tell how these go
together, and one induction over the tree proves both (`CompilationUnit.traces`).

`Rules.Retraces` is about order.  The visits of the reconciled tree are those of the tree, each slot with what its
edits have made of the expression, and none is new.  Some slots may be gone: where a cast is taken off an array
creation with its elements in braces, a class name or a call with written type arguments, what comes to light is not
checked in that position.  A slot without a cast is never lost.

`Rules.Accounts` is about places.  Every position is left, or walked, or settled as one slot, and every slot of the
visits settles one position: so what the slots do adds up over the positions, each counted once.
-/
namespace Recast

/-- Whether the bodies of anonymous classes are entered. -/
abbrev Rules.anonymous (r : Rules) : Bool := r.settings.anonymousClassBodies

namespace Visit

/-- The visit with the expression of its slot reconciled. -/
def settled (r : Rules) : Visit → Visit
  | slot sc d e => slot sc d (e.reconcile r sc (some d))
  | call s => call s
  | skip w => skip w

end Visit

/-- **The visits before and after**: each settled, in their order, save for slots that held a cast. -/
inductive Rules.Retraces (r : Rules) : List Visit → List Visit → Prop
  | nil : Retraces r [] []
  | again {vs vs' : List Visit} (v : Visit) (h : Retraces r vs vs') : Retraces r (v :: vs) (v.settled r :: vs')
  | gone {vs vs' : List Visit} (sc : Scope) (d : Demand) {e : Expr} (hc : e.isCast = true) (h : Retraces r vs vs') :
    Retraces r (.slot sc d e :: vs) vs'

/-- **What becomes of a part**, with the slot that it is settled as, if any. -/
inductive Part.Becomes (r : Rules) : List Visit → Part → Part → Prop
  | declared (t : Ty) : Becomes r [] (.declared t) (.declared t)
  | untouched (e : Expr) : Becomes r [] (.position e) (.position e)
  | walked (sc : Scope) (e : Expr) : Becomes r [] (.position e) (.position (e.reconcile r sc none))
  | settled (sc : Scope) (d : Demand) (e : Expr) :
    Becomes r [.slot sc d e] (.position e) (.position (e.reconcile r sc (some d)))

/-- **The parts before and after, with the slots that made the difference.**  Call sites and skipped members belong to
no part, and parts need not stand in the order in which a run comes by. -/
inductive Rules.Accounts (r : Rules) : List Visit → List Part → List Part → Prop
  | nil : Accounts r [] [] []
  | part {vs ws : List Visit} {x y : Part} {xs ys : List Part} (h : Part.Becomes r vs x y) (hs : Accounts r ws xs ys) :
    Accounts r (vs ++ ws) (x :: xs) (y :: ys)
  | call {vs : List Visit} {xs ys : List Part} (s : CallSite) (h : Accounts r vs xs ys) :
    Accounts r (.call s :: vs) xs ys
  | skip {vs : List Visit} {xs ys : List Part} (w : Skipped) (h : Accounts r vs xs ys) :
    Accounts r (.skip w :: vs) xs ys
  | reorder {vs ws : List Visit} {xs ys : List Part} (hp : vs.Perm ws) (h : Accounts r vs xs ys) : Accounts r ws xs ys

namespace Rules.Retraces

variable {r : Rules} {vs vs' ws ws' : List Visit}

theorem append (hv : r.Retraces vs vs') (hw : r.Retraces ws ws') : r.Retraces (vs ++ ws) (vs' ++ ws') := by
  induction hv with
  | nil => exact hw
  | again v _ ih => exact .again v ih
  | gone sc d hc _ ih => exact .gone sc d hc ih

/-- Without casts in the slots nothing comes to light, and no slot is lost. -/
theorem eq_map_settled (h : r.Retraces vs vs') (hbare : ∀ sc d e, .slot sc d e ∈ vs → e.isCast = false) :
    vs' = vs.map (Visit.settled r) := by
  induction h with
  | nil => rfl
  | again v _ ih => rw [List.map_cons, ih fun sc d e he => hbare sc d e (List.mem_cons_of_mem _ he)]
  | gone sc d hc _ ih =>
    have hslot := hbare sc d _ List.mem_cons_self
    rw [hc] at hslot
    cases hslot

end Rules.Retraces

namespace Rules.Accounts

variable {r : Rules} {vs ws : List Visit} {xs ys xs' ys' : List Part}

/-- What a run does not enter stays. -/
theorem refl : ∀ xs : List Part, r.Accounts [] xs xs
  | [] => .nil
  | .position e :: xs => .part (.untouched e) (refl xs)
  | .declared t :: xs => .part (.declared t) (refl xs)

theorem append (hv : r.Accounts vs xs ys) (hw : r.Accounts ws xs' ys') :
    r.Accounts (vs ++ ws) (xs ++ xs') (ys ++ ys') := by
  induction hv with
  | nil => exact hw
  | part h _ ih =>
    rw [List.append_assoc]
    exact .part h ih
  | call s _ ih => exact .call s ih
  | skip w _ ih => exact .skip w ih
  | reorder hp _ ih => exact .reorder (hp.append_right _) ih

/-- A slot is that of a position with the same expression. -/
theorem position_mem (h : r.Accounts vs xs ys) {sc : Scope} {d : Demand} {e : Expr} (hv : .slot sc d e ∈ vs) :
    .position e ∈ xs := by
  induction h with
  | nil => cases hv
  | part h _ ih =>
    rcases List.mem_append.1 hv with hv | hv
    · cases h with
      | settled sc₀ d₀ e₀ =>
        cases List.mem_singleton.1 hv
        exact List.mem_cons_self
      | _ => cases hv
    · exact List.mem_cons_of_mem _ (ih hv)
  | call s _ ih => exact ih ((List.mem_cons.1 hv).resolve_left nofun)
  | skip w _ ih => exact ih ((List.mem_cons.1 hv).resolve_left nofun)
  | reorder hp _ ih => exact ih (hp.mem_iff.2 hv)

end Rules.Accounts

/-- **A tree before and after a run**, by its visits and by its parts. -/
structure Rules.Traces (r : Rules) (vs vs' : List Visit) (xs ys : List Part) : Prop where
  retraces : r.Retraces vs vs'
  accounts : r.Accounts vs xs ys

namespace Rules.Traces

variable {r : Rules} {vs vs' ws ws' : List Visit} {xs ys xs' ys' : List Part}

theorem nil : r.Traces [] [] [] [] := ⟨.nil, .nil⟩

theorem unseen (xs : List Part) : r.Traces [] [] xs xs := ⟨.nil, .refl xs⟩

theorem append (hv : r.Traces vs vs' xs ys) (hw : r.Traces ws ws' xs' ys') :
    r.Traces (vs ++ ws) (vs' ++ ws') (xs ++ xs') (ys ++ ys') :=
  ⟨hv.retraces.append hw.retraces, hv.accounts.append hw.accounts⟩

/-- The same for parts that a run comes by in the other order. -/
theorem append_swap (hv : r.Traces vs vs' xs ys) (hw : r.Traces ws ws' xs' ys') :
    r.Traces (ws ++ vs) (ws' ++ vs') (xs ++ xs') (ys ++ ys') :=
  ⟨hw.retraces.append hv.retraces, .reorder List.perm_append_comm (hv.accounts.append hw.accounts)⟩

theorem call (s : CallSite) (h : r.Traces vs vs' xs ys) : r.Traces (.call s :: vs) (.call s :: vs') xs ys :=
  ⟨.again (.call s) h.retraces, .call s h.accounts⟩

/-- What stands in a skipped member stays. -/
theorem skip (w : Skipped) (xs : List Part) : r.Traces [.skip w] [.skip w] xs xs :=
  ⟨.again (.skip w) .nil, .skip w (.refl xs)⟩

theorem declared (t : Ty) (h : r.Traces vs vs' xs ys) : r.Traces vs vs' (.declared t :: xs) (.declared t :: ys) :=
  ⟨h.retraces, .part (.declared t) h.accounts⟩

theorem append_declaredParts (ts : List Ty) (h : r.Traces vs vs' xs ys) :
    r.Traces vs vs' (xs ++ declaredParts ts) (ys ++ declaredParts ts) := by
  have hall := h.append (.unseen (declaredParts ts))
  rwa [List.append_nil, List.append_nil] at hall

end Rules.Traces

/-! ## One position -/

theorem Expr.visits_eq (a : Bool) (sc : Scope) (d : Option Demand) (e : Expr) :
    e.visits a sc d = Visit.at? sc d e ++ e.kind.visits a sc e.ty := by
  obtain ⟨l, t, k⟩ := e
  rfl

theorem Ty.createdName_raw (t : Ty) : t.raw.createdName = t.createdName := by
  cases t <;> rfl

/-- What stands below the casts at the top is visited alike before and after the edits. -/
theorem Edit.Planned.inner_visits {e : Expr} {es : List Edit} (h : Planned e es) (a : Bool) (sc : Scope) :
    (applyAll es e).kind.visits a sc (applyAll es e).ty = e.kind.visits a sc e.ty := by
  cases h with
  | erase line t hw =>
    obtain ⟨l, s, k⟩ := e
    cases k with
    | new desc as ps b =>
      cases b <;>
        simp only [applyAll, List.foldl_cons, List.foldl_nil, apply, Expr.cast, ExprKind.visits, Expr.visits,
          Visit.at?, Ty.createdName_raw, List.nil_append]
    | _ => cases hw
  | insert line t hc => exact Expr.visits_eq a sc none e
  | retarget | keep => rfl
  | collapse l s x => exact (Expr.visits_eq a sc none x).symm
  | remove l s x => exact (Expr.visits_eq a sc none x).symm
  | retargetRemove l s x t => exact (Expr.visits_eq a sc none x).symm
  | collapseRemove l s m t y => exact (Expr.visits_eq a sc none y).symm

/-- The parts below a position are the same before and after the edits. -/
theorem Edit.Planned.inner_parts {e : Expr} {es : List Edit} (h : Planned e es) :
    (applyAll es e).kind.parts = e.kind.parts := by
  cases h with
  | insert line t hc => exact ExprKind.parts_cast e
  | erase line t hw => exact ExprKind.parts_cast { e with ty := e.ty.raw }
  | retarget | keep => rfl
  | collapse l s x => exact (ExprKind.parts_cast x).symm
  | remove l s x => exact (ExprKind.parts_cast x).symm
  | retargetRemove l s x t => exact (ExprKind.parts_cast x).symm
  | collapseRemove l s m t y => exact ((ExprKind.parts_cast _).trans (ExprKind.parts_cast y)).symm

variable (r : Rules)

/-- An expression that is no cast comes out under a cast, or as a node alike. -/
theorem Expr.isCast_or_alike (sc : Scope) (d : Option Demand) {e : Expr} (hc : e.isCast = false) :
    (e.reconcile r sc d).isCast = true ∨ e.Alike (e.reconcile r sc d) := by
  rw [reconcile_eq_applyAll]
  have hplan := r.planned_editsAt sc.bounds e d
  generalize r.editsAt sc.bounds d e = es at hplan
  cases hplan with
  | keep => exact .inr (e.walk_alike r sc)
  | insert line t hc => exact .inl rfl
  | erase line t hw => exact .inl rfl
  | _ => cases hc

/-- **What comes to light was under a cast**: a test on the node that fails under a cast holds of a reconciled
expression only if it held before or a cast has gone. -/
theorem Expr.isCast_of_uncovered {p : Expr → Bool} (hcast : ∀ l t x, p ⟨l, t, .cast x⟩ = false)
    (halike : ∀ {e e' : Expr}, e.Alike e' → p e' = p e) {sc : Scope} {d : Option Demand} {e : Expr}
    (he : p e = false) (h : p (e.reconcile r sc d) = true) : e.isCast = true := by
  cases hc : e.isCast with
  | true => rfl
  | false =>
    rcases e.isCast_or_alike r sc d hc with hcast' | hnode
    · obtain ⟨l, t, x, hx⟩ := exists_of_isCast hcast'
      rw [hx, hcast] at h
      cases h
    · rw [halike hnode, he] at h
      cases h

/-- **A demand in the reconciled tree** is that of the tree; or it is none, where a cast has gone. -/
def Demand.Again (e : Expr) (d d' : Option Demand) : Prop := d' = d ∨ d' = none ∧ e.isCast = true

namespace Demand

theorem Again.refl (e : Expr) (d : Option Demand) : Again e d d := .inl rfl

theorem ofQualifier_again (sc : Scope) (m : MemberRef) (q : Expr) :
    Again q (ofQualifier m q) (ofQualifier m (q.reconcile r sc (ofQualifier m q))) := by
  unfold ofQualifier
  by_cases hq : q.isTypeName = true
  · rw [if_pos hq, (q.walk_alike r sc).isTypeName, if_pos hq]
    exact .inl rfl
  · rw [if_neg hq]
    split
    · rename_i h
      exact .inr ⟨rfl, q.isCast_of_uncovered r (fun _ _ _ => rfl) (·.isTypeName) (Bool.eq_false_iff.2 hq) h⟩
    · exact .inl rfl

theorem ofInit_again (sc : Scope) (required : Ty) (e : Expr) :
    Again e (ofInit required e) (ofInit required (e.reconcile r sc (ofInit required e))) := by
  unfold ofInit
  by_cases he : e.isFilledArray = true
  · rw [if_pos he, (e.walk_alike r sc).isFilledArray, if_pos he]
    exact .inl rfl
  · rw [if_neg he]
    split
    · rename_i h
      exact .inr ⟨rfl, e.isCast_of_uncovered r (fun _ _ _ => rfl) (·.isFilledArray) (Bool.eq_false_iff.2 he) h⟩
    · exact .inl rfl

theorem ofOperand_again (sc : Scope) (o : BinaryOperator) (x y : Expr) :
    Again y (ofOperand o x y) (ofOperand o (x.reconcile r sc none) (y.reconcile r sc (ofOperand o x y))) := by
  unfold ofOperand
  rw [(x.walk_alike r sc).ty]
  by_cases ho : o = .assign ∧ ¬ y.isExplicitCall = true
  · rw [if_pos ho]
    split
    · exact .inl rfl
    · rename_i h
      have hcall : (y.reconcile r sc (some (.fit x.ty false))).isExplicitCall = true :=
        Classical.not_not.1 fun hcall => h ⟨ho.1, hcall⟩
      exact .inr ⟨rfl, y.isCast_of_uncovered r (fun _ _ _ => rfl) (·.isExplicitCall) (Bool.eq_false_iff.2 ho.2) hcall⟩
  · rw [if_neg ho, (y.walk_alike r sc).isExplicitCall, if_neg ho]
    exact .inl rfl

end Demand

/-- **A position**: its slot is there again, or gone with a cast; what is inside is inside whatever cast is around it. -/
theorem Rules.Traces.position (sc : Scope) {d d' : Option Demand} {e : Expr} {vs vs' : List Visit} {xs ys : List Part}
    (hd : Demand.Again e d d') (h : r.Traces vs vs' xs ys) :
    r.Traces (Visit.at? sc d e ++ vs) (Visit.at? sc d' (e.reconcile r sc d) ++ vs') (.position e :: xs)
      (.position (e.reconcile r sc d) :: ys) := by
  cases d with
  | none =>
    obtain rfl : d' = none := hd.elim id And.left
    exact ⟨h.retraces, .part (.walked sc e) h.accounts⟩
  | some d =>
    refine ⟨?_, .part (.settled sc d e) h.accounts⟩
    rcases hd with rfl | ⟨rfl, hc⟩
    · exact .again (.slot sc d e) h.retraces
    · exact .gone sc d hc h.retraces

theorem length_reconcileArguments (sc : Scope) (d : Ty → Demand) (ps : List Ty) (as : List Expr) :
    (reconcileArguments r sc d ps as).length = as.length := by
  induction as generalizing ps with
  | nil => cases ps <;> rfl
  | cons a as ih =>
    cases ps with
    | nil => rfl
    | cons p ps => exact congrArg (· + 1) (ih ps)

/-! ## The whole tree -/

mutual

/-- **A reconciled expression**, which may be asked for in the same position or in one without a demand. -/
theorem Expr.traces (sc : Scope) : ∀ (d d' : Option Demand) (e : Expr), Demand.Again e d d' →
    r.Traces (e.visits r.anonymous sc d) ((e.reconcile r sc d).visits r.anonymous sc d') e.parts
      (e.reconcile r sc d).parts
  | d, d', ⟨l, t, k⟩, hd => by
    have hplan := (r.planned_editsAt sc.bounds ⟨l, t, k⟩ d).walk r sc
    have hvisits : (Expr.reconcile r sc d ⟨l, t, k⟩).kind.visits r.anonymous sc (Expr.reconcile r sc d ⟨l, t, k⟩).ty =
        (k.reconcile r sc t).visits r.anonymous sc t := by
      rw [Expr.reconcile_eq_applyAll]
      exact hplan.inner_visits r.anonymous sc
    have hparts : (Expr.reconcile r sc d ⟨l, t, k⟩).kind.parts = (k.reconcile r sc t).parts := by
      rw [Expr.reconcile_eq_applyAll]
      exact hplan.inner_parts
    rw [Expr.visits_eq, Expr.visits_eq, hvisits, Expr.parts_eq (Expr.reconcile r sc d ⟨l, t, k⟩), hparts]
    exact .position r sc hd (k.traces sc t)

theorem ExprKind.traces (sc : Scope) (t : Ty) : ∀ k : ExprKind,
    r.Traces (k.visits r.anonymous sc t) ((k.reconcile r sc t).visits r.anonymous sc t) k.parts
      (k.reconcile r sc t).parts
  | .leaf _ | .field none _ | .lambda _ none => .nil
  | .methodRef q _ => .unseen q.parts
  | .field (some q) m => q.traces sc _ _ (Demand.ofQualifier_again r sc m q)
  | .call q m ts as ps => by
    simp only [ExprKind.reconcile, ExprKind.visits, ExprKind.parts, length_reconcileArguments]
    exact .call _ (.append_declaredParts ps (.append_swap (q.traces sc _ _ (.refl q none)) (tracesArguments sc _ ps as)))
  | .delegate s o desc as ps => by
    simp only [ExprKind.reconcile, ExprKind.visits, ExprKind.parts, length_reconcileArguments]
    exact .call _ (.append_declaredParts ps (tracesArguments sc _ ps as))
  | .new desc as ps none => by
    simp only [ExprKind.reconcile, ExprKind.visits, ExprKind.parts, length_reconcileArguments]
    exact .call _ (.append_declaredParts ps (tracesArguments sc _ ps as))
  | .new desc as ps (some b) => by
    simp only [ExprKind.reconcile, ExprKind.visits, ExprKind.parts, length_reconcileArguments]
    refine .call _ (.append (.append_declaredParts ps (tracesArguments sc _ ps as)) ?_)
    split
    · exact b.traces
    · exact .unseen b.parts
  | .newArray ds => tracesExprs sc ds
  | .filledArray es => tracesInits sc _ es
  | .binary o x y => .append (x.traces sc _ _ (.refl x none)) (y.traces sc _ _ (Demand.ofOperand_again r sc o x y))
  | .unary _ _ x => x.traces sc _ _ (.refl x none)
  | .instanceOf x _ => x.traces sc _ _ (.refl x none)
  | .conditional c x y =>
    .append (.append (c.traces sc _ _ (.refl c none)) (x.traces sc _ _ (.refl x _))) (y.traces sc _ _ (.refl y _))
  | .index a i => .append (a.traces sc _ _ (.refl a none)) (i.traces sc _ _ (.refl i none))
  | .cast ⟨_, t, k⟩ => k.traces sc t
  | .lambda _ (some ss) => tracesStmts _ ss

theorem tracesArguments (sc : Scope) (d : Ty → Demand) : ∀ (ps : List Ty) (as : List Expr),
    r.Traces (visitArguments r.anonymous sc d ps as)
      (visitArguments r.anonymous sc d ps (reconcileArguments r sc d ps as)) (argumentParts as)
      (argumentParts (reconcileArguments r sc d ps as))
  | [], [] | _ :: _, [] => .nil
  | [], _ :: _ => .unseen _
  | _ :: ps, a :: as => .append_swap (a.traces sc _ _ (.refl a _)) (tracesArguments sc d ps as)

theorem tracesExprs (sc : Scope) : ∀ es : List Expr,
    r.Traces (visitExprs r.anonymous sc es) (visitExprs r.anonymous sc (reconcileExprs r sc es)) (argumentParts es)
      (argumentParts (reconcileExprs r sc es))
  | [] => .nil
  | e :: es => .append (e.traces sc _ _ (.refl e none)) (tracesExprs sc es)

theorem Init.traces (sc : Scope) (t : Ty) : ∀ i : Init,
    r.Traces (i.visits r.anonymous sc t) ((i.reconcile r sc t).visits r.anonymous sc t) i.parts
      (i.reconcile r sc t).parts
  | .expr e => e.traces sc _ _ (Demand.ofInit_again r sc t e)
  | .array es => tracesInits sc _ es

theorem tracesInits (sc : Scope) (t : Ty) : ∀ is : List Init,
    r.Traces (visitInits r.anonymous sc t is) (visitInits r.anonymous sc t (reconcileInits r sc t is)) (initParts is)
      (initParts (reconcileInits r sc t is))
  | [] => .nil
  | i :: is => .append (i.traces sc t) (tracesInits sc t is)

theorem Declarator.traces (sc : Scope) (t : Ty) : ∀ d : Declarator,
    r.Traces (d.visits r.anonymous sc t) ((d.reconcile r sc t).visits r.anonymous sc t) d.parts
      (d.reconcile r sc t).parts
  | ⟨_, _, none⟩ => .nil
  | ⟨_, _, some i⟩ => i.traces sc _

theorem tracesDeclarators (sc : Scope) (t : Ty) : ∀ ds : List Declarator,
    r.Traces (visitDeclarators r.anonymous sc t ds) (visitDeclarators r.anonymous sc t (reconcileDeclarators r sc t ds))
      (declaratorParts ds) (declaratorParts (reconcileDeclarators r sc t ds))
  | [] => .nil
  | d :: ds => .append (d.traces sc t) (tracesDeclarators sc t ds)

theorem LocalDecl.traces (sc : Scope) : ∀ l : LocalDecl,
    r.Traces (l.visits r.anonymous sc) ((l.reconcile r sc).visits r.anonymous sc) l.parts (l.reconcile r sc).parts
  | ⟨t, _, ds⟩ => .declared t (tracesDeclarators sc t ds)

theorem tracesLocals (sc : Scope) : ∀ ls : List LocalDecl,
    r.Traces (visitLocals r.anonymous sc ls) (visitLocals r.anonymous sc (reconcileLocals r sc ls)) (localParts ls)
      (localParts (reconcileLocals r sc ls))
  | [] => .nil
  | l :: ls => .append (l.traces sc) (tracesLocals sc ls)

theorem Stmt.traces (sc : Scope) : ∀ s : Stmt,
    r.Traces (s.visits r.anonymous sc) ((s.reconcile r sc).visits r.anonymous sc) s.parts (s.reconcile r sc).parts
  | .expr e => e.traces sc _ _ (.refl e none)
  | .decl l => l.traces sc
  | .ret none | .jump _ _ | .bytecode _ => .nil
  | .ret (some e) => e.traces sc _ _ (.refl e _)
  | .throw e => e.traces sc _ _ (.refl e _)
  | .ifThen c ss none => .append (c.traces sc _ _ (.refl c none)) (tracesStmts sc ss)
  | .ifThen c ss (some ts) => .append (.append (c.traces sc _ _ (.refl c none)) (tracesStmts sc ss)) (tracesStmts sc ts)
  | .whileLoop _ c ss => .append (c.traces sc _ _ (.refl c none)) (tracesStmts sc ss)
  | .forLoop is none us ss => .append (.append (tracesStmts sc is) (tracesExprs sc us)) (tracesStmts sc ss)
  | .forLoop is (some c) us ss =>
    .append (.append (.append (tracesStmts sc is) (c.traces sc _ _ (.refl c none))) (tracesExprs sc us))
      (tracesStmts sc ss)
  | .forEach t _ e ss => .declared t (.append (e.traces sc _ _ (.refl e none)) (tracesStmts sc ss))
  | .switch e bs => .append (e.traces sc _ _ (.refl e none)) (tracesBlocks sc bs)
  | .synchronized e ss => .append (e.traces sc _ _ (.refl e none)) (tracesStmts sc ss)
  | .tryBlock ls ss cs none => .append (.append (tracesLocals sc ls) (tracesStmts sc ss)) (tracesCatches sc cs)
  | .tryBlock ls ss cs (some fs) =>
    .append (.append (.append (tracesLocals sc ls) (tracesStmts sc ss)) (tracesCatches sc cs)) (tracesStmts sc fs)
  | .block _ ss => tracesStmts sc ss
  | .type t => t.traces
  | .assert c none => c.traces sc _ _ (.refl c none)
  | .assert c (some m) => .append (c.traces sc _ _ (.refl c none)) (m.traces sc _ _ (.refl m none))

theorem tracesStmts (sc : Scope) : ∀ ss : List Stmt,
    r.Traces (visitStmts r.anonymous sc ss) (visitStmts r.anonymous sc (reconcileStmts r sc ss)) (stmtParts ss)
      (stmtParts (reconcileStmts r sc ss))
  | [] => .nil
  | s :: ss => .append (s.traces sc) (tracesStmts sc ss)

theorem tracesLabels (sc : Scope) : ∀ ls : List (Option Expr),
    r.Traces (visitLabels r.anonymous sc ls) (visitLabels r.anonymous sc (reconcileLabels r sc ls)) (labelParts ls)
      (labelParts (reconcileLabels r sc ls))
  | [] => .nil
  | none :: ls => tracesLabels sc ls
  | some e :: ls => .append (e.traces sc _ _ (.refl e none)) (tracesLabels sc ls)

theorem SwitchBlock.traces (sc : Scope) : ∀ b : SwitchBlock,
    r.Traces (b.visits r.anonymous sc) ((b.reconcile r sc).visits r.anonymous sc) b.parts (b.reconcile r sc).parts
  | ⟨ls, ss⟩ => .append (tracesLabels sc ls) (tracesStmts sc ss)

theorem tracesBlocks (sc : Scope) : ∀ bs : List SwitchBlock,
    r.Traces (visitBlocks r.anonymous sc bs) (visitBlocks r.anonymous sc (reconcileBlocks r sc bs)) (blockParts bs)
      (blockParts (reconcileBlocks r sc bs))
  | [] => .nil
  | b :: bs => .append (b.traces sc) (tracesBlocks sc bs)

theorem CatchClause.traces (sc : Scope) : ∀ c : CatchClause,
    r.Traces (c.visits r.anonymous sc) ((c.reconcile r sc).visits r.anonymous sc) c.parts (c.reconcile r sc).parts
  | ⟨_, _, ss⟩ => tracesStmts sc ss

theorem tracesCatches (sc : Scope) : ∀ cs : List CatchClause,
    r.Traces (visitCatches r.anonymous sc cs) (visitCatches r.anonymous sc (reconcileCatches r sc cs)) (catchParts cs)
      (catchParts (reconcileCatches r sc cs))
  | [] => .nil
  | c :: cs => .append (c.traces sc) (tracesCatches sc cs)

theorem TypeDecl.traces : ∀ t : TypeDecl,
    r.Traces (t.visits r.anonymous) ((t.reconcile r).visits r.anonymous) t.parts (t.reconcile r).parts
  | ⟨_, _, _, none⟩ => .nil
  | ⟨_, _, _, some b⟩ => b.traces

theorem Body.traces : ∀ b : Body,
    r.Traces (b.visits r.anonymous) ((b.reconcile r).visits r.anonymous) b.parts (b.reconcile r).parts
  | ⟨_, b, ms⟩ => tracesMembers b ms

theorem Member.traces (b : TypeBounds) : ∀ m : Member,
    r.Traces (m.visits r.anonymous b) ((m.reconcile r b).visits r.anonymous b) m.parts (m.reconcile r b).parts
  | .field f t ds => by
    simp only [Member.reconcile, Member.visits, Member.parts]
    refine .declared t ?_
    split
    · exact .skip _ _
    · exact tracesDeclarators _ t ds
  | .staticInit _ none => .nil
  | .staticInit _ (some ss) => tracesStmts _ ss
  | .constructor h none => by
    simp only [Member.reconcile, Member.visits, Member.parts]
    split
    · exact .skip _ _
    · exact .nil
  | .constructor h (some ss) => by
    simp only [Member.reconcile, Member.visits, Member.parts]
    split
    · exact .skip _ _
    · exact tracesStmts _ ss
  | .method h none => by
    simp only [Member.reconcile, Member.visits, Member.parts]
    refine .declared h.returns ?_
    split
    · exact .skip _ _
    · exact .nil
  | .method h (some ss) => by
    simp only [Member.reconcile, Member.visits, Member.parts]
    refine .declared h.returns ?_
    split
    · exact .skip _ _
    · exact tracesStmts _ ss
  | .type t => t.traces

theorem tracesMembers (b : TypeBounds) : ∀ ms : List Member,
    r.Traces (visitMembers r.anonymous b ms) (visitMembers r.anonymous b (reconcileMembers r b ms)) (memberParts ms)
      (memberParts (reconcileMembers r b ms))
  | [] => .nil
  | m :: ms => .append (m.traces b) (tracesMembers b ms)

end

/-- **A unit before and after it is reconciled.** -/
theorem CompilationUnit.traces (u : CompilationUnit) :
    r.Traces (u.visits r.anonymous) ((u.reconcile r).visits r.anonymous) u.parts (u.reconcile r).parts := by
  obtain ⟨ts⟩ := u
  simp only [CompilationUnit.visits, CompilationUnit.reconcile, CompilationUnit.parts]
  induction ts with
  | nil => exact .nil
  | cons t ts ih => exact .append (t.traces r) ih

end Recast
