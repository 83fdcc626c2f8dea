import Recast.Proofs.Run
import Recast.Proofs.Shed
import Recast.Proofs.Revisit
/-!
# Removal — a run that takes redundant casts away, beside one that leaves them

Removal is the last edit of a slot and the only one that depends on the setting: with it on, a slot gets the same edits
and then, if a cast is left that is not needed, its removal (`Rules.edits_removing`).  The two runs then walk on from
different nodes, one a cast and the other its operand.  Below the casts at the top the trees are the same again, and
nothing that is decided there looks at a cast above it, so the walk is followed from the core up (`Expr.Apart`).
-/
namespace Recast

/-- Whether the edit takes a cast away as redundant. -/
def Edit.isRemoval : Edit → Bool
  | .remove .. => true
  | _ => false

/-- The rules with redundant casts taken away, or left where they are. -/
def Rules.removing (r : Rules) (on : Bool) : Rules :=
  { r with settings := { r.settings with removeRedundantCasts := on } }

/-- The pass under these rules. -/
def CastPass.removing (p : CastPass) (on : Bool) : CastPass :=
  p.withSettings { p.rules.settings with removeRedundantCasts := on }

namespace Edit

theorem isRemoval_castTo (t : Ty) (e : Expr) : (castTo t e).isRemoval = false := by
  unfold castTo
  split
  · split <;> rfl
  · rfl

/-- No edit of a verdict is a removal. -/
theorem isRemoval_of_mem_verdict {v : Verdict} {e : Expr} {d : Edit} (h : d ∈ v.edits e) : d.isRemoval = false := by
  cases v with
  | keep => cases h
  | cast t =>
    obtain rfl := List.mem_singleton.1 h
    exact isRemoval_castTo t e
  | eraseAndCast t =>
    rcases List.mem_cons.1 h with rfl | h
    · rfl
    · obtain rfl := List.mem_singleton.1 h
      exact isRemoval_castTo t e

end Edit

theorem TypeFacts.exists_cast_of_redundant {f : TypeFacts} {b : TypeBounds} {required : Ty} {e : Expr}
    (h : f.redundant b required e = true) : ∃ l t x, e = ⟨l, t, .cast x⟩ := by
  refine Expr.exists_of_isCast ?_
  cases hc : e.isCast with
  | true => rfl
  | false =>
    rw [redundant_of_not_cast (Expr.castOperand?_eq_none.2 hc)] at h
    cases h

namespace Rules

variable (r : Rules) (b : TypeBounds)

/-- With removal off no edit of a slot is one. -/
theorem isRemoval_of_mem_fitEdits {required : Ty} {forced : Bool} {e : Expr} {d : Edit}
    (h : d ∈ (r.removing false).fitEdits b required forced e) : d.isRemoval = false := by
  unfold fitEdits at h
  split at h
  · split at h
    · obtain rfl := List.mem_singleton.1 h
      exact Edit.isRemoval_castTo required e
    · cases h
  · simp only [removing, Bool.and_false, Bool.false_and, Bool.false_eq_true, if_false] at h
    exact Edit.isRemoval_of_mem_verdict h

theorem isRemoval_of_mem_edits {d : Demand} {e : Expr} {x : Edit} (h : x ∈ (r.removing false).edits b d e) :
    x.isRemoval = false := by
  cases d with
  | thrown t =>
    simp only [edits] at h
    split at h
    · cases h
    · obtain rfl := List.mem_singleton.1 h
      exact Edit.isRemoval_castTo t e
  | fit t forced => exact r.isRemoval_of_mem_fitEdits b h
  | argument t owner member count => exact r.isRemoval_of_mem_fitEdits b h
  | declaring owner =>
    simp only [edits] at h
    split at h
    · exact r.isRemoval_of_mem_fitEdits b h
    · cases h

/-- **The edits of a slot under the two settings**: one list, or the second and the removal of the cast it leaves. -/
inductive Parting (e : Expr) : List Edit → List Edit → Prop
  | same (es : List Edit) : Parting e es es
  | removed (es : List Edit) (l : UInt32) (t : Ty) (x : Expr) (hx : Edit.applyAll es e = ⟨l, t, .cast x⟩) :
    Parting e (es ++ [.remove l t]) es

theorem fitEdits_removing (required : Ty) (forced : Bool) (e : Expr) :
    Parting e ((r.removing true).fitEdits b required forced e) ((r.removing false).fitEdits b required forced e) := by
  unfold fitEdits
  split
  · exact .same _
  · simp only [removing, Bool.and_true, Bool.and_false, Bool.false_and, Bool.false_eq_true, if_false]
    split
    · rename_i hred
      obtain ⟨l, t, x, hx⟩ := TypeFacts.exists_cast_of_redundant (Bool.and_eq_true_iff.1 hred).2
      rw [hx]
      exact .removed _ l t x hx
    · exact .same _

/-- **Removal comes last in a slot**, and nothing before it depends on the setting. -/
theorem edits_removing (d : Demand) (e : Expr) :
    Parting e ((r.removing true).edits b d e) ((r.removing false).edits b d e) := by
  cases d with
  | thrown t => exact .same _
  | fit t forced => exact r.fitEdits_removing b t forced e
  | argument t owner member count => exact r.fitEdits_removing b t _ e
  | declaring owner =>
    simp only [edits, TypeFacts.required?, removing]
    cases r.facts.resolve? owner with
    | some c => exact r.fitEdits_removing b (.object c) false e
    | none => exact .same _

/-- How many casts the slots of the visits lose as redundant. -/
def removals (vs : List Visit) : Nat := ((r.removing true).editsOf vs).countP (·.isRemoval)

theorem removals_append (vs ws : List Visit) : r.removals (vs ++ ws) = r.removals vs + r.removals ws := by
  unfold removals
  rw [editsOf_append, List.countP_append]

theorem removals_call (s : CallSite) (vs : List Visit) : r.removals (.call s :: vs) = r.removals vs := rfl

theorem removals_slot (sc : Scope) (d : Demand) (e : Expr) (vs : List Visit) :
    r.removals (.slot sc d e :: vs) =
      ((r.removing true).edits sc.bounds d e).countP (·.isRemoval) + r.removals vs := List.countP_append

end Rules

variable (r : Rules)

/-! ## Two walks of one tree -/

/-- **An expression walked under the two settings**: where the casts stay, `n` more of them are left. -/
def Expr.Apart (sc : Scope) (n : Nat) (e : Expr) : Prop :=
  (e.reconcile (r.removing false) sc none).Sheds n (e.reconcile (r.removing true) sc none)

namespace Expr.Apart

variable {r} {sc : Scope} {n : Nat}

/-- The casts at the top are walked past. -/
theorem of_core : ∀ {e : Expr}, e.core.Apart r sc n → e.Apart r sc n
  | ⟨l, t, k⟩, h => by
    cases k with
    | cast x => exact .node l t (.cast (of_core h))
    | _ => exact h

/-- An object creation is walked in one way whatever type it has. -/
theorem withTy {e : Expr} (hw : e.isNew = true) (t : Ty) (h : e.Apart r sc n) :
    ({ e with ty := t } : Expr).Apart r sc n := by
  unfold Apart
  rw [walk_withTy _ sc hw, walk_withTy _ sc hw]
  obtain ⟨l, s, k⟩ := e
  cases k with
  | new desc as ps b => cases b <;> cases h with | node l s h => exact .node l t h
  | _ => cases hw

/-- The edits of a slot touch nothing below the casts. -/
theorem applyAll {e : Expr} {es : List Edit} (hp : Edit.Planned e es) (h : e.core.Apart r sc n) :
    (Edit.applyAll es e).core.Apart r sc n := by
  cases hp with
  | erase line t hw =>
    rw [core_of_not_cast (isCast_of_isNew hw)] at h
    have hraw := h.withTy hw e.ty.raw
    obtain ⟨l, s, k⟩ := e
    cases k with
    | new desc as ps b => exact hraw
    | _ => cases hw
  | _ => exact h

/-- **A slot**: its edits, and what is below. -/
theorem slot {d : Demand} {e : Expr} (h : e.core.Apart r sc n) :
    (e.reconcile (r.removing false) sc (some d)).Sheds
      (((r.removing true).edits sc.bounds d e).countP (·.isRemoval) + n)
      (e.reconcile (r.removing true) sc (some d)) := by
  have hkept : ((r.removing false).edits sc.bounds d e).countP (·.isRemoval) = 0 :=
    List.countP_eq_zero.2 fun x hx => by simp [r.isRemoval_of_mem_edits sc.bounds hx]
  have hcore := h.applyAll ((r.removing false).planned sc.bounds d e)
  rw [reconcile_some, reconcile_some]
  unfold Rules.settle
  have hparting := r.edits_removing sc.bounds d e
  generalize (r.removing true).edits sc.bounds d e = es at hparting ⊢
  generalize (r.removing false).edits sc.bounds d e = es' at hparting hkept hcore ⊢
  cases hparting with
  | same =>
    rw [hkept, Nat.zero_add]
    exact of_core hcore
  | removed _ l t x hx =>
    have hlast : Edit.applyAll (es' ++ [.remove l t]) e = x := by
      unfold Edit.applyAll at hx ⊢
      rw [List.foldl_append, hx]
      rfl
    rw [hx] at hcore ⊢
    rw [hlast, List.countP_append, hkept, Nat.zero_add]
    have hx' : x.Apart r sc n := of_core hcore
    have hcast := Expr.Sheds.cast l t hx'
    rw [Nat.add_comm] at hcast
    exact hcast

end Expr.Apart

mutual

/-- **What the slots of an expression lose as redundant is all that is missing in the end.** -/
theorem Expr.sheds (sc : Scope) : ∀ (d : Option Demand) (e : Expr),
    (e.reconcile (r.removing false) sc d).Sheds (r.removals (e.visits r.anonymous sc d))
      (e.reconcile (r.removing true) sc d)
  | none, ⟨l, t, k⟩ => Expr.Apart.of_core (k.sheds sc l t)
  | some d, ⟨l, t, k⟩ => by
    have hslot := Expr.Apart.slot (d := d) (k.sheds sc l t)
    rw [← r.removals_slot] at hslot
    exact hslot

/-- The kinds of expression, seen under whatever casts there are. -/
theorem ExprKind.sheds (sc : Scope) (l : UInt32) (t : Ty) : ∀ k : ExprKind,
    (Expr.core ⟨l, t, k⟩).Apart r sc (r.removals (k.visits r.anonymous sc t))
  | .cast ⟨l, t, k⟩ => k.sheds sc l t
  | .leaf _ | .field none _ | .lambda _ none | .methodRef _ _ => .node l t (.same _)
  | .field (some q) m => .node l t (.field m (.some (q.sheds sc _)))
  | .call q m ts as ps => by
    rw [ExprKind.visits, r.removals_call, r.removals_append]
    exact .node l t (.call m ts ps (shedsArguments sc _ ps as) (q.sheds sc none))
  | .delegate s o desc as ps => .node l t (.delegate s o desc ps (shedsArguments sc _ ps as))
  | .new desc as ps none => .node l t (.new desc ps (shedsArguments sc _ ps as) (.same none))
  | .new desc as ps (some b) => by
    rw [ExprKind.visits, r.removals_call, r.removals_append]
    refine .node l t (.new desc ps (shedsArguments sc _ ps as) ?_)
    change ShedsOption Body.Sheds _ (some (if r.anonymous = true then _ else b))
      (some (if r.anonymous = true then _ else b))
    split
    · exact .some b.sheds
    · exact .same _
  | .newArray ds => .node l t (.newArray (shedsExprs sc ds))
  | .filledArray es => .node l t (.filledArray (shedsInits sc _ es))
  | .binary o x y => by
    rw [ExprKind.visits, r.removals_append]
    exact .node l t (.binary o (x.sheds sc none) (y.sheds sc _))
  | .unary s o x => .node l t (.unary s o (x.sheds sc none))
  | .instanceOf x s => .node l t (.instanceOf s (x.sheds sc none))
  | .conditional c x y => by
    rw [ExprKind.visits, r.removals_append, r.removals_append]
    exact .node l t (.conditional (c.sheds sc none) (x.sheds sc _) (y.sheds sc _))
  | .index a i => by
    rw [ExprKind.visits, r.removals_append]
    exact .node l t (.index (a.sheds sc none) (i.sheds sc none))
  | .lambda ps (some ss) => .node l t (.lambda ps (.some (shedsStmts sc.inLambda ss)))

theorem shedsArguments (sc : Scope) (d : Ty → Demand) : ∀ (ps : List Ty) (as : List Expr),
    ShedsEach Expr.Sheds (r.removals (visitArguments r.anonymous sc d ps as))
      (reconcileArguments (r.removing false) sc d ps as) (reconcileArguments (r.removing true) sc d ps as)
  | [], [] | _ :: _, [] | [], _ :: _ => .same _
  | _ :: ps, a :: as => by
    rw [visitArguments, r.removals_append, Nat.add_comm]
    exact .cons (a.sheds sc _) (shedsArguments sc d ps as)

theorem shedsExprs (sc : Scope) : ∀ es : List Expr,
    ShedsEach Expr.Sheds (r.removals (visitExprs r.anonymous sc es)) (reconcileExprs (r.removing false) sc es)
      (reconcileExprs (r.removing true) sc es)
  | [] => .same _
  | e :: es => by
    rw [visitExprs, r.removals_append]
    exact .cons (e.sheds sc none) (shedsExprs sc es)

theorem Init.sheds (sc : Scope) (t : Ty) : ∀ i : Init,
    (i.reconcile (r.removing false) sc t).Sheds (r.removals (i.visits r.anonymous sc t))
      (i.reconcile (r.removing true) sc t)
  | .expr e => .expr (e.sheds sc _)
  | .array es => .array (shedsInits sc _ es)

theorem shedsInits (sc : Scope) (t : Ty) : ∀ is : List Init,
    ShedsEach Init.Sheds (r.removals (visitInits r.anonymous sc t is)) (reconcileInits (r.removing false) sc t is)
      (reconcileInits (r.removing true) sc t is)
  | [] => .same _
  | i :: is => by
    rw [visitInits, r.removals_append]
    exact .cons (i.sheds sc t) (shedsInits sc t is)

theorem Declarator.sheds (sc : Scope) (t : Ty) : ∀ d : Declarator,
    (d.reconcile (r.removing false) sc t).Sheds (r.removals (d.visits r.anonymous sc t))
      (d.reconcile (r.removing true) sc t)
  | ⟨name, d, none⟩ => .mk name d (.same none)
  | ⟨name, d, some i⟩ => .mk name d (.some (i.sheds sc _))

theorem shedsDeclarators (sc : Scope) (t : Ty) : ∀ ds : List Declarator,
    ShedsEach Declarator.Sheds (r.removals (visitDeclarators r.anonymous sc t ds))
      (reconcileDeclarators (r.removing false) sc t ds) (reconcileDeclarators (r.removing true) sc t ds)
  | [] => .same _
  | d :: ds => by
    rw [visitDeclarators, r.removals_append]
    exact .cons (d.sheds sc t) (shedsDeclarators sc t ds)

theorem LocalDecl.sheds (sc : Scope) : ∀ l : LocalDecl,
    (l.reconcile (r.removing false) sc).Sheds (r.removals (l.visits r.anonymous sc)) (l.reconcile (r.removing true) sc)
  | ⟨t, f, ds⟩ => .mk t f (shedsDeclarators sc t ds)

theorem shedsLocals (sc : Scope) : ∀ ls : List LocalDecl,
    ShedsEach LocalDecl.Sheds (r.removals (visitLocals r.anonymous sc ls)) (reconcileLocals (r.removing false) sc ls)
      (reconcileLocals (r.removing true) sc ls)
  | [] => .same _
  | l :: ls => by
    rw [visitLocals, r.removals_append]
    exact .cons (l.sheds sc) (shedsLocals sc ls)

theorem Stmt.sheds (sc : Scope) : ∀ s : Stmt,
    (s.reconcile (r.removing false) sc).Sheds (r.removals (s.visits r.anonymous sc)) (s.reconcile (r.removing true) sc)
  | .expr e => .expr (e.sheds sc none)
  | .decl l => .decl (l.sheds sc)
  | .ret none => .same _
  | .jump _ _ => .same _
  | .bytecode _ => .same _
  | .ret (some e) => .ret (.some (e.sheds sc _))
  | .throw e => .throw (e.sheds sc _)
  | .ifThen c ss none => by
    rw [Stmt.visits, r.removals_append]
    exact .ifThen (c.sheds sc none) (shedsStmts sc ss) (.same none)
  | .ifThen c ss (some ts) => by
    rw [Stmt.visits, r.removals_append, r.removals_append]
    exact .ifThen (c.sheds sc none) (shedsStmts sc ss) (.some (shedsStmts sc ts))
  | .whileLoop s c ss => by
    rw [Stmt.visits, r.removals_append]
    exact .whileLoop s (c.sheds sc none) (shedsStmts sc ss)
  | .forLoop is none us ss => by
    rw [Stmt.visits, r.removals_append, r.removals_append]
    exact .forLoop (shedsStmts sc is) (.same none) (shedsExprs sc us) (shedsStmts sc ss)
  | .forLoop is (some c) us ss => by
    rw [Stmt.visits, r.removals_append, r.removals_append, r.removals_append]
    exact .forLoop (shedsStmts sc is) (.some (c.sheds sc none)) (shedsExprs sc us) (shedsStmts sc ss)
  | .forEach t name e ss => by
    rw [Stmt.visits, r.removals_append]
    exact .forEach t name (e.sheds sc none) (shedsStmts sc ss)
  | .switch e bs => by
    rw [Stmt.visits, r.removals_append]
    exact .switch (e.sheds sc none) (shedsBlocks sc bs)
  | .synchronized e ss => by
    rw [Stmt.visits, r.removals_append]
    exact .synchronized (e.sheds sc none) (shedsStmts sc ss)
  | .tryBlock ls ss cs none => by
    rw [Stmt.visits, r.removals_append, r.removals_append]
    exact .tryBlock (shedsLocals sc ls) (shedsStmts sc ss) (shedsCatches sc cs) (.same none)
  | .tryBlock ls ss cs (some fs) => by
    rw [Stmt.visits, r.removals_append, r.removals_append, r.removals_append]
    exact .tryBlock (shedsLocals sc ls) (shedsStmts sc ss) (shedsCatches sc cs) (.some (shedsStmts sc fs))
  | .block label ss => .block label (shedsStmts sc ss)
  | .type t => .type t.sheds
  | .assert c none => .assert (c.sheds sc none) (.same none)
  | .assert c (some m) => by
    rw [Stmt.visits, r.removals_append]
    exact .assert (c.sheds sc none) (.some (m.sheds sc none))

theorem shedsStmts (sc : Scope) : ∀ ss : List Stmt,
    ShedsEach Stmt.Sheds (r.removals (visitStmts r.anonymous sc ss)) (reconcileStmts (r.removing false) sc ss)
      (reconcileStmts (r.removing true) sc ss)
  | [] => .same _
  | s :: ss => by
    rw [visitStmts, r.removals_append]
    exact .cons (s.sheds sc) (shedsStmts sc ss)

theorem shedsLabels (sc : Scope) : ∀ ls : List (Option Expr),
    ShedsEach (ShedsOption Expr.Sheds) (r.removals (visitLabels r.anonymous sc ls))
      (reconcileLabels (r.removing false) sc ls) (reconcileLabels (r.removing true) sc ls)
  | [] => .same _
  | none :: ls => by
    rw [visitLabels, ← Nat.zero_add (r.removals _)]
    exact .cons (.same none) (shedsLabels sc ls)
  | some e :: ls => by
    rw [visitLabels, r.removals_append]
    exact .cons (.some (e.sheds sc none)) (shedsLabels sc ls)

theorem SwitchBlock.sheds (sc : Scope) : ∀ b : SwitchBlock,
    (b.reconcile (r.removing false) sc).Sheds (r.removals (b.visits r.anonymous sc)) (b.reconcile (r.removing true) sc)
  | ⟨ls, ss⟩ => by
    rw [SwitchBlock.visits, r.removals_append]
    exact .mk (shedsLabels sc ls) (shedsStmts sc ss)

theorem shedsBlocks (sc : Scope) : ∀ bs : List SwitchBlock,
    ShedsEach SwitchBlock.Sheds (r.removals (visitBlocks r.anonymous sc bs)) (reconcileBlocks (r.removing false) sc bs)
      (reconcileBlocks (r.removing true) sc bs)
  | [] => .same _
  | b :: bs => by
    rw [visitBlocks, r.removals_append]
    exact .cons (b.sheds sc) (shedsBlocks sc bs)

theorem CatchClause.sheds (sc : Scope) : ∀ c : CatchClause,
    (c.reconcile (r.removing false) sc).Sheds (r.removals (c.visits r.anonymous sc)) (c.reconcile (r.removing true) sc)
  | ⟨ts, name, ss⟩ => .mk ts name (shedsStmts sc ss)

theorem shedsCatches (sc : Scope) : ∀ cs : List CatchClause,
    ShedsEach CatchClause.Sheds (r.removals (visitCatches r.anonymous sc cs))
      (reconcileCatches (r.removing false) sc cs) (reconcileCatches (r.removing true) sc cs)
  | [] => .same _
  | c :: cs => by
    rw [visitCatches, r.removals_append]
    exact .cons (c.sheds sc) (shedsCatches sc cs)

theorem TypeDecl.sheds : ∀ t : TypeDecl,
    (t.reconcile (r.removing false)).Sheds (r.removals (t.visits r.anonymous)) (t.reconcile (r.removing true))
  | ⟨k, f, name, none⟩ => .mk k f name (.same none)
  | ⟨k, f, name, some b⟩ => .mk k f name (.some b.sheds)

theorem Body.sheds : ∀ b : Body,
    (b.reconcile (r.removing false)).Sheds (r.removals (b.visits r.anonymous)) (b.reconcile (r.removing true))
  | ⟨name, b, ms⟩ => .mk name b (shedsMembers b ms)

theorem Member.sheds (b : TypeBounds) : ∀ m : Member,
    (m.reconcile (r.removing false) b).Sheds (r.removals (m.visits r.anonymous b)) (m.reconcile (r.removing true) b)
  | .field f t ds => by
    simp only [Member.reconcile, Member.visits]
    split
    · exact .same _
    · exact .field f t (shedsDeclarators _ t ds)
  | .staticInit _ none => .same _
  | .staticInit b (some ss) => .staticInit b (shedsStmts _ ss)
  | .constructor h none => by
    simp only [Member.reconcile, Member.visits]
    split <;> exact .same _
  | .constructor h (some ss) => by
    simp only [Member.reconcile, Member.visits]
    split
    · exact .same _
    · exact .constructor h (shedsStmts _ ss)
  | .method h none => by
    simp only [Member.reconcile, Member.visits]
    split <;> exact .same _
  | .method h (some ss) => by
    simp only [Member.reconcile, Member.visits]
    split
    · exact .same _
    · exact .method h (shedsStmts _ ss)
  | .type t => .type t.sheds

theorem shedsMembers (b : TypeBounds) : ∀ ms : List Member,
    ShedsEach Member.Sheds (r.removals (visitMembers r.anonymous b ms)) (reconcileMembers (r.removing false) b ms)
      (reconcileMembers (r.removing true) b ms)
  | [] => .same _
  | m :: ms => by
    rw [visitMembers, r.removals_append]
    exact .cons (m.sheds b) (shedsMembers b ms)

end

theorem CompilationUnit.sheds (u : CompilationUnit) :
    (u.reconcile (r.removing false)).Sheds (r.removals (u.visits r.anonymous)) (u.reconcile (r.removing true)) := by
  obtain ⟨ts⟩ := u
  simp only [CompilationUnit.Sheds, CompilationUnit.reconcile, CompilationUnit.visits]
  induction ts with
  | nil => exact .same []
  | cons t ts ih =>
    rw [List.flatMap_cons, r.removals_append]
    exact .cons (t.sheds r) ih

/-! ## Two reports -/

/-- Without the removals a slot has the edits it has with removal off. -/
theorem Rules.filter_edits_removing (b : TypeBounds) (d : Demand) (e : Expr) :
    ((r.removing true).edits b d e).filter (!·.isRemoval) = (r.removing false).edits b d e := by
  have hkept : ((r.removing false).edits b d e).filter (!·.isRemoval) = (r.removing false).edits b d e :=
    List.filter_eq_self.2 fun x hx => by simp [r.isRemoval_of_mem_edits b hx]
  have hparting := r.edits_removing b d e
  generalize (r.removing true).edits b d e = es at hparting ⊢
  generalize (r.removing false).edits b d e = es' at hparting hkept ⊢
  cases hparting with
  | same => exact hkept
  | removed _ l t x hx =>
    rw [List.filter_append, hkept]
    exact List.append_nil _

theorem Rules.filter_editsOf_removing (vs : List Visit) :
    ((r.removing true).editsOf vs).filter (!·.isRemoval) = (r.removing false).editsOf vs := by
  unfold editsOf
  rw [List.filter_flatMap]
  congr 1
  funext v
  cases v with
  | slot sc d e => exact r.filter_edits_removing sc.bounds d e
  | call s => rfl
  | skip w => rfl

namespace CastReport

theorem removed_ofEdits : ∀ es : List Edit, (ofEdits es).removed = es.countP (·.isRemoval)
  | [] => rfl
  | e :: es => by
    rw [ofEdits, add_eq, List.countP_cons, ← removed_ofEdits es, Nat.add_comm (ofEdits es).removed]
    cases e <;> rfl

/-- What a report counts beside removals. -/
theorem ofEdits_filter_isRemoval : ∀ es : List Edit,
    ofEdits (es.filter (!·.isRemoval)) = { ofEdits es with removed := 0 }
  | [] => rfl
  | e :: es => by
    have ih := ofEdits_filter_isRemoval es
    cases e with
    | remove l t =>
      rw [List.filter_cons_of_neg Bool.false_ne_true, ih]
      simp [ofEdits, add_eq, ofEdit]
    | _ =>
      rw [List.filter_cons_of_pos rfl, ofEdits, ih]
      simp [ofEdits, add_eq, ofEdit]

end CastReport

/-- **Removal can be turned off without changing anything else.**  Both runs end with one error, or both succeed: then
the reports agree but for what was removed, and the tree of the first run is that of the second without as many casts
as the first report counts. -/
theorem CastPass.run_removing (p : CastPass) (u : CompilationUnit) :
    (∃ e, ((p.removing true).run u).result = .error e ∧ ((p.removing false).run u).result = .error e) ∨
      ∃ report u₁ u₂, ((p.removing true).run u).result = .ok (report, u₁) ∧
        ((p.removing false).run u).result = .ok ({ report with removed := 0 }, u₂) ∧ u₂.Sheds report.removed u₁ := by
  have hreport : ∀ on, CastReport.ofSteps ((p.removing on).stepsOf (u.visits p.rules.anonymous)) =
      .ofEdits ((p.rules.removing on).editsOf (u.visits p.rules.anonymous)) := fun on => by
    unfold CastReport.ofSteps
    rw [filterMap_edit?_stepsOf]
    rfl
  have hfaults : ∀ on, ((p.removing on).stepsOf (u.visits p.rules.anonymous)).findSome? (·.fault?) =
      (u.visits p.rules.anonymous).findSome? (·.fault?) := fun on => (p.removing on).fault?_stepsOf _
  cases hfault : (u.visits p.rules.anonymous).findSome? (·.fault?) with
  | some e =>
    have hresult : ∀ on, ((p.removing on).run u).result = .error e := fun on =>
      whole_error_iff.2 ((hfaults on).trans hfault)
    exact .inl ⟨e, hresult true, hresult false⟩
  | none =>
    have hresult : ∀ on, ((p.removing on).run u).result =
        .ok (.ofEdits ((p.rules.removing on).editsOf (u.visits p.rules.anonymous)),
          u.reconcile (p.rules.removing on)) := fun on => by
      rw [← hreport]
      exact whole_of_no_fault _ _ ((hfaults on).trans hfault)
    refine .inr ⟨_, _, u.reconcile (p.rules.removing false), hresult true, ?_, ?_⟩
    · rw [← CastReport.ofEdits_filter_isRemoval, p.rules.filter_editsOf_removing]
      exact hresult false
    · rw [CastReport.removed_ofEdits]
      exact u.sheds p.rules

end Recast
