import Recast.Proofs.Walk
/-!
# Bare trees — what is left without casts

`bare` puts the operand in the place of every cast and makes the type of every object creation raw, skipped members
and bodies that are not entered included.  Each edit keeps the bare expression (`Edit.Planned.bare_applyAll`), so
reconciling a tree does: whatever else stands in it is neither lost nor moved (`CompilationUnit.bare_reconcile`).
-/
namespace Recast

mutual

def Expr.bare : Expr → Expr
  | ⟨l, t, k⟩ => k.bare l t

/-- The bare expression of a node with the given line and type. -/
def ExprKind.bare (l : UInt32) (t : Ty) : ExprKind → Expr
  | .leaf lf => ⟨l, t, .leaf lf⟩
  | .field none m => ⟨l, t, .field none m⟩
  | .field (some q) m => ⟨l, t, .field (some q.bare) m⟩
  | .call q m ts as ps => ⟨l, t, .call q.bare m ts (bareExprs as) ps⟩
  | .delegate s o desc as ps => ⟨l, t, .delegate s o desc (bareExprs as) ps⟩
  | .new desc as ps none => ⟨l, t.raw, .new desc (bareExprs as) ps none⟩
  | .new desc as ps (some b) => ⟨l, t.raw, .new desc (bareExprs as) ps (some b.bare)⟩
  | .newArray ds => ⟨l, t, .newArray (bareExprs ds)⟩
  | .filledArray es => ⟨l, t, .filledArray (bareInits es)⟩
  | .binary o x y => ⟨l, t, .binary o x.bare y.bare⟩
  | .unary s o x => ⟨l, t, .unary s o x.bare⟩
  | .instanceOf x u => ⟨l, t, .instanceOf x.bare u⟩
  | .conditional c x y => ⟨l, t, .conditional c.bare x.bare y.bare⟩
  | .index a i => ⟨l, t, .index a.bare i.bare⟩
  | .cast x => x.bare
  | .lambda ps none => ⟨l, t, .lambda ps none⟩
  | .lambda ps (some ss) => ⟨l, t, .lambda ps (some (bareStmts ss))⟩
  | .methodRef q n => ⟨l, t, .methodRef q.bare n⟩

def bareExprs : List Expr → List Expr
  | [] => []
  | e :: es => e.bare :: bareExprs es

def Init.bare : Init → Init
  | .expr e => .expr e.bare
  | .array es => .array (bareInits es)

def bareInits : List Init → List Init
  | [] => []
  | i :: is => i.bare :: bareInits is

def Declarator.bare : Declarator → Declarator
  | ⟨n, d, none⟩ => ⟨n, d, none⟩
  | ⟨n, d, some i⟩ => ⟨n, d, some i.bare⟩

def bareDeclarators : List Declarator → List Declarator
  | [] => []
  | d :: ds => d.bare :: bareDeclarators ds

def LocalDecl.bare : LocalDecl → LocalDecl
  | ⟨t, f, ds⟩ => ⟨t, f, bareDeclarators ds⟩

def bareLocals : List LocalDecl → List LocalDecl
  | [] => []
  | l :: ls => l.bare :: bareLocals ls

def Stmt.bare : Stmt → Stmt
  | .expr e => .expr e.bare
  | .decl l => .decl l.bare
  | .ret none => .ret none
  | .ret (some e) => .ret (some e.bare)
  | .throw e => .throw e.bare
  | .ifThen c ss none => .ifThen c.bare (bareStmts ss) none
  | .ifThen c ss (some ts) => .ifThen c.bare (bareStmts ss) (some (bareStmts ts))
  | .whileLoop s c ss => .whileLoop s c.bare (bareStmts ss)
  | .forLoop is none us ss => .forLoop (bareStmts is) none (bareExprs us) (bareStmts ss)
  | .forLoop is (some c) us ss => .forLoop (bareStmts is) (some c.bare) (bareExprs us) (bareStmts ss)
  | .forEach t n e ss => .forEach t n e.bare (bareStmts ss)
  | .switch e bs => .switch e.bare (bareBlocks bs)
  | .synchronized e ss => .synchronized e.bare (bareStmts ss)
  | .tryBlock ls ss cs none => .tryBlock (bareLocals ls) (bareStmts ss) (bareCatches cs) none
  | .tryBlock ls ss cs (some fs) =>
    .tryBlock (bareLocals ls) (bareStmts ss) (bareCatches cs) (some (bareStmts fs))
  | .block n ss => .block n (bareStmts ss)
  | .type t => .type t.bare
  | .assert c none => .assert c.bare none
  | .assert c (some m) => .assert c.bare (some m.bare)
  | .jump j l => .jump j l
  | .bytecode s => .bytecode s

def bareStmts : List Stmt → List Stmt
  | [] => []
  | s :: ss => s.bare :: bareStmts ss

def bareLabels : List (Option Expr) → List (Option Expr)
  | [] => []
  | none :: ls => none :: bareLabels ls
  | some e :: ls => some e.bare :: bareLabels ls

def SwitchBlock.bare : SwitchBlock → SwitchBlock
  | ⟨ls, ss⟩ => ⟨bareLabels ls, bareStmts ss⟩

def bareBlocks : List SwitchBlock → List SwitchBlock
  | [] => []
  | b :: bs => b.bare :: bareBlocks bs

def CatchClause.bare : CatchClause → CatchClause
  | ⟨ts, n, ss⟩ => ⟨ts, n, bareStmts ss⟩

def bareCatches : List CatchClause → List CatchClause
  | [] => []
  | c :: cs => c.bare :: bareCatches cs

def TypeDecl.bare : TypeDecl → TypeDecl
  | ⟨k, f, n, none⟩ => ⟨k, f, n, none⟩
  | ⟨k, f, n, some b⟩ => ⟨k, f, n, some b.bare⟩

def Body.bare : Body → Body
  | ⟨n, b, ms⟩ => ⟨n, b, bareMembers ms⟩

def Member.bare : Member → Member
  | .field f t ds => .field f t (bareDeclarators ds)
  | .staticInit b none => .staticInit b none
  | .staticInit b (some ss) => .staticInit b (some (bareStmts ss))
  | .constructor h none => .constructor h none
  | .constructor h (some ss) => .constructor h (some (bareStmts ss))
  | .method h none => .method h none
  | .method h (some ss) => .method h (some (bareStmts ss))
  | .type t => .type t.bare

def bareMembers : List Member → List Member
  | [] => []
  | m :: ms => m.bare :: bareMembers ms

end

def CompilationUnit.bare (u : CompilationUnit) : CompilationUnit := ⟨u.types.map (·.bare)⟩

/-- **An edit touches casts and the arguments of an object creation, nothing else.** -/
theorem Edit.Planned.bare_applyAll {e : Expr} {es : List Edit} (h : Planned e es) : (applyAll es e).bare = e.bare := by
  cases h with
  | erase line t hw =>
    obtain ⟨l, s, k⟩ := e
    cases k with
    | new desc as ps b =>
      cases b <;>
        simp only [applyAll, List.foldl_cons, List.foldl_nil, apply, Expr.cast, Expr.bare, ExprKind.bare, Ty.raw_raw]
    | _ => cases hw
  | _ => rfl

variable (r : Rules)

mutual

theorem Expr.bare_reconcile (sc : Scope) : ∀ (d : Option Demand) (e : Expr), (e.reconcile r sc d).bare = e.bare
  | d, ⟨l, t, k⟩ => by
    rw [Expr.reconcile_eq_applyAll, ((r.planned_editsAt sc.bounds ⟨l, t, k⟩ d).walk r sc).bare_applyAll]
    exact k.bare_reconcile sc l t

theorem ExprKind.bare_reconcile (sc : Scope) (l : UInt32) (t : Ty) : ∀ k : ExprKind,
    (k.reconcile r sc t).bare l t = k.bare l t
  | .leaf _ | .field none _ | .lambda _ none | .methodRef _ _ => rfl
  | .field (some q) m => by simp only [ExprKind.reconcile, ExprKind.bare, q.bare_reconcile]
  | .call q m ts as ps => by simp only [ExprKind.reconcile, ExprKind.bare, q.bare_reconcile, bare_reconcileArguments]
  | .delegate s o desc as ps => by simp only [ExprKind.reconcile, ExprKind.bare, bare_reconcileArguments]
  | .new desc as ps none => by simp only [ExprKind.reconcile, ExprKind.bare, bare_reconcileArguments]
  | .new desc as ps (some b) => by
    simp only [ExprKind.reconcile, ExprKind.bare, bare_reconcileArguments]
    split
    · rw [b.bare_reconcile]
    · rfl
  | .newArray ds => by simp only [ExprKind.reconcile, ExprKind.bare, bare_reconcileExprs]
  | .filledArray es => by simp only [ExprKind.reconcile, ExprKind.bare, bare_reconcileInits]
  | .binary o x y => by simp only [ExprKind.reconcile, ExprKind.bare, x.bare_reconcile, y.bare_reconcile]
  | .unary _ _ x => by simp only [ExprKind.reconcile, ExprKind.bare, x.bare_reconcile]
  | .instanceOf x _ => by simp only [ExprKind.reconcile, ExprKind.bare, x.bare_reconcile]
  | .conditional c x y => by
    simp only [ExprKind.reconcile, ExprKind.bare, c.bare_reconcile, x.bare_reconcile, y.bare_reconcile]
  | .index a i => by simp only [ExprKind.reconcile, ExprKind.bare, a.bare_reconcile, i.bare_reconcile]
  | .cast x => x.bare_reconcile sc none
  | .lambda _ (some ss) => by simp only [ExprKind.reconcile, ExprKind.bare, bare_reconcileStmts]

theorem bare_reconcileArguments (sc : Scope) (d : Ty → Demand) : ∀ (ps : List Ty) (as : List Expr),
    bareExprs (reconcileArguments r sc d ps as) = bareExprs as
  | [], [] | _ :: _, [] | [], _ :: _ => rfl
  | p :: ps, a :: as => by
    simp only [reconcileArguments, bareExprs, a.bare_reconcile, bare_reconcileArguments sc d ps as]

theorem bare_reconcileExprs (sc : Scope) : ∀ es : List Expr, bareExprs (reconcileExprs r sc es) = bareExprs es
  | [] => rfl
  | e :: es => by simp only [reconcileExprs, bareExprs, e.bare_reconcile, bare_reconcileExprs sc es]

theorem Init.bare_reconcile (sc : Scope) (t : Ty) : ∀ i : Init, (i.reconcile r sc t).bare = i.bare
  | .expr e => by simp only [Init.reconcile, Init.bare, e.bare_reconcile]
  | .array es => by simp only [Init.reconcile, Init.bare, bare_reconcileInits]

theorem bare_reconcileInits (sc : Scope) (t : Ty) : ∀ is : List Init,
    bareInits (reconcileInits r sc t is) = bareInits is
  | [] => rfl
  | i :: is => by simp only [reconcileInits, bareInits, i.bare_reconcile, bare_reconcileInits sc t is]

theorem Declarator.bare_reconcile (sc : Scope) (t : Ty) : ∀ d : Declarator, (d.reconcile r sc t).bare = d.bare
  | ⟨_, _, none⟩ => rfl
  | ⟨_, _, some i⟩ => by simp only [Declarator.reconcile, Declarator.bare, i.bare_reconcile]

theorem bare_reconcileDeclarators (sc : Scope) (t : Ty) : ∀ ds : List Declarator,
    bareDeclarators (reconcileDeclarators r sc t ds) = bareDeclarators ds
  | [] => rfl
  | d :: ds => by
    simp only [reconcileDeclarators, bareDeclarators, d.bare_reconcile, bare_reconcileDeclarators sc t ds]

theorem LocalDecl.bare_reconcile (sc : Scope) : ∀ l : LocalDecl, (l.reconcile r sc).bare = l.bare
  | ⟨t, _, ds⟩ => by simp only [LocalDecl.reconcile, LocalDecl.bare, bare_reconcileDeclarators sc t ds]

theorem bare_reconcileLocals (sc : Scope) : ∀ ls : List LocalDecl, bareLocals (reconcileLocals r sc ls) = bareLocals ls
  | [] => rfl
  | l :: ls => by simp only [reconcileLocals, bareLocals, l.bare_reconcile, bare_reconcileLocals sc ls]

theorem Stmt.bare_reconcile (sc : Scope) : ∀ s : Stmt, (s.reconcile r sc).bare = s.bare
  | .expr e => by simp only [Stmt.reconcile, Stmt.bare, e.bare_reconcile]
  | .decl l => by simp only [Stmt.reconcile, Stmt.bare, l.bare_reconcile]
  | .ret none | .jump _ _ | .bytecode _ => rfl
  | .ret (some e) => by simp only [Stmt.reconcile, Stmt.bare, e.bare_reconcile]
  | .throw e => by simp only [Stmt.reconcile, Stmt.bare, e.bare_reconcile]
  | .ifThen c ss none => by simp only [Stmt.reconcile, Stmt.bare, c.bare_reconcile, bare_reconcileStmts sc ss]
  | .ifThen c ss (some ts) => by
    simp only [Stmt.reconcile, Stmt.bare, c.bare_reconcile, bare_reconcileStmts sc ss, bare_reconcileStmts sc ts]
  | .whileLoop _ c ss => by simp only [Stmt.reconcile, Stmt.bare, c.bare_reconcile, bare_reconcileStmts sc ss]
  | .forLoop is none us ss => by
    simp only [Stmt.reconcile, Stmt.bare, bare_reconcileStmts sc is, bare_reconcileExprs sc us,
      bare_reconcileStmts sc ss]
  | .forLoop is (some c) us ss => by
    simp only [Stmt.reconcile, Stmt.bare, bare_reconcileStmts sc is, c.bare_reconcile, bare_reconcileExprs sc us,
      bare_reconcileStmts sc ss]
  | .forEach _ _ e ss => by simp only [Stmt.reconcile, Stmt.bare, e.bare_reconcile, bare_reconcileStmts sc ss]
  | .switch e bs => by simp only [Stmt.reconcile, Stmt.bare, e.bare_reconcile, bare_reconcileBlocks sc bs]
  | .synchronized e ss => by simp only [Stmt.reconcile, Stmt.bare, e.bare_reconcile, bare_reconcileStmts sc ss]
  | .tryBlock ls ss cs none => by
    simp only [Stmt.reconcile, Stmt.bare, bare_reconcileLocals sc ls, bare_reconcileStmts sc ss,
      bare_reconcileCatches sc cs]
  | .tryBlock ls ss cs (some fs) => by
    simp only [Stmt.reconcile, Stmt.bare, bare_reconcileLocals sc ls, bare_reconcileStmts sc ss,
      bare_reconcileCatches sc cs, bare_reconcileStmts sc fs]
  | .block _ ss => by simp only [Stmt.reconcile, Stmt.bare, bare_reconcileStmts sc ss]
  | .type t => by simp only [Stmt.reconcile, Stmt.bare, t.bare_reconcile]
  | .assert c none => by simp only [Stmt.reconcile, Stmt.bare, c.bare_reconcile]
  | .assert c (some m) => by simp only [Stmt.reconcile, Stmt.bare, c.bare_reconcile, m.bare_reconcile]

theorem bare_reconcileStmts (sc : Scope) : ∀ ss : List Stmt, bareStmts (reconcileStmts r sc ss) = bareStmts ss
  | [] => rfl
  | s :: ss => by simp only [reconcileStmts, bareStmts, s.bare_reconcile, bare_reconcileStmts sc ss]

theorem bare_reconcileLabels (sc : Scope) : ∀ ls : List (Option Expr),
    bareLabels (reconcileLabels r sc ls) = bareLabels ls
  | [] => rfl
  | none :: ls => by simp only [reconcileLabels, bareLabels, bare_reconcileLabels sc ls]
  | some e :: ls => by simp only [reconcileLabels, bareLabels, e.bare_reconcile, bare_reconcileLabels sc ls]

theorem SwitchBlock.bare_reconcile (sc : Scope) : ∀ b : SwitchBlock, (b.reconcile r sc).bare = b.bare
  | ⟨ls, ss⟩ => by
    simp only [SwitchBlock.reconcile, SwitchBlock.bare, bare_reconcileLabels sc ls, bare_reconcileStmts sc ss]

theorem bare_reconcileBlocks (sc : Scope) : ∀ bs : List SwitchBlock,
    bareBlocks (reconcileBlocks r sc bs) = bareBlocks bs
  | [] => rfl
  | b :: bs => by simp only [reconcileBlocks, bareBlocks, b.bare_reconcile, bare_reconcileBlocks sc bs]

theorem CatchClause.bare_reconcile (sc : Scope) : ∀ c : CatchClause, (c.reconcile r sc).bare = c.bare
  | ⟨_, _, ss⟩ => by simp only [CatchClause.reconcile, CatchClause.bare, bare_reconcileStmts sc ss]

theorem bare_reconcileCatches (sc : Scope) : ∀ cs : List CatchClause,
    bareCatches (reconcileCatches r sc cs) = bareCatches cs
  | [] => rfl
  | c :: cs => by simp only [reconcileCatches, bareCatches, c.bare_reconcile, bare_reconcileCatches sc cs]

theorem TypeDecl.bare_reconcile : ∀ t : TypeDecl, (t.reconcile r).bare = t.bare
  | ⟨_, _, _, none⟩ => rfl
  | ⟨_, _, _, some b⟩ => by simp only [TypeDecl.reconcile, TypeDecl.bare, b.bare_reconcile]

theorem Body.bare_reconcile : ∀ b : Body, (b.reconcile r).bare = b.bare
  | ⟨_, b, ms⟩ => by simp only [Body.reconcile, Body.bare, bare_reconcileMembers b ms]

theorem Member.bare_reconcile (b : TypeBounds) : ∀ m : Member, (m.reconcile r b).bare = m.bare
  | .field f t ds => by
    simp only [Member.reconcile, Member.bare]
    split
    · rfl
    · rw [bare_reconcileDeclarators]
  | .staticInit _ none | .constructor _ none | .method _ none => rfl
  | .staticInit _ (some ss) => by simp only [Member.reconcile, Member.bare, bare_reconcileStmts]
  | .constructor h (some ss) => by
    simp only [Member.reconcile, Member.bare]
    split
    · rfl
    · rw [bare_reconcileStmts]
  | .method h (some ss) => by
    simp only [Member.reconcile, Member.bare]
    split
    · rfl
    · rw [bare_reconcileStmts]
  | .type t => by simp only [Member.reconcile, Member.bare, t.bare_reconcile]

theorem bare_reconcileMembers (b : TypeBounds) : ∀ ms : List Member,
    bareMembers (reconcileMembers r b ms) = bareMembers ms
  | [] => rfl
  | m :: ms => by simp only [reconcileMembers, bareMembers, m.bare_reconcile, bare_reconcileMembers b ms]

end

/-- **A reconciled unit is the unit but for casts** and the arguments of object creations. -/
theorem CompilationUnit.bare_reconcile (u : CompilationUnit) : (u.reconcile r).bare = u.bare := by
  unfold CompilationUnit.bare CompilationUnit.reconcile
  rw [List.map_map]
  congr 1
  exact List.map_congr_left fun t _ => t.bare_reconcile r

end Recast
