import Recast.Cast.Scope
/-!
# Reconciled trees — every slot met, nothing else touched

`Expr.reconcile` reconciles the parts of an expression and then applies the edits planned for its
position on the expression as it was.  The other functions lead there: each statement, declaration
and body is rebuilt from its reconciled parts, with the demand of each position.  Fields, methods and
constructors that the compiler made up stay as they are, and so do the qualifier of a method
reference and, unless asked for, the bodies of anonymous classes.
-/
namespace Recast

mutual

def Expr.reconcile (r : Rules) (sc : Scope) (d : Option Demand) : Expr → Expr
  | ⟨l, t, k⟩ => Edit.applyAll (r.editsAt sc.bounds d ⟨l, t, k⟩) ⟨l, t, k.reconcile r sc t⟩

def ExprKind.reconcile (r : Rules) (sc : Scope) (ty : Ty) : ExprKind → ExprKind
  | .leaf l => .leaf l
  | .field none m => .field none m
  | .field (some q) m => .field (some (q.reconcile r sc (Demand.ofQualifier m q))) m
  | .call q m ts as ps =>
    .call (q.reconcile r sc none) m ts
      (reconcileArguments r sc (.argument · m.owner m.name as.length) ps as) ps
  | .delegate s o desc as ps =>
    .delegate s o desc
      (reconcileArguments r sc (.argument · o.name MethodDecl.constructorName as.length) ps as) ps
  | .new desc as ps none => .new desc (reconcileArguments r sc (.fit · false) ps as) ps none
  | .new desc as ps (some b) =>
    .new desc (reconcileArguments r sc (.fit · false) ps as) ps
      (some (if r.settings.anonymousClassBodies then b.reconcile r else b))
  | .newArray ds => .newArray (reconcileExprs r sc ds)
  | .filledArray es => .filledArray (reconcileInits r sc ty.element es)
  | .binary o x y => .binary o (x.reconcile r sc none) (y.reconcile r sc (Demand.ofOperand o x y))
  | .unary s o x => .unary s o (x.reconcile r sc none)
  | .instanceOf x t => .instanceOf (x.reconcile r sc none) t
  | .conditional c x y =>
    .conditional (c.reconcile r sc none) (x.reconcile r sc (some (.fit ty false)))
      (y.reconcile r sc (some (.fit ty false)))
  | .index a i => .index (a.reconcile r sc none) (i.reconcile r sc none)
  | .cast x => .cast (x.reconcile r sc none)
  | .lambda ps none => .lambda ps none
  | .lambda ps (some ss) => .lambda ps (some (reconcileStmts r sc.inLambda ss))
  | .methodRef q n => .methodRef q n

/-- Each argument against the parameter at its position. -/
def reconcileArguments (r : Rules) (sc : Scope) (d : Ty → Demand) : List Ty → List Expr → List Expr
  | _, [] => []
  | [], as => as
  | t :: ts, a :: as => a.reconcile r sc (some (d t)) :: reconcileArguments r sc d ts as

def reconcileExprs (r : Rules) (sc : Scope) : List Expr → List Expr
  | [] => []
  | e :: es => e.reconcile r sc none :: reconcileExprs r sc es

def Init.reconcile (r : Rules) (sc : Scope) (required : Ty) : Init → Init
  | .expr e => .expr (e.reconcile r sc (Demand.ofInit required e))
  | .array es => .array (reconcileInits r sc required.element es)

def reconcileInits (r : Rules) (sc : Scope) (required : Ty) : List Init → List Init
  | [] => []
  | i :: is => i.reconcile r sc required :: reconcileInits r sc required is

def Declarator.reconcile (r : Rules) (sc : Scope) (declared : Ty) : Declarator → Declarator
  | ⟨n, d, none⟩ => ⟨n, d, none⟩
  | ⟨n, d, some i⟩ => ⟨n, d, some (i.reconcile r sc (declared.widen d))⟩

def reconcileDeclarators (r : Rules) (sc : Scope) (declared : Ty) : List Declarator → List Declarator
  | [] => []
  | d :: ds => d.reconcile r sc declared :: reconcileDeclarators r sc declared ds

def LocalDecl.reconcile (r : Rules) (sc : Scope) : LocalDecl → LocalDecl
  | ⟨t, f, ds⟩ => ⟨t, f, reconcileDeclarators r sc t ds⟩

def reconcileLocals (r : Rules) (sc : Scope) : List LocalDecl → List LocalDecl
  | [] => []
  | l :: ls => l.reconcile r sc :: reconcileLocals r sc ls

def Stmt.reconcile (r : Rules) (sc : Scope) : Stmt → Stmt
  | .expr e => .expr (e.reconcile r sc none)
  | .decl l => .decl (l.reconcile r sc)
  | .ret none => .ret none
  | .ret (some e) => .ret (some (e.reconcile r sc sc.returnDemand))
  | .throw e => .throw (e.reconcile r sc sc.throwDemand)
  | .ifThen c ss none => .ifThen (c.reconcile r sc none) (reconcileStmts r sc ss) none
  | .ifThen c ss (some ts) =>
    .ifThen (c.reconcile r sc none) (reconcileStmts r sc ss) (some (reconcileStmts r sc ts))
  | .whileLoop s c ss => .whileLoop s (c.reconcile r sc none) (reconcileStmts r sc ss)
  | .forLoop is none us ss =>
    .forLoop (reconcileStmts r sc is) none (reconcileExprs r sc us) (reconcileStmts r sc ss)
  | .forLoop is (some c) us ss =>
    .forLoop (reconcileStmts r sc is) (some (c.reconcile r sc none)) (reconcileExprs r sc us)
      (reconcileStmts r sc ss)
  | .forEach t n e ss => .forEach t n (e.reconcile r sc none) (reconcileStmts r sc ss)
  | .switch e bs => .switch (e.reconcile r sc none) (reconcileBlocks r sc bs)
  | .synchronized e ss => .synchronized (e.reconcile r sc none) (reconcileStmts r sc ss)
  | .tryBlock ls ss cs none =>
    .tryBlock (reconcileLocals r sc ls) (reconcileStmts r sc ss) (reconcileCatches r sc cs) none
  | .tryBlock ls ss cs (some fs) =>
    .tryBlock (reconcileLocals r sc ls) (reconcileStmts r sc ss) (reconcileCatches r sc cs)
      (some (reconcileStmts r sc fs))
  | .block n ss => .block n (reconcileStmts r sc ss)
  | .type t => .type (t.reconcile r)
  | .assert c none => .assert (c.reconcile r sc none) none
  | .assert c (some m) => .assert (c.reconcile r sc none) (some (m.reconcile r sc none))
  | .jump j l => .jump j l
  | .bytecode t => .bytecode t

def reconcileStmts (r : Rules) (sc : Scope) : List Stmt → List Stmt
  | [] => []
  | s :: ss => s.reconcile r sc :: reconcileStmts r sc ss

def reconcileLabels (r : Rules) (sc : Scope) : List (Option Expr) → List (Option Expr)
  | [] => []
  | none :: ls => none :: reconcileLabels r sc ls
  | some e :: ls => some (e.reconcile r sc none) :: reconcileLabels r sc ls

def SwitchBlock.reconcile (r : Rules) (sc : Scope) : SwitchBlock → SwitchBlock
  | ⟨ls, ss⟩ => ⟨reconcileLabels r sc ls, reconcileStmts r sc ss⟩

def reconcileBlocks (r : Rules) (sc : Scope) : List SwitchBlock → List SwitchBlock
  | [] => []
  | b :: bs => b.reconcile r sc :: reconcileBlocks r sc bs

def CatchClause.reconcile (r : Rules) (sc : Scope) : CatchClause → CatchClause
  | ⟨ts, n, ss⟩ => ⟨ts, n, reconcileStmts r sc ss⟩

def reconcileCatches (r : Rules) (sc : Scope) : List CatchClause → List CatchClause
  | [] => []
  | c :: cs => c.reconcile r sc :: reconcileCatches r sc cs

def TypeDecl.reconcile (r : Rules) : TypeDecl → TypeDecl
  | ⟨k, f, n, none⟩ => ⟨k, f, n, none⟩
  | ⟨k, f, n, some b⟩ => ⟨k, f, n, some (b.reconcile r)⟩

def Body.reconcile (r : Rules) : Body → Body
  | ⟨n, b, ms⟩ => ⟨n, b, reconcileMembers r b ms⟩

def Member.reconcile (r : Rules) (bounds : TypeBounds) : Member → Member
  | .field f t ds =>
    .field f t (if isSyntheticField f then ds else reconcileDeclarators r (.ofBounds bounds) t ds)
  | .staticInit b none => .staticInit b none
  | .staticInit b (some ss) => .staticInit b (some (reconcileStmts r (.ofBounds b) ss))
  | .constructor h none => .constructor h none
  | .constructor h (some ss) =>
    .constructor h (some (if h.isGenerated then ss else reconcileStmts r (.ofConstructor h) ss))
  | .method h none => .method h none
  | .method h (some ss) =>
    .method h (some (if h.isGenerated then ss else reconcileStmts r (.ofMethod h) ss))
  | .type t => .type (t.reconcile r)

def reconcileMembers (r : Rules) (bounds : TypeBounds) : List Member → List Member
  | [] => []
  | m :: ms => m.reconcile r bounds :: reconcileMembers r bounds ms

end

def CompilationUnit.reconcile (r : Rules) (u : CompilationUnit) : CompilationUnit :=
  ⟨u.types.map (·.reconcile r)⟩

end Recast
