import Recast.Cast.Scope
/-!
# Visits — the places a run comes by, in its order

The visits of a tree are its slots with what they hold, the call sites whose argument counts are
checked, and the members that are skipped.  They depend on no type facts.  A call is checked before
its arguments are visited, the arguments go last to first, and then the qualifier; everything else
goes in the order in which it is written, a slot before what is inside it.
-/
namespace Recast

/-- A call as the check sees it: what is called, and how many arguments and parameters it has. -/
structure CallSite where
  owner : String
  member : String
  arguments : Nat
  parameters : Nat
deriving DecidableEq

/-- Members made by the compiler, which are passed over. -/
inductive Skipped
  | field
  | constructor (descriptor : String)
  | method (name descriptor : String)
deriving DecidableEq

inductive Visit
  | slot (scope : Scope) (demand : Demand) (value : Expr)
  | call (site : CallSite)
  | skip (what : Skipped)

namespace Visit

/-- The slot at a position, if it is one. -/
def at? (sc : Scope) (d : Option Demand) (e : Expr) : List Visit :=
  match d with
  | some d => [.slot sc d e]
  | none => []

end Visit

mutual

def Expr.visits (anonymous : Bool) (sc : Scope) (d : Option Demand) : Expr → List Visit
  | ⟨l, t, k⟩ => Visit.at? sc d ⟨l, t, k⟩ ++ k.visits anonymous sc t

def ExprKind.visits (anonymous : Bool) (sc : Scope) (ty : Ty) : ExprKind → List Visit
  | .leaf _ => []
  | .field none _ => []
  | .field (some q) m => q.visits anonymous sc (Demand.ofQualifier m q)
  | .call q m _ as ps =>
    .call ⟨m.owner, m.name, as.length, ps.length⟩ ::
      (visitArguments anonymous sc (.argument · m.owner m.name as.length) ps as ++
        q.visits anonymous sc none)
  | .delegate _ o _ as ps =>
    .call ⟨o.name, MethodDecl.constructorName, as.length, ps.length⟩ ::
      visitArguments anonymous sc (.argument · o.name MethodDecl.constructorName as.length) ps as
  | .new _ as ps none =>
    .call ⟨ty.createdName, MethodDecl.constructorName, as.length, ps.length⟩ ::
      visitArguments anonymous sc (.fit · false) ps as
  | .new _ as ps (some b) =>
    .call ⟨ty.createdName, MethodDecl.constructorName, as.length, ps.length⟩ ::
      (visitArguments anonymous sc (.fit · false) ps as ++ if anonymous then b.visits anonymous else [])
  | .newArray ds => visitExprs anonymous sc ds
  | .filledArray es => visitInits anonymous sc ty.element es
  | .binary o x y => x.visits anonymous sc none ++ y.visits anonymous sc (Demand.ofOperand o x y)
  | .unary _ _ x => x.visits anonymous sc none
  | .instanceOf x _ => x.visits anonymous sc none
  | .conditional c x y =>
    c.visits anonymous sc none ++ x.visits anonymous sc (some (.fit ty false)) ++
      y.visits anonymous sc (some (.fit ty false))
  | .index a i => a.visits anonymous sc none ++ i.visits anonymous sc none
  | .cast x => x.visits anonymous sc none
  | .lambda _ none => []
  | .lambda _ (some ss) => visitStmts anonymous sc.inLambda ss
  | .methodRef _ _ => []

/-- Last to first. -/
def visitArguments (anonymous : Bool) (sc : Scope) (d : Ty → Demand) : List Ty → List Expr → List Visit
  | _, [] => []
  | [], _ => []
  | t :: ts, a :: as => visitArguments anonymous sc d ts as ++ a.visits anonymous sc (some (d t))

def visitExprs (anonymous : Bool) (sc : Scope) : List Expr → List Visit
  | [] => []
  | e :: es => e.visits anonymous sc none ++ visitExprs anonymous sc es

def Init.visits (anonymous : Bool) (sc : Scope) (required : Ty) : Init → List Visit
  | .expr e => e.visits anonymous sc (Demand.ofInit required e)
  | .array es => visitInits anonymous sc required.element es

def visitInits (anonymous : Bool) (sc : Scope) (required : Ty) : List Init → List Visit
  | [] => []
  | i :: is => i.visits anonymous sc required ++ visitInits anonymous sc required is

def Declarator.visits (anonymous : Bool) (sc : Scope) (declared : Ty) : Declarator → List Visit
  | ⟨_, _, none⟩ => []
  | ⟨_, d, some i⟩ => i.visits anonymous sc (declared.widen d)

def visitDeclarators (anonymous : Bool) (sc : Scope) (declared : Ty) : List Declarator → List Visit
  | [] => []
  | d :: ds => d.visits anonymous sc declared ++ visitDeclarators anonymous sc declared ds

def LocalDecl.visits (anonymous : Bool) (sc : Scope) : LocalDecl → List Visit
  | ⟨t, _, ds⟩ => visitDeclarators anonymous sc t ds

def visitLocals (anonymous : Bool) (sc : Scope) : List LocalDecl → List Visit
  | [] => []
  | l :: ls => l.visits anonymous sc ++ visitLocals anonymous sc ls

def Stmt.visits (anonymous : Bool) (sc : Scope) : Stmt → List Visit
  | .expr e => e.visits anonymous sc none
  | .decl l => l.visits anonymous sc
  | .ret none => []
  | .ret (some e) => e.visits anonymous sc sc.returnDemand
  | .throw e => e.visits anonymous sc sc.throwDemand
  | .ifThen c ss none => c.visits anonymous sc none ++ visitStmts anonymous sc ss
  | .ifThen c ss (some ts) =>
    c.visits anonymous sc none ++ visitStmts anonymous sc ss ++ visitStmts anonymous sc ts
  | .whileLoop _ c ss => c.visits anonymous sc none ++ visitStmts anonymous sc ss
  | .forLoop is none us ss =>
    visitStmts anonymous sc is ++ visitExprs anonymous sc us ++ visitStmts anonymous sc ss
  | .forLoop is (some c) us ss =>
    visitStmts anonymous sc is ++ c.visits anonymous sc none ++ visitExprs anonymous sc us ++
      visitStmts anonymous sc ss
  | .forEach _ _ e ss => e.visits anonymous sc none ++ visitStmts anonymous sc ss
  | .switch e bs => e.visits anonymous sc none ++ visitBlocks anonymous sc bs
  | .synchronized e ss => e.visits anonymous sc none ++ visitStmts anonymous sc ss
  | .tryBlock ls ss cs none =>
    visitLocals anonymous sc ls ++ visitStmts anonymous sc ss ++ visitCatches anonymous sc cs
  | .tryBlock ls ss cs (some fs) =>
    visitLocals anonymous sc ls ++ visitStmts anonymous sc ss ++ visitCatches anonymous sc cs ++
      visitStmts anonymous sc fs
  | .block _ ss => visitStmts anonymous sc ss
  | .type t => t.visits anonymous
  | .assert c none => c.visits anonymous sc none
  | .assert c (some m) => c.visits anonymous sc none ++ m.visits anonymous sc none
  | .jump _ _ => []
  | .bytecode _ => []

def visitStmts (anonymous : Bool) (sc : Scope) : List Stmt → List Visit
  | [] => []
  | s :: ss => s.visits anonymous sc ++ visitStmts anonymous sc ss

def visitLabels (anonymous : Bool) (sc : Scope) : List (Option Expr) → List Visit
  | [] => []
  | none :: ls => visitLabels anonymous sc ls
  | some e :: ls => e.visits anonymous sc none ++ visitLabels anonymous sc ls

def SwitchBlock.visits (anonymous : Bool) (sc : Scope) : SwitchBlock → List Visit
  | ⟨ls, ss⟩ => visitLabels anonymous sc ls ++ visitStmts anonymous sc ss

def visitBlocks (anonymous : Bool) (sc : Scope) : List SwitchBlock → List Visit
  | [] => []
  | b :: bs => b.visits anonymous sc ++ visitBlocks anonymous sc bs

def CatchClause.visits (anonymous : Bool) (sc : Scope) : CatchClause → List Visit
  | ⟨_, _, ss⟩ => visitStmts anonymous sc ss

def visitCatches (anonymous : Bool) (sc : Scope) : List CatchClause → List Visit
  | [] => []
  | c :: cs => c.visits anonymous sc ++ visitCatches anonymous sc cs

def TypeDecl.visits (anonymous : Bool) : TypeDecl → List Visit
  | ⟨_, _, _, none⟩ => []
  | ⟨_, _, _, some b⟩ => b.visits anonymous

def Body.visits (anonymous : Bool) : Body → List Visit
  | ⟨_, b, ms⟩ => visitMembers anonymous b ms

def Member.visits (anonymous : Bool) (bounds : TypeBounds) : Member → List Visit
  | .field f t ds =>
    if isSyntheticField f then [.skip .field] else visitDeclarators anonymous (.ofBounds bounds) t ds
  | .staticInit _ none => []
  | .staticInit b (some ss) => visitStmts anonymous (.ofBounds b) ss
  | .constructor h none => if h.isGenerated then [.skip (.constructor h.descriptor)] else []
  | .constructor h (some ss) =>
    if h.isGenerated then [.skip (.constructor h.descriptor)]
    else visitStmts anonymous (.ofConstructor h) ss
  | .method h none => if h.isGenerated then [.skip (.method h.name h.descriptor)] else []
  | .method h (some ss) =>
    if h.isGenerated then [.skip (.method h.name h.descriptor)]
    else visitStmts anonymous (.ofMethod h) ss
  | .type t => t.visits anonymous

def visitMembers (anonymous : Bool) (bounds : TypeBounds) : List Member → List Visit
  | [] => []
  | m :: ms => m.visits anonymous bounds ++ visitMembers anonymous bounds ms

end

def CompilationUnit.visits (anonymous : Bool) (u : CompilationUnit) : List Visit :=
  u.types.flatMap (·.visits anonymous)

end Recast
