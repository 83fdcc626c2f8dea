import Recast.Cast.Log
/-!
# Nodes — what a run comes by

The nodes of a tree are its expressions, casts apart, and its class bodies, each before what is inside it.  A cast is no
node: it comes and goes with a run, its operand stays.  The order is that of a walk: the arguments of a call from the
last to the first, then its qualifier, everything else as it is written.

Four things are left out, and nothing else: the fields that the compiler made up, the methods and constructors that it
made up, the qualifier of a method reference, and, unless `anonymous` asks for them, the bodies of anonymous classes.
-/
namespace Recast

/-- An expression that is no cast, or a class body, with everything in it. -/
inductive Node
  | expr (e : Expr)
  | body (b : Body)

/-- The expression itself, unless it is a cast. -/
def Node.ofExpr (e : Expr) : List Node := if e.isCast then [] else [.expr e]

mutual

def Expr.nodes (anonymous : Bool) : Expr → List Node
  | ⟨l, t, k⟩ => Node.ofExpr ⟨l, t, k⟩ ++ k.nodes anonymous

/-- The nodes below an expression. -/
def ExprKind.nodes (anonymous : Bool) : ExprKind → List Node
  | .leaf _ => []
  | .field none _ => []
  | .field (some q) _ => q.nodes anonymous
  | .call q _ _ as _ => argumentNodes anonymous as ++ q.nodes anonymous
  | .delegate _ _ _ as _ => argumentNodes anonymous as
  | .new _ as _ none => argumentNodes anonymous as
  | .new _ as _ (some b) => argumentNodes anonymous as ++ if anonymous then b.nodes anonymous else []
  | .newArray ds => exprNodes anonymous ds
  | .filledArray es => initNodes anonymous es
  | .binary _ x y => x.nodes anonymous ++ y.nodes anonymous
  | .unary _ _ x => x.nodes anonymous
  | .instanceOf x _ => x.nodes anonymous
  | .conditional c x y => c.nodes anonymous ++ x.nodes anonymous ++ y.nodes anonymous
  | .index a i => a.nodes anonymous ++ i.nodes anonymous
  | .cast x => x.nodes anonymous
  | .lambda _ none => []
  | .lambda _ (some ss) => stmtNodes anonymous ss
  | .methodRef _ _ => []

/-- Last to first. -/
def argumentNodes (anonymous : Bool) : List Expr → List Node
  | [] => []
  | e :: es => argumentNodes anonymous es ++ e.nodes anonymous

def exprNodes (anonymous : Bool) : List Expr → List Node
  | [] => []
  | e :: es => e.nodes anonymous ++ exprNodes anonymous es

def Init.nodes (anonymous : Bool) : Init → List Node
  | .expr e => e.nodes anonymous
  | .array es => initNodes anonymous es

def initNodes (anonymous : Bool) : List Init → List Node
  | [] => []
  | i :: is => i.nodes anonymous ++ initNodes anonymous is

def Declarator.nodes (anonymous : Bool) : Declarator → List Node
  | ⟨_, _, none⟩ => []
  | ⟨_, _, some i⟩ => i.nodes anonymous

def declaratorNodes (anonymous : Bool) : List Declarator → List Node
  | [] => []
  | d :: ds => d.nodes anonymous ++ declaratorNodes anonymous ds

def LocalDecl.nodes (anonymous : Bool) : LocalDecl → List Node
  | ⟨_, _, ds⟩ => declaratorNodes anonymous ds

def localNodes (anonymous : Bool) : List LocalDecl → List Node
  | [] => []
  | l :: ls => l.nodes anonymous ++ localNodes anonymous ls

def Stmt.nodes (anonymous : Bool) : Stmt → List Node
  | .expr e => e.nodes anonymous
  | .decl l => l.nodes anonymous
  | .ret none => []
  | .ret (some e) => e.nodes anonymous
  | .throw e => e.nodes anonymous
  | .ifThen c ss none => c.nodes anonymous ++ stmtNodes anonymous ss
  | .ifThen c ss (some ts) => c.nodes anonymous ++ stmtNodes anonymous ss ++ stmtNodes anonymous ts
  | .whileLoop _ c ss => c.nodes anonymous ++ stmtNodes anonymous ss
  | .forLoop is none us ss => stmtNodes anonymous is ++ exprNodes anonymous us ++ stmtNodes anonymous ss
  | .forLoop is (some c) us ss =>
    stmtNodes anonymous is ++ c.nodes anonymous ++ exprNodes anonymous us ++ stmtNodes anonymous ss
  | .forEach _ _ e ss => e.nodes anonymous ++ stmtNodes anonymous ss
  | .switch e bs => e.nodes anonymous ++ blockNodes anonymous bs
  | .synchronized e ss => e.nodes anonymous ++ stmtNodes anonymous ss
  | .tryBlock ls ss cs none => localNodes anonymous ls ++ stmtNodes anonymous ss ++ catchNodes anonymous cs
  | .tryBlock ls ss cs (some fs) =>
    localNodes anonymous ls ++ stmtNodes anonymous ss ++ catchNodes anonymous cs ++ stmtNodes anonymous fs
  | .block _ ss => stmtNodes anonymous ss
  | .type t => t.nodes anonymous
  | .assert c none => c.nodes anonymous
  | .assert c (some m) => c.nodes anonymous ++ m.nodes anonymous
  | .jump _ _ => []
  | .bytecode _ => []

def stmtNodes (anonymous : Bool) : List Stmt → List Node
  | [] => []
  | s :: ss => s.nodes anonymous ++ stmtNodes anonymous ss

def labelNodes (anonymous : Bool) : List (Option Expr) → List Node
  | [] => []
  | none :: ls => labelNodes anonymous ls
  | some e :: ls => e.nodes anonymous ++ labelNodes anonymous ls

def SwitchBlock.nodes (anonymous : Bool) : SwitchBlock → List Node
  | ⟨ls, ss⟩ => labelNodes anonymous ls ++ stmtNodes anonymous ss

def blockNodes (anonymous : Bool) : List SwitchBlock → List Node
  | [] => []
  | b :: bs => b.nodes anonymous ++ blockNodes anonymous bs

def CatchClause.nodes (anonymous : Bool) : CatchClause → List Node
  | ⟨_, _, ss⟩ => stmtNodes anonymous ss

def catchNodes (anonymous : Bool) : List CatchClause → List Node
  | [] => []
  | c :: cs => c.nodes anonymous ++ catchNodes anonymous cs

def TypeDecl.nodes (anonymous : Bool) : TypeDecl → List Node
  | ⟨_, _, _, none⟩ => []
  | ⟨_, _, _, some b⟩ => b.nodes anonymous

def Body.nodes (anonymous : Bool) : Body → List Node
  | ⟨n, b, ms⟩ => .body ⟨n, b, ms⟩ :: memberNodes anonymous ms

def Member.nodes (anonymous : Bool) : Member → List Node
  | .field f _ ds => if isSyntheticField f then [] else declaratorNodes anonymous ds
  | .staticInit _ none => []
  | .staticInit _ (some ss) => stmtNodes anonymous ss
  | .constructor _ none => []
  | .constructor h (some ss) => if h.isGenerated then [] else stmtNodes anonymous ss
  | .method _ none => []
  | .method h (some ss) => if h.isGenerated then [] else stmtNodes anonymous ss
  | .type t => t.nodes anonymous

def memberNodes (anonymous : Bool) : List Member → List Node
  | [] => []
  | m :: ms => m.nodes anonymous ++ memberNodes anonymous ms

end

def CompilationUnit.nodes (anonymous : Bool) (u : CompilationUnit) : List Node := u.types.flatMap (·.nodes anonymous)

/-! ## Calls -/

/-- A method call, a call of `this(..)` or `super(..)`, or an object creation. -/
structure Call where
  owner : String
  member : String
  creates : Bool
  arguments : List Expr
  parameters : List Ty

namespace Call

def site (c : Call) : CallSite := ⟨c.owner, c.member, c.arguments.length, c.parameters.length⟩

/-- Fewer parameter types than arguments. -/
def Short (c : Call) : Prop := c.parameters.length < c.arguments.length

instance (c : Call) : Decidable c.Short := Nat.decLt _ _

theorem fault?_site (c : Call) : c.site.fault? = if c.Short then some (.missingParameterTypes c.site) else none := rfl

theorem fault?_site_eq_none (c : Call) : c.site.fault? = none ↔ ¬ c.Short := by
  rw [fault?_site]
  split <;> simp [*]

theorem fault?_site_eq_some (c : Call) (e : CastError) :
    c.site.fault? = some e ↔ c.Short ∧ e = .missingParameterTypes c.site := by
  rw [fault?_site]
  split <;> simp [*, eq_comm]

end Call

def Expr.call? : Expr → Option Call
  | ⟨_, _, .call _ m _ as ps⟩ => some ⟨m.owner, m.name, false, as, ps⟩
  | ⟨_, _, .delegate _ o _ as ps⟩ => some ⟨o.name, MethodDecl.constructorName, false, as, ps⟩
  | ⟨_, t, .new _ as ps _⟩ => some ⟨t.createdName, MethodDecl.constructorName, true, as, ps⟩
  | _ => none

namespace Node

def call? : Node → Option Call
  | expr e => e.call?
  | body _ => none

def body? : Node → Option Body
  | expr _ => none
  | body b => some b

/-- The fault of a call that is short. -/
def fault? (n : Node) : Option CastError := n.call?.bind (·.site.fault?)

end Node

/-- The calls in a unit, in the order of a walk. -/
def CompilationUnit.calls (anonymous : Bool) (u : CompilationUnit) : List Call :=
  (u.nodes anonymous).filterMap (·.call?)

end Recast
