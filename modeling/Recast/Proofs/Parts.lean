import Recast.Syntax.Tree
/-!
# Parts — the positions of a tree and the types declared in it

A position is a place for an expression; what stands there is a node under any number of casts.  The operand of a cast
stands in the position of the cast, so casts come and go without a position being gained or lost, and two trees that
differ in casts alone have positions that answer one to one.  `parts` lists the positions in tree order, members that
a run skips and bodies it does not enter included, and between them the types that parameters, variables, fields and
results are declared with.
-/
namespace Recast

/-- A position with the expression in it, or a declared type. -/
inductive Part
  | position (e : Expr)
  | declared (t : Ty)

namespace Part

def position? : Part → Option Expr
  | position e => some e
  | declared _ => none

end Part

/-- Parameter types as parts. -/
def declaredParts (ts : List Ty) : List Part := ts.map .declared

mutual

def Expr.parts : Expr → List Part
  | ⟨l, t, k⟩ => .position ⟨l, t, k⟩ :: k.parts

/-- The parts below a node. -/
def ExprKind.parts : ExprKind → List Part
  | .leaf _ => []
  | .field none _ => []
  | .field (some q) _ => q.parts
  | .call q _ _ as ps => q.parts ++ argumentParts as ++ declaredParts ps
  | .delegate _ _ _ as ps => argumentParts as ++ declaredParts ps
  | .new _ as ps none => argumentParts as ++ declaredParts ps
  | .new _ as ps (some b) => argumentParts as ++ declaredParts ps ++ b.parts
  | .newArray ds => argumentParts ds
  | .filledArray es => initParts es
  | .binary _ x y => x.parts ++ y.parts
  | .unary _ _ x => x.parts
  | .instanceOf x _ => x.parts
  | .conditional c x y => c.parts ++ x.parts ++ y.parts
  | .index a i => a.parts ++ i.parts
  | .cast ⟨_, _, k⟩ => k.parts
  | .lambda _ none => []
  | .lambda _ (some ss) => stmtParts ss
  | .methodRef q _ => q.parts

def argumentParts : List Expr → List Part
  | [] => []
  | e :: es => e.parts ++ argumentParts es

def Init.parts : Init → List Part
  | .expr e => e.parts
  | .array es => initParts es

def initParts : List Init → List Part
  | [] => []
  | i :: is => i.parts ++ initParts is

def Declarator.parts : Declarator → List Part
  | ⟨_, _, none⟩ => []
  | ⟨_, _, some i⟩ => i.parts

def declaratorParts : List Declarator → List Part
  | [] => []
  | d :: ds => d.parts ++ declaratorParts ds

def LocalDecl.parts : LocalDecl → List Part
  | ⟨t, _, ds⟩ => .declared t :: declaratorParts ds

def localParts : List LocalDecl → List Part
  | [] => []
  | l :: ls => l.parts ++ localParts ls

def Stmt.parts : Stmt → List Part
  | .expr e => e.parts
  | .decl l => l.parts
  | .ret none => []
  | .ret (some e) => e.parts
  | .throw e => e.parts
  | .ifThen c ss none => c.parts ++ stmtParts ss
  | .ifThen c ss (some ts) => c.parts ++ stmtParts ss ++ stmtParts ts
  | .whileLoop _ c ss => c.parts ++ stmtParts ss
  | .forLoop is none us ss => stmtParts is ++ argumentParts us ++ stmtParts ss
  | .forLoop is (some c) us ss => stmtParts is ++ c.parts ++ argumentParts us ++ stmtParts ss
  | .forEach t _ e ss => .declared t :: (e.parts ++ stmtParts ss)
  | .switch e bs => e.parts ++ blockParts bs
  | .synchronized e ss => e.parts ++ stmtParts ss
  | .tryBlock ls ss cs none => localParts ls ++ stmtParts ss ++ catchParts cs
  | .tryBlock ls ss cs (some fs) => localParts ls ++ stmtParts ss ++ catchParts cs ++ stmtParts fs
  | .block _ ss => stmtParts ss
  | .type t => t.parts
  | .assert c none => c.parts
  | .assert c (some m) => c.parts ++ m.parts
  | .jump _ _ => []
  | .bytecode _ => []

def stmtParts : List Stmt → List Part
  | [] => []
  | s :: ss => s.parts ++ stmtParts ss

def labelParts : List (Option Expr) → List Part
  | [] => []
  | none :: ls => labelParts ls
  | some e :: ls => e.parts ++ labelParts ls

def SwitchBlock.parts : SwitchBlock → List Part
  | ⟨ls, ss⟩ => labelParts ls ++ stmtParts ss

def blockParts : List SwitchBlock → List Part
  | [] => []
  | b :: bs => b.parts ++ blockParts bs

def CatchClause.parts : CatchClause → List Part
  | ⟨_, _, ss⟩ => stmtParts ss

def catchParts : List CatchClause → List Part
  | [] => []
  | c :: cs => c.parts ++ catchParts cs

def TypeDecl.parts : TypeDecl → List Part
  | ⟨_, _, _, none⟩ => []
  | ⟨_, _, _, some b⟩ => b.parts

def Body.parts : Body → List Part
  | ⟨_, _, ms⟩ => memberParts ms

def Member.parts : Member → List Part
  | .field _ t ds => .declared t :: declaratorParts ds
  | .staticInit _ none => []
  | .staticInit _ (some ss) => stmtParts ss
  | .constructor _ none => []
  | .constructor _ (some ss) => stmtParts ss
  | .method h none => [.declared h.returns]
  | .method h (some ss) => .declared h.returns :: stmtParts ss
  | .type t => t.parts

def memberParts : List Member → List Part
  | [] => []
  | m :: ms => m.parts ++ memberParts ms

end

theorem Expr.parts_eq (e : Expr) : e.parts = .position e :: e.kind.parts := by
  obtain ⟨l, t, k⟩ := e
  rfl

/-- The parts below a position are those of the node under its casts. -/
theorem ExprKind.parts_cast (x : Expr) : (ExprKind.cast x).parts = x.kind.parts := by
  obtain ⟨l, t, k⟩ := x
  rfl

def CompilationUnit.parts (u : CompilationUnit) : List Part := u.types.flatMap (·.parts)

/-- The expressions of all positions, in tree order. -/
def CompilationUnit.positions (u : CompilationUnit) : List Expr := u.parts.filterMap (·.position?)

end Recast
