import Recast.Syntax.Tree
/-!
# Shedding casts — a tree without some of its casts

`e.Sheds n e'` says that `e'` is `e` with the operand in the place of the cast for exactly `n` of the casts in `e`, and
otherwise the same.  There is one rule that drops a cast; the others carry the relation through the tree, one for each
construct with parts, and add up what the parts shed.
-/
namespace Recast

/-- Two lists member by member, or one list twice; the counts add up. -/
inductive ShedsEach {α : Type} (R : Nat → α → α → Prop) : Nat → List α → List α → Prop
  | same (as : List α) : ShedsEach R 0 as as
  | cons {m n : Nat} {a a' : α} {as as' : List α} (h : R m a a') (hs : ShedsEach R n as as') :
    ShedsEach R (m + n) (a :: as) (a' :: as')

/-- The parts that are there, or one part twice. -/
inductive ShedsOption {α : Type} (R : Nat → α → α → Prop) : Nat → Option α → Option α → Prop
  | same (a : Option α) : ShedsOption R 0 a a
  | some {n : Nat} {a a' : α} (h : R n a a') : ShedsOption R n (some a) (some a')

mutual

/-- **An expression without `n` of its casts.** -/
inductive Expr.Sheds : Nat → Expr → Expr → Prop
  | cast {n : Nat} {x x' : Expr} (l : UInt32) (t : Ty) (h : Expr.Sheds n x x') : Expr.Sheds (n + 1) ⟨l, t, .cast x⟩ x'
  | node {n : Nat} {k k' : ExprKind} (l : UInt32) (t : Ty) (h : ExprKind.Sheds n k k') :
    Expr.Sheds n ⟨l, t, k⟩ ⟨l, t, k'⟩

inductive ExprKind.Sheds : Nat → ExprKind → ExprKind → Prop
  | same (k : ExprKind) : ExprKind.Sheds 0 k k
  | field {n : Nat} {q q' : Option Expr} (m : MemberRef) (hq : ShedsOption Expr.Sheds n q q') :
    ExprKind.Sheds n (.field q m) (.field q' m)
  | call {i j : Nat} {q q' : Expr} {as as' : List Expr} (m : MemberRef) (ts : Option (List TypeArgument)) (ps : List Ty)
    (has : ShedsEach Expr.Sheds i as as') (hq : Expr.Sheds j q q') :
    ExprKind.Sheds (i + j) (.call q m ts as ps) (.call q' m ts as' ps)
  | delegate {n : Nat} {as as' : List Expr} (s : Bool) (o : ClassType) (d : String) (ps : List Ty)
    (has : ShedsEach Expr.Sheds n as as') : ExprKind.Sheds n (.delegate s o d as ps) (.delegate s o d as' ps)
  | new {i j : Nat} {as as' : List Expr} {b b' : Option Body} (d : String) (ps : List Ty)
    (has : ShedsEach Expr.Sheds i as as') (hb : ShedsOption Body.Sheds j b b') :
    ExprKind.Sheds (i + j) (.new d as ps b) (.new d as' ps b')
  | newArray {n : Nat} {ds ds' : List Expr} (hds : ShedsEach Expr.Sheds n ds ds') :
    ExprKind.Sheds n (.newArray ds) (.newArray ds')
  | filledArray {n : Nat} {es es' : List Init} (hes : ShedsEach Init.Sheds n es es') :
    ExprKind.Sheds n (.filledArray es) (.filledArray es')
  | binary {i j : Nat} {x x' y y' : Expr} (o : BinaryOperator) (hx : Expr.Sheds i x x') (hy : Expr.Sheds j y y') :
    ExprKind.Sheds (i + j) (.binary o x y) (.binary o x' y')
  | unary {n : Nat} {x x' : Expr} (s : Side) (o : UnaryOperator) (hx : Expr.Sheds n x x') :
    ExprKind.Sheds n (.unary s o x) (.unary s o x')
  | instanceOf {n : Nat} {x x' : Expr} (t : Ty) (hx : Expr.Sheds n x x') :
    ExprKind.Sheds n (.instanceOf x t) (.instanceOf x' t)
  | conditional {i j m : Nat} {c c' x x' y y' : Expr} (hc : Expr.Sheds i c c') (hx : Expr.Sheds j x x')
    (hy : Expr.Sheds m y y') : ExprKind.Sheds (i + j + m) (.conditional c x y) (.conditional c' x' y')
  | index {i j : Nat} {x x' y y' : Expr} (hx : Expr.Sheds i x x') (hy : Expr.Sheds j y y') :
    ExprKind.Sheds (i + j) (.index x y) (.index x' y')
  | cast {n : Nat} {x x' : Expr} (hx : Expr.Sheds n x x') : ExprKind.Sheds n (.cast x) (.cast x')
  | lambda {n : Nat} {b b' : Option (List Stmt)} (ps : List String) (hb : ShedsOption (ShedsEach Stmt.Sheds) n b b') :
    ExprKind.Sheds n (.lambda ps b) (.lambda ps b')

inductive Init.Sheds : Nat → Init → Init → Prop
  | expr {n : Nat} {e e' : Expr} (h : Expr.Sheds n e e') : Init.Sheds n (.expr e) (.expr e')
  | array {n : Nat} {es es' : List Init} (h : ShedsEach Init.Sheds n es es') : Init.Sheds n (.array es) (.array es')

inductive Declarator.Sheds : Nat → Declarator → Declarator → Prop
  | mk {n : Nat} {i i' : Option Init} (name : String) (d : UInt32) (h : ShedsOption Init.Sheds n i i') :
    Declarator.Sheds n ⟨name, d, i⟩ ⟨name, d, i'⟩

inductive LocalDecl.Sheds : Nat → LocalDecl → LocalDecl → Prop
  | mk {n : Nat} {ds ds' : List Declarator} (t : Ty) (f : Bool) (h : ShedsEach Declarator.Sheds n ds ds') :
    LocalDecl.Sheds n ⟨t, f, ds⟩ ⟨t, f, ds'⟩

inductive Stmt.Sheds : Nat → Stmt → Stmt → Prop
  | same (s : Stmt) : Stmt.Sheds 0 s s
  | expr {n : Nat} {e e' : Expr} (h : Expr.Sheds n e e') : Stmt.Sheds n (.expr e) (.expr e')
  | decl {n : Nat} {l l' : LocalDecl} (h : LocalDecl.Sheds n l l') : Stmt.Sheds n (.decl l) (.decl l')
  | ret {n : Nat} {e e' : Option Expr} (h : ShedsOption Expr.Sheds n e e') : Stmt.Sheds n (.ret e) (.ret e')
  | throw {n : Nat} {e e' : Expr} (h : Expr.Sheds n e e') : Stmt.Sheds n (.throw e) (.throw e')
  | ifThen {i j m : Nat} {c c' : Expr} {ss ss' : List Stmt} {ts ts' : Option (List Stmt)} (hc : Expr.Sheds i c c')
    (hss : ShedsEach Stmt.Sheds j ss ss') (hts : ShedsOption (ShedsEach Stmt.Sheds) m ts ts') :
    Stmt.Sheds (i + j + m) (.ifThen c ss ts) (.ifThen c' ss' ts')
  | whileLoop {i j : Nat} {c c' : Expr} {ss ss' : List Stmt} (s : Side) (hc : Expr.Sheds i c c')
    (hss : ShedsEach Stmt.Sheds j ss ss') : Stmt.Sheds (i + j) (.whileLoop s c ss) (.whileLoop s c' ss')
  | forLoop {i j m n : Nat} {is is' : List Stmt} {c c' : Option Expr} {us us' : List Expr} {ss ss' : List Stmt}
    (his : ShedsEach Stmt.Sheds i is is') (hc : ShedsOption Expr.Sheds j c c') (hus : ShedsEach Expr.Sheds m us us')
    (hss : ShedsEach Stmt.Sheds n ss ss') : Stmt.Sheds (i + j + m + n) (.forLoop is c us ss) (.forLoop is' c' us' ss')
  | forEach {i j : Nat} {e e' : Expr} {ss ss' : List Stmt} (t : Ty) (name : String) (he : Expr.Sheds i e e')
    (hss : ShedsEach Stmt.Sheds j ss ss') : Stmt.Sheds (i + j) (.forEach t name e ss) (.forEach t name e' ss')
  | switch {i j : Nat} {e e' : Expr} {bs bs' : List SwitchBlock} (he : Expr.Sheds i e e')
    (hbs : ShedsEach SwitchBlock.Sheds j bs bs') : Stmt.Sheds (i + j) (.switch e bs) (.switch e' bs')
  | synchronized {i j : Nat} {e e' : Expr} {ss ss' : List Stmt} (he : Expr.Sheds i e e')
    (hss : ShedsEach Stmt.Sheds j ss ss') : Stmt.Sheds (i + j) (.synchronized e ss) (.synchronized e' ss')
  | tryBlock {i j m n : Nat} {ls ls' : List LocalDecl} {ss ss' : List Stmt} {cs cs' : List CatchClause}
    {fs fs' : Option (List Stmt)} (hls : ShedsEach LocalDecl.Sheds i ls ls') (hss : ShedsEach Stmt.Sheds j ss ss')
    (hcs : ShedsEach CatchClause.Sheds m cs cs') (hfs : ShedsOption (ShedsEach Stmt.Sheds) n fs fs') :
    Stmt.Sheds (i + j + m + n) (.tryBlock ls ss cs fs) (.tryBlock ls' ss' cs' fs')
  | block {n : Nat} {ss ss' : List Stmt} (label : Option String) (hss : ShedsEach Stmt.Sheds n ss ss') :
    Stmt.Sheds n (.block label ss) (.block label ss')
  | type {n : Nat} {t t' : TypeDecl} (h : TypeDecl.Sheds n t t') : Stmt.Sheds n (.type t) (.type t')
  | assert {i j : Nat} {c c' : Expr} {m m' : Option Expr} (hc : Expr.Sheds i c c')
    (hm : ShedsOption Expr.Sheds j m m') : Stmt.Sheds (i + j) (.assert c m) (.assert c' m')

inductive SwitchBlock.Sheds : Nat → SwitchBlock → SwitchBlock → Prop
  | mk {i j : Nat} {ls ls' : List (Option Expr)} {ss ss' : List Stmt}
    (hls : ShedsEach (ShedsOption Expr.Sheds) i ls ls') (hss : ShedsEach Stmt.Sheds j ss ss') :
    SwitchBlock.Sheds (i + j) ⟨ls, ss⟩ ⟨ls', ss'⟩

inductive CatchClause.Sheds : Nat → CatchClause → CatchClause → Prop
  | mk {n : Nat} {ss ss' : List Stmt} (ts : List ClassType) (name : String) (hss : ShedsEach Stmt.Sheds n ss ss') :
    CatchClause.Sheds n ⟨ts, name, ss⟩ ⟨ts, name, ss'⟩

inductive TypeDecl.Sheds : Nat → TypeDecl → TypeDecl → Prop
  | mk {n : Nat} {b b' : Option Body} (k : TypeKind) (f : UInt16) (name : String)
    (hb : ShedsOption Body.Sheds n b b') : TypeDecl.Sheds n ⟨k, f, name, b⟩ ⟨k, f, name, b'⟩

inductive Body.Sheds : Nat → Body → Body → Prop
  | mk {n : Nat} {ms ms' : List Member} (name : String) (b : TypeBounds) (hms : ShedsEach Member.Sheds n ms ms') :
    Body.Sheds n ⟨name, b, ms⟩ ⟨name, b, ms'⟩

inductive Member.Sheds : Nat → Member → Member → Prop
  | same (m : Member) : Member.Sheds 0 m m
  | field {n : Nat} {ds ds' : List Declarator} (f : UInt16) (t : Ty) (hds : ShedsEach Declarator.Sheds n ds ds') :
    Member.Sheds n (.field f t ds) (.field f t ds')
  | staticInit {n : Nat} {ss ss' : List Stmt} (b : TypeBounds) (hss : ShedsEach Stmt.Sheds n ss ss') :
    Member.Sheds n (.staticInit b (some ss)) (.staticInit b (some ss'))
  | constructor {n : Nat} {ss ss' : List Stmt} (h : ConstructorHead) (hss : ShedsEach Stmt.Sheds n ss ss') :
    Member.Sheds n (.constructor h (some ss)) (.constructor h (some ss'))
  | method {n : Nat} {ss ss' : List Stmt} (h : MethodHead) (hss : ShedsEach Stmt.Sheds n ss ss') :
    Member.Sheds n (.method h (some ss)) (.method h (some ss'))
  | type {n : Nat} {t t' : TypeDecl} (h : TypeDecl.Sheds n t t') : Member.Sheds n (.type t) (.type t')

end

/-- **A unit without `n` of its casts.** -/
def CompilationUnit.Sheds (n : Nat) (u u' : CompilationUnit) : Prop := ShedsEach TypeDecl.Sheds n u.types u'.types

end Recast
