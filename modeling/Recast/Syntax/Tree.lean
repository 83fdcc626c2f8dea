import Recast.Ty.Bounds
import Recast.Syntax.Operator
/-!
# Syntax tree — typed expressions, statements and declarations

Every expression carries its source line and the static type inferred for it, and every call the
resolved types of its parameters; declarations carry the bounds of their type variables.  Nothing in
the tree is computed from anything else in it: types are as recorded, descriptors are opaque text.

Line 0 means that no line is known.  For a cast the expression's own type is the target.  Optional
statement lists tell "no body" from "an empty body".
-/
namespace Recast

/-- An expression without parts. -/
inductive Leaf
  | int (value : Int32)
  | long (value : Int64)
  | float (value : Float32)
  | double (value : Float)
  | bool (value : Bool)
  | char (value : Char)
  | string (value : String)
  | null
  | this
  | super
  | localVar (name : String)
  | typeName
  | classLiteral (type : Ty)
  | enumConstant (owner name : String)
  | constructorRef (owner : ClassType)

/-- A field or method by the class it belongs to. -/
structure MemberRef where
  owner : String
  name : String
  descriptor : String
deriving DecidableEq

inductive TypeKind
  | ordinary | interface | enum | annotation
deriving DecidableEq

inductive Jump
  | breaks | continues
deriving DecidableEq

structure ConstructorHead where
  flags : UInt16
  descriptor : String
  bounds : TypeBounds
  exceptions : Option (List Ty)

structure MethodHead where
  flags : UInt16
  name : String
  descriptor : String
  bounds : TypeBounds
  returns : Ty
  exceptions : Option (List Ty)

mutual

structure Expr where
  line : UInt32
  ty : Ty
  kind : ExprKind

/-- `field` without a qualifier is a field of the enclosing class; `delegate` is `this(..)` or, with
`toSuper`, `super(..)`; `filledArray` is an array creation with its elements in braces. -/
inductive ExprKind
  | leaf (leaf : Leaf)
  | field (qualifier : Option Expr) (member : MemberRef)
  | call (qualifier : Expr) (member : MemberRef) (typeArguments : Option (List TypeArgument))
      (arguments : List Expr) (parameters : List Ty)
  | delegate (toSuper : Bool) (owner : ClassType) (descriptor : String)
      (arguments : List Expr) (parameters : List Ty)
  | new (descriptor : String) (arguments : List Expr) (parameters : List Ty) (body : Option Body)
  | newArray (dimensions : List Expr)
  | filledArray (elements : List Init)
  | binary (operator : BinaryOperator) (left right : Expr)
  | unary (side : Side) (operator : UnaryOperator) (operand : Expr)
  | instanceOf (operand : Expr) (type : Ty)
  | conditional (condition whenTrue whenFalse : Expr)
  | index (array index : Expr)
  | cast (operand : Expr)
  | lambda (parameters : List String) (body : Option (List Stmt))
  | methodRef (qualifier : Expr) (name : String)

/-- What a variable starts with: an expression, or values in braces. -/
inductive Init
  | expr (value : Expr)
  | array (elements : List Init)

/-- One name of a declaration, with the dimensions and the initializer written after it. -/
structure Declarator where
  name : String
  dimension : UInt32
  init : Option Init

structure LocalDecl where
  ty : Ty
  isFinal : Bool
  declarators : List Declarator

/-- `whileLoop` tests its condition before or after the body; `block` may have a label. -/
inductive Stmt
  | expr (value : Expr)
  | decl (decl : LocalDecl)
  | ret (value : Option Expr)
  | throw (value : Expr)
  | ifThen (condition : Expr) (whenTrue : List Stmt) (whenFalse : Option (List Stmt))
  | whileLoop (test : Side) (condition : Expr) (body : List Stmt)
  | forLoop (init : List Stmt) (condition : Option Expr) (update : List Expr) (body : List Stmt)
  | forEach (ty : Ty) (name : String) (source : Expr) (body : List Stmt)
  | switch (selector : Expr) (blocks : List SwitchBlock)
  | synchronized (monitor : Expr) (body : List Stmt)
  | tryBlock (resources : List LocalDecl) (body : List Stmt) (catches : List CatchClause)
      (finish : Option (List Stmt))
  | block (label : Option String) (body : List Stmt)
  | type (decl : TypeDecl)
  | assert (condition : Expr) (message : Option Expr)
  | jump (jump : Jump) (label : Option String)
  | bytecode (text : String)

/-- A label without an expression is the default label. -/
structure SwitchBlock where
  labels : List (Option Expr)
  body : List Stmt

structure CatchClause where
  types : List ClassType
  name : String
  body : List Stmt

structure TypeDecl where
  kind : TypeKind
  flags : UInt16
  name : String
  body : Option Body

/-- The members of a class, interface, enum or anonymous class. -/
structure Body where
  name : String
  bounds : TypeBounds
  members : List Member

inductive Member
  | field (flags : UInt16) (ty : Ty) (declarators : List Declarator)
  | staticInit (bounds : TypeBounds) (body : Option (List Stmt))
  | constructor (head : ConstructorHead) (body : Option (List Stmt))
  | method (head : MethodHead) (body : Option (List Stmt))
  | type (decl : TypeDecl)

end

/-- The types declared in one source file. -/
structure CompilationUnit where
  types : List TypeDecl

/-! ## Access flags -/

namespace AccessFlag

def isPublic : UInt16 := 0x0001
def bridge : UInt16 := 0x0040
def synthetic : UInt16 := 0x1000

/-- Whether any bit of `mask` is set. -/
def anySet (flags mask : UInt16) : Bool := flags &&& mask != 0

end AccessFlag

/-- A field the compiler made up. -/
def isSyntheticField (flags : UInt16) : Bool := AccessFlag.anySet flags AccessFlag.synthetic

/-- Compiler-made accessors and bridges never stand in source code. -/
def ConstructorHead.isGenerated (h : ConstructorHead) : Bool :=
  AccessFlag.anySet h.flags (AccessFlag.synthetic ||| AccessFlag.bridge)

def MethodHead.isGenerated (h : MethodHead) : Bool :=
  AccessFlag.anySet h.flags (AccessFlag.synthetic ||| AccessFlag.bridge)

/-! ## Tests on expressions -/

namespace Expr

def isNull : Expr → Bool
  | ⟨_, _, .leaf .null⟩ => true
  | _ => false

def isCast : Expr → Bool
  | ⟨_, _, .cast _⟩ => true
  | _ => false

def isNew : Expr → Bool
  | ⟨_, _, .new ..⟩ => true
  | _ => false

def isTypeName : Expr → Bool
  | ⟨_, _, .leaf .typeName⟩ => true
  | _ => false

def isFilledArray : Expr → Bool
  | ⟨_, _, .filledArray _⟩ => true
  | _ => false

/-- A call with its type arguments written out, `this.<T>get()`. -/
def isExplicitCall : Expr → Bool
  | ⟨_, _, .call _ _ (some _) _ _⟩ => true
  | _ => false

/-- The expression under a cast. -/
def castOperand? : Expr → Option Expr
  | ⟨_, _, .cast x⟩ => some x
  | _ => none

end Expr

end Recast
