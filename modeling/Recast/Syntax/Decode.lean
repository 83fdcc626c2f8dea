import Recast.Syntax.Encode
/-!
# Reading trees — serialized expressions, statements and declarations

Each decoder takes the members of its construct and refuses a value in which one is missing, given
twice or of the wrong shape.  Members that have a default may be absent, but not null; members that
may be null may be absent as well.  Decoding is bounded by the nesting of the value: no step that
stays on one object is followed by another.
-/
namespace Recast

namespace Decoder

/-- A text that a table knows. -/
def word {α : Type} (table : String → Option α) : Decoder α := fun j => (string j).bind table

end Decoder

namespace Leaf

/-- An expression without parts, by the word for its construct. -/
def decode (ms : Json.Members) : String → Option Leaf
  | "integer_constant" => (ms.required "value" .int32).map .int
  | "long_constant" => (ms.required "value" .int64).map .long
  | "float_constant" => (ms.required "value" .single).map .float
  | "double_constant" => (ms.required "value" .double).map .double
  | "boolean_constant" => (ms.required "value" .bool).map .bool
  | "char_constant" => (ms.required "value" .char).map .char
  | "string_constant" => (ms.required "value" .string).map .string
  | "null" => some .null
  | "this" => some .this
  | "super" => some .super
  | "local_variable_reference" => (ms.required "name" .string).map .localVar
  | "object_type_reference" => some .typeName
  | "type_reference_dot_class" => (ms.required "type_ref" Ty.decode).map .classLiteral
  | "enum_constant_reference" => do
    let owner ← ms.required "owner" .string
    let name ← ms.required "name" .string
    return .enumConstant owner name
  | "constructor_reference" => (ms.required "owner" ClassType.decode).map .constructorRef
  | _ => none

end Leaf

def MemberRef.decode (ms : Json.Members) : Option MemberRef := do
  let owner ← ms.required "owner" .string
  let name ← ms.required "name" .string
  let descriptor ← ms.required "descriptor" .string
  return ⟨owner, name, descriptor⟩

def decodeTypes : Decoder (List Ty) := .list Ty.decode

def ConstructorHead.decode (ms : Json.Members) : Option ConstructorHead := do
  let flags ← ms.withDefault "access_flags" 0 .uint16
  let descriptor ← ms.required "descriptor" .string
  let bounds ← ms.withDefault "type_bounds" .empty TypeBounds.decode
  let exceptions ← ms.nullable "exception_types" decodeTypes
  return ⟨flags, descriptor, bounds, exceptions⟩

def MethodHead.decode (ms : Json.Members) : Option MethodHead := do
  let flags ← ms.withDefault "access_flags" 0 .uint16
  let name ← ms.required "name" .string
  let descriptor ← ms.required "descriptor" .string
  let bounds ← ms.withDefault "type_bounds" .empty TypeBounds.decode
  let returns ← ms.required "return_type" Ty.decode
  let exceptions ← ms.nullable "exception_types" decodeTypes
  return ⟨flags, name, descriptor, bounds, returns, exceptions⟩

mutual

def decodeExpr : Nat → Decoder Expr
  | 0, _ => none
  | n + 1, j => do
    let ms ← j.members?
    let line ← ms.withDefault "line_number" 0 .uint32
    let ty ← ms.required "ty" Ty.decode
    let kind ← ms.required "kind" (decodeKind n)
    return ⟨line, ty, kind⟩

def decodeKind : Nat → Decoder ExprKind
  | 0, _ => none
  | n + 1, j => do
    let ms ← j.members?
    match ← ms.required "expr" .string with
    | "field_reference" =>
      let qualifier ← ms.nullable "qualifier" (decodeExpr n)
      let member ← MemberRef.decode ms
      return .field qualifier member
    | "method_invocation" => decodeCall n ms
    | "constructor_invocation" => decodeDelegate n false ms
    | "super_constructor_invocation" => decodeDelegate n true ms
    | "new" => decodeNew n ms
    | "new_array" => (ms.required "dimensions" (.list (decodeExpr n))).map .newArray
    | "new_initialized_array" => (ms.required "initializers" (.list (decodeInit n))).map .filledArray
    | "binary" =>
      let operator ← ms.required "operator" (.word BinaryOperator.ofWord?)
      let left ← ms.required "left" (decodeExpr n)
      let right ← ms.required "right" (decodeExpr n)
      return .binary operator left right
    | "pre_operator" => decodeUnary n .before ms
    | "post_operator" => decodeUnary n .after ms
    | "instance_of" =>
      let operand ← ms.required "expression" (decodeExpr n)
      let type ← ms.required "instance_of_type" Ty.decode
      return .instanceOf operand type
    | "ternary" =>
      let condition ← ms.required "condition" (decodeExpr n)
      let whenTrue ← ms.required "when_true" (decodeExpr n)
      let whenFalse ← ms.required "when_false" (decodeExpr n)
      return .conditional condition whenTrue whenFalse
    | "array_access" =>
      let array ← ms.required "array" (decodeExpr n)
      let index ← ms.required "index" (decodeExpr n)
      return .index array index
    | "cast" => (ms.required "expression" (decodeExpr n)).map .cast
    | "lambda" =>
      let parameters ← ms.required "parameters" (.list .string)
      let body ← ms.nullable "statements" (.list (decodeStmt n))
      return .lambda parameters body
    | "method_reference" =>
      let qualifier ← ms.required "qualifier" (decodeExpr n)
      let name ← ms.required "name" .string
      return .methodRef qualifier name
    | word => (Leaf.decode ms word).map .leaf

def decodeCall : Nat → Json.Members → Option ExprKind
  | 0, _ => none
  | n + 1, ms => do
    let qualifier ← ms.required "qualifier" (decodeExpr n)
    let member ← MemberRef.decode ms
    let typeArguments ← ms.nullable "type_parameters" (.list TypeArgument.decode)
    let arguments ← ms.required "arguments" (.list (decodeExpr n))
    let parameters ← ms.required "parameter_types" decodeTypes
    return .call qualifier member typeArguments arguments parameters

def decodeDelegate : Nat → Bool → Json.Members → Option ExprKind
  | 0, _, _ => none
  | n + 1, toSuper, ms => do
    let owner ← ms.required "owner" ClassType.decode
    let descriptor ← ms.required "descriptor" .string
    let arguments ← ms.required "arguments" (.list (decodeExpr n))
    let parameters ← ms.required "parameter_types" decodeTypes
    return .delegate toSuper owner descriptor arguments parameters

def decodeNew : Nat → Json.Members → Option ExprKind
  | 0, _ => none
  | n + 1, ms => do
    let descriptor ← ms.required "descriptor" .string
    let arguments ← ms.required "arguments" (.list (decodeExpr n))
    let parameters ← ms.required "parameter_types" decodeTypes
    let body ← ms.nullable "body" (decodeBody n)
    return .new descriptor arguments parameters body

def decodeUnary : Nat → Side → Json.Members → Option ExprKind
  | 0, _, _ => none
  | n + 1, side, ms => do
    let operator ← ms.required "operator" (.word UnaryOperator.ofWord?)
    let operand ← ms.required "operand" (decodeExpr n)
    return .unary side operator operand

def decodeInit : Nat → Decoder Init
  | 0, _ => none
  | n + 1, j => do
    let ms ← j.members?
    match ← ms.required "init" .string with
    | "expression" => (ms.required "expression" (decodeExpr n)).map .expr
    | "array" => (ms.required "initializers" (.list (decodeInit n))).map .array
    | _ => none

def decodeDeclarator : Nat → Decoder Declarator
  | 0, _ => none
  | n + 1, j => do
    let ms ← j.members?
    let name ← ms.required "name" .string
    let dimension ← ms.withDefault "dimension" 0 .uint32
    let init ← ms.nullable "initializer" (decodeInit n)
    return ⟨name, dimension, init⟩

def decodeLocalMembers : Nat → Json.Members → Option LocalDecl
  | 0, _ => none
  | n + 1, ms => do
    let ty ← ms.required "ty" Ty.decode
    let isFinal ← ms.withDefault "is_final" false .bool
    let declarators ← ms.required "declarators" (.list (decodeDeclarator n))
    return ⟨ty, isFinal, declarators⟩

def decodeStmt : Nat → Decoder Stmt
  | 0, _ => none
  | n + 1, j => do
    let ms ← j.members?
    match ← ms.required "stmt" .string with
    | "expression" => (ms.required "expression" (decodeExpr n)).map .expr
    | "local_variable_declaration" => (decodeLocalMembers n ms).map .decl
    | "return" => return .ret none
    | "return_expression" => (ms.required "expression" (decodeExpr n)).map fun e => .ret (some e)
    | "throw" => (ms.required "expression" (decodeExpr n)).map .throw
    | "if" =>
      let condition ← ms.required "condition" (decodeExpr n)
      let whenTrue ← ms.required "then_statements" (.list (decodeStmt n))
      let whenFalse ← ms.nullable "else_statements" (.list (decodeStmt n))
      return .ifThen condition whenTrue whenFalse
    | "while" =>
      let condition ← ms.required "condition" (decodeExpr n)
      let body ← ms.required "statements" (.list (decodeStmt n))
      return .whileLoop .before condition body
    | "do_while" =>
      let condition ← ms.required "condition" (decodeExpr n)
      let body ← ms.required "statements" (.list (decodeStmt n))
      return .whileLoop .after condition body
    | "for" =>
      let init ← ms.withDefault "init" [] (.list (decodeStmt n))
      let condition ← ms.nullable "condition" (decodeExpr n)
      let update ← ms.withDefault "update" [] (.list (decodeExpr n))
      let body ← ms.required "statements" (.list (decodeStmt n))
      return .forLoop init condition update body
    | "for_each" =>
      let ty ← ms.required "ty" Ty.decode
      let name ← ms.required "name" .string
      let source ← ms.required "expression" (decodeExpr n)
      let body ← ms.required "statements" (.list (decodeStmt n))
      return .forEach ty name source body
    | "switch" =>
      let selector ← ms.required "selector" (decodeExpr n)
      let blocks ← ms.required "blocks" (.list (decodeBlock n))
      return .switch selector blocks
    | "synchronized" =>
      let monitor ← ms.required "monitor" (decodeExpr n)
      let body ← ms.required "statements" (.list (decodeStmt n))
      return .synchronized monitor body
    | "try" =>
      let resources ← ms.withDefault "resources" [] (.list (decodeLocal n))
      let body ← ms.required "statements" (.list (decodeStmt n))
      let catches ← ms.withDefault "catches" [] (.list (decodeCatch n))
      let finish ← ms.nullable "finally" (.list (decodeStmt n))
      return .tryBlock resources body catches finish
    | "labeled" =>
      let label ← ms.required "label" .string
      let body ← ms.required "statements" (.list (decodeStmt n))
      return .block (some label) body
    | "block" => (ms.required "statements" (.list (decodeStmt n))).map (.block none)
    | "type_declaration" => (decodeTypeMembers n ms).map .type
    | "assert" =>
      let condition ← ms.required "condition" (decodeExpr n)
      let message ← ms.nullable "message" (decodeExpr n)
      return .assert condition message
    | "break" => (ms.nullable "label" .string).map (.jump .breaks)
    | "continue" => (ms.nullable "label" .string).map (.jump .continues)
    | "byte_code" => (ms.required "text" .string).map .bytecode
    | _ => none

def decodeLocal : Nat → Decoder LocalDecl
  | 0, _ => none
  | n + 1, j => j.members?.bind (decodeLocalMembers n)

def decodeLabel : Nat → Decoder (Option Expr)
  | 0, _ => none
  | n + 1, j => do
    let ms ← j.members?
    match ← ms.required "label" .string with
    | "case" => (ms.required "expression" (decodeExpr n)).map some
    | "default" => return none
    | _ => none

def decodeBlock : Nat → Decoder SwitchBlock
  | 0, _ => none
  | n + 1, j => do
    let ms ← j.members?
    let labels ← ms.required "labels" (.list (decodeLabel n))
    let body ← ms.required "statements" (.list (decodeStmt n))
    return ⟨labels, body⟩

def decodeCatch : Nat → Decoder CatchClause
  | 0, _ => none
  | n + 1, j => do
    let ms ← j.members?
    let types ← ms.required "types" (.list ClassType.decode)
    let name ← ms.required "name" .string
    let body ← ms.required "statements" (.list (decodeStmt n))
    return ⟨types, name, body⟩

def decodeTypeMembers : Nat → Json.Members → Option TypeDecl
  | 0, _ => none
  | n + 1, ms => do
    let kind ← ms.required "kind" (.word TypeKind.ofWord?)
    let flags ← ms.withDefault "access_flags" 0 .uint16
    let name ← ms.required "internal_name" .string
    let body ← ms.nullable "body" (decodeBody n)
    return ⟨kind, flags, name, body⟩

def decodeBody : Nat → Decoder Body
  | 0, _ => none
  | n + 1, j => do
    let ms ← j.members?
    let name ← ms.required "internal_name" .string
    let bounds ← ms.withDefault "type_bounds" .empty TypeBounds.decode
    let members ← ms.required "members" (.list (decodeMember n))
    return ⟨name, bounds, members⟩

def decodeMember : Nat → Decoder Member
  | 0, _ => none
  | n + 1, j => do
    let ms ← j.members?
    match ← ms.required "member" .string with
    | "field" =>
      let flags ← ms.withDefault "access_flags" 0 .uint16
      let ty ← ms.required "ty" Ty.decode
      let declarators ← ms.required "declarators" (.list (decodeDeclarator n))
      return .field flags ty declarators
    | "static_initializer" =>
      let bounds ← ms.withDefault "type_bounds" .empty TypeBounds.decode
      let body ← ms.nullable "statements" (.list (decodeStmt n))
      return .staticInit bounds body
    | "constructor" =>
      let head ← ConstructorHead.decode ms
      let body ← ms.nullable "statements" (.list (decodeStmt n))
      return .constructor head body
    | "method" =>
      let head ← MethodHead.decode ms
      let body ← ms.nullable "statements" (.list (decodeStmt n))
      return .method head body
    | "type" => (decodeTypeMembers n ms).map .type
    | _ => none

end

/-- Two steps for each level of nesting, and two for the outermost value. -/
def treeSteps (j : Json) : Nat := 2 * j.depth + 2

def Expr.decode : Decoder Expr := fun j => decodeExpr (treeSteps j) j

def Init.decode : Decoder Init := fun j => decodeInit (treeSteps j) j

def Declarator.decode : Decoder Declarator := fun j => decodeDeclarator (treeSteps j) j

def Stmt.decode : Decoder Stmt := fun j => decodeStmt (treeSteps j) j

def Member.decode : Decoder Member := fun j => decodeMember (treeSteps j) j

def Body.decode : Decoder Body := fun j => decodeBody (treeSteps j) j

def TypeDecl.decode : Decoder TypeDecl := fun j => j.members?.bind (decodeTypeMembers (treeSteps j))

def CompilationUnit.decode : Decoder CompilationUnit := fun j => do
  let ms ← j.members?
  let types ← ms.required "type_declarations" (.list TypeDecl.decode)
  return ⟨types⟩

/-! ## Documents

An expression, a body, a type declaration and a unit are records, which pass over what they do not know.
Their constructs, and statements, initializers and members, are told apart by a tag that may come last,
so of these everything is examined. -/

def Expr.selection : Selection := .members (Selection.whole ["line_number", "ty", "kind"])

def Body.selection : Selection := .members (Selection.whole ["internal_name", "type_bounds", "members"])

def TypeDecl.selection : Selection :=
  .members (("body", Body.selection) :: Selection.whole ["kind", "access_flags", "internal_name"])

def CompilationUnit.selection : Selection := .members [("type_declarations", .items TypeDecl.selection)]

def Expr.ofJson? : String → Option Expr := Expr.decode.ofDocument? Expr.selection

def Init.ofJson? : String → Option Init := Init.decode.ofDocument? .everything

def Stmt.ofJson? : String → Option Stmt := Stmt.decode.ofDocument? .everything

def Member.ofJson? : String → Option Member := Member.decode.ofDocument? .everything

def Body.ofJson? : String → Option Body := Body.decode.ofDocument? Body.selection

def TypeDecl.ofJson? : String → Option TypeDecl := TypeDecl.decode.ofDocument? TypeDecl.selection

def CompilationUnit.ofJson? : String → Option CompilationUnit :=
  CompilationUnit.decode.ofDocument? CompilationUnit.selection

end Recast
