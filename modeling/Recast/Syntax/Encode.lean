import Recast.Syntax.Tree
import Recast.Ty.Json
/-!
# Serialized trees — expressions, statements and declarations as JSON

Every construct is an object whose first member names it; all members are written, null where there
is nothing.  Names of constructs and members are those of the exchange format, one word per construct.
-/
namespace Recast

def Json.ofStrings (ss : List String) : Json := Json.ofList .string ss

def encodeTypes (ts : List Ty) : Json := Json.ofList Ty.encode ts

namespace Leaf

def encode : Leaf → Json
  | .int v => .object [("expr", .string "integer_constant"), ("value", .integer v.toInt)]
  | .long v => .object [("expr", .string "long_constant"), ("value", .integer v.toInt)]
  | .float v => .object [("expr", .string "float_constant"), ("value", .single v)]
  | .double v => .object [("expr", .string "double_constant"), ("value", .double v)]
  | .bool v => .object [("expr", .string "boolean_constant"), ("value", .bool v)]
  | .char v => .object [("expr", .string "char_constant"), ("value", .string (String.singleton v))]
  | .string v => .object [("expr", .string "string_constant"), ("value", .string v)]
  | .null => .object [("expr", .string "null")]
  | .this => .object [("expr", .string "this")]
  | .super => .object [("expr", .string "super")]
  | .localVar n => .object [("expr", .string "local_variable_reference"), ("name", .string n)]
  | .typeName => .object [("expr", .string "object_type_reference")]
  | .classLiteral t => .object [("expr", .string "type_reference_dot_class"), ("type_ref", t.encode)]
  | .enumConstant o n =>
    .object [("expr", .string "enum_constant_reference"), ("owner", .string o), ("name", .string n)]
  | .constructorRef o => .object [("expr", .string "constructor_reference"), ("owner", o.encode)]

end Leaf

namespace TypeKind

def word : TypeKind → String
  | ordinary => "class"
  | interface => "interface"
  | enum => "enum"
  | annotation => "annotation"

def all : List TypeKind := [ordinary, interface, enum, annotation]

def ofWord? (w : String) : Option TypeKind := all.find? (·.word == w)

end TypeKind

namespace ConstructorHead

def encodeMembers (h : ConstructorHead) : Json.Members :=
  [("access_flags", .nat h.flags.toNat), ("descriptor", .string h.descriptor), ("type_bounds", h.bounds.encode),
   ("exception_types", .ofOption encodeTypes h.exceptions)]

end ConstructorHead

namespace MethodHead

def encodeMembers (h : MethodHead) : Json.Members :=
  [("access_flags", .nat h.flags.toNat), ("name", .string h.name), ("descriptor", .string h.descriptor),
   ("type_bounds", h.bounds.encode), ("return_type", h.returns.encode),
   ("exception_types", .ofOption encodeTypes h.exceptions)]

end MethodHead

/-- The member for a statement list that may be missing. -/
def statementsMember (ss : Option (List Json)) : Json.Members := [("statements", .ofOption .array ss)]

mutual

def Expr.encode : Expr → Json
  | ⟨l, t, k⟩ => .object [("line_number", .nat l.toNat), ("ty", t.encode), ("kind", k.encode)]

def ExprKind.encode : ExprKind → Json
  | .leaf l => l.encode
  | .field none m =>
    .object [("expr", .string "field_reference"), ("qualifier", .null), ("owner", .string m.owner),
      ("name", .string m.name), ("descriptor", .string m.descriptor)]
  | .field (some q) m =>
    .object [("expr", .string "field_reference"), ("qualifier", q.encode), ("owner", .string m.owner),
      ("name", .string m.name), ("descriptor", .string m.descriptor)]
  | .call q m ts as ps =>
    .object [("expr", .string "method_invocation"), ("qualifier", q.encode), ("owner", .string m.owner),
      ("name", .string m.name), ("descriptor", .string m.descriptor),
      ("type_parameters", .ofOption (.ofList TypeArgument.encode) ts), ("arguments", .array (encodeExprs as)),
      ("parameter_types", encodeTypes ps)]
  | .delegate toSuper o d as ps =>
    .object
      [("expr", .string (if toSuper then "super_constructor_invocation" else "constructor_invocation")),
       ("owner", o.encode), ("descriptor", .string d), ("arguments", .array (encodeExprs as)),
       ("parameter_types", encodeTypes ps)]
  | .new d as ps none =>
    .object [("expr", .string "new"), ("descriptor", .string d), ("arguments", .array (encodeExprs as)),
      ("parameter_types", encodeTypes ps), ("body", .null)]
  | .new d as ps (some b) =>
    .object [("expr", .string "new"), ("descriptor", .string d), ("arguments", .array (encodeExprs as)),
      ("parameter_types", encodeTypes ps), ("body", b.encode)]
  | .newArray ds => .object [("expr", .string "new_array"), ("dimensions", .array (encodeExprs ds))]
  | .filledArray es =>
    .object [("expr", .string "new_initialized_array"), ("initializers", .array (encodeInits es))]
  | .binary o x y =>
    .object [("expr", .string "binary"), ("operator", .string o.word), ("left", x.encode), ("right", y.encode)]
  | .unary s o x =>
    .object [("expr", .string (match s with | .before => "pre_operator" | .after => "post_operator")),
      ("operator", .string o.word), ("operand", x.encode)]
  | .instanceOf x t =>
    .object [("expr", .string "instance_of"), ("expression", x.encode), ("instance_of_type", t.encode)]
  | .conditional c x y =>
    .object [("expr", .string "ternary"), ("condition", c.encode), ("when_true", x.encode),
      ("when_false", y.encode)]
  | .index a i => .object [("expr", .string "array_access"), ("array", a.encode), ("index", i.encode)]
  | .cast x => .object [("expr", .string "cast"), ("expression", x.encode)]
  | .lambda ps none =>
    .object (("expr", .string "lambda") :: ("parameters", .ofStrings ps) :: statementsMember none)
  | .lambda ps (some ss) =>
    .object
      (("expr", .string "lambda") :: ("parameters", .ofStrings ps) :: statementsMember (some (encodeStmts ss)))
  | .methodRef q n =>
    .object [("expr", .string "method_reference"), ("qualifier", q.encode), ("name", .string n)]

def encodeExprs : List Expr → List Json
  | [] => []
  | e :: es => e.encode :: encodeExprs es

def Init.encode : Init → Json
  | .expr e => .object [("init", .string "expression"), ("expression", e.encode)]
  | .array es => .object [("init", .string "array"), ("initializers", .array (encodeInits es))]

def encodeInits : List Init → List Json
  | [] => []
  | i :: is => i.encode :: encodeInits is

def Declarator.encode : Declarator → Json
  | ⟨n, d, none⟩ => .object [("name", .string n), ("dimension", .nat d.toNat), ("initializer", .null)]
  | ⟨n, d, some i⟩ => .object [("name", .string n), ("dimension", .nat d.toNat), ("initializer", i.encode)]

def encodeDeclarators : List Declarator → List Json
  | [] => []
  | d :: ds => d.encode :: encodeDeclarators ds

def LocalDecl.encodeMembers : LocalDecl → Json.Members
  | ⟨t, f, ds⟩ =>
    [("ty", t.encode), ("is_final", .bool f), ("declarators", .array (encodeDeclarators ds))]

def encodeLocals : List LocalDecl → List Json
  | [] => []
  | l :: ls => .object l.encodeMembers :: encodeLocals ls

def Stmt.encode : Stmt → Json
  | .expr e => .object [("stmt", .string "expression"), ("expression", e.encode)]
  | .decl l => .object (("stmt", .string "local_variable_declaration") :: l.encodeMembers)
  | .ret none => .object [("stmt", .string "return")]
  | .ret (some e) => .object [("stmt", .string "return_expression"), ("expression", e.encode)]
  | .throw e => .object [("stmt", .string "throw"), ("expression", e.encode)]
  | .ifThen c ss none =>
    .object [("stmt", .string "if"), ("condition", c.encode), ("then_statements", .array (encodeStmts ss)),
      ("else_statements", .null)]
  | .ifThen c ss (some ts) =>
    .object [("stmt", .string "if"), ("condition", c.encode), ("then_statements", .array (encodeStmts ss)),
      ("else_statements", .array (encodeStmts ts))]
  | .whileLoop s c ss =>
    .object [("stmt", .string (match s with | .before => "while" | .after => "do_while")),
      ("condition", c.encode), ("statements", .array (encodeStmts ss))]
  | .forLoop is none us ss =>
    .object [("stmt", .string "for"), ("init", .array (encodeStmts is)), ("condition", .null),
      ("update", .array (encodeExprs us)), ("statements", .array (encodeStmts ss))]
  | .forLoop is (some c) us ss =>
    .object [("stmt", .string "for"), ("init", .array (encodeStmts is)), ("condition", c.encode),
      ("update", .array (encodeExprs us)), ("statements", .array (encodeStmts ss))]
  | .forEach t n e ss =>
    .object [("stmt", .string "for_each"), ("ty", t.encode), ("name", .string n), ("expression", e.encode),
      ("statements", .array (encodeStmts ss))]
  | .switch e bs =>
    .object [("stmt", .string "switch"), ("selector", e.encode), ("blocks", .array (encodeBlocks bs))]
  | .synchronized e ss =>
    .object [("stmt", .string "synchronized"), ("monitor", e.encode), ("statements", .array (encodeStmts ss))]
  | .tryBlock ls ss cs none =>
    .object [("stmt", .string "try"), ("resources", .array (encodeLocals ls)),
      ("statements", .array (encodeStmts ss)), ("catches", .array (encodeCatches cs)), ("finally", .null)]
  | .tryBlock ls ss cs (some fs) =>
    .object [("stmt", .string "try"), ("resources", .array (encodeLocals ls)),
      ("statements", .array (encodeStmts ss)), ("catches", .array (encodeCatches cs)),
      ("finally", .array (encodeStmts fs))]
  | .block (some n) ss =>
    .object [("stmt", .string "labeled"), ("label", .string n), ("statements", .array (encodeStmts ss))]
  | .block none ss => .object [("stmt", .string "block"), ("statements", .array (encodeStmts ss))]
  | .type t => .object (("stmt", .string "type_declaration") :: t.encodeMembers)
  | .assert c none => .object [("stmt", .string "assert"), ("condition", c.encode), ("message", .null)]
  | .assert c (some m) => .object [("stmt", .string "assert"), ("condition", c.encode), ("message", m.encode)]
  | .jump .breaks l => .object [("stmt", .string "break"), ("label", .ofOption .string l)]
  | .jump .continues l => .object [("stmt", .string "continue"), ("label", .ofOption .string l)]
  | .bytecode t => .object [("stmt", .string "byte_code"), ("text", .string t)]

def encodeStmts : List Stmt → List Json
  | [] => []
  | s :: ss => s.encode :: encodeStmts ss

def encodeLabels : List (Option Expr) → List Json
  | [] => []
  | none :: ls => .object [("label", .string "default")] :: encodeLabels ls
  | some e :: ls => .object [("label", .string "case"), ("expression", e.encode)] :: encodeLabels ls

def SwitchBlock.encode : SwitchBlock → Json
  | ⟨ls, ss⟩ => .object [("labels", .array (encodeLabels ls)), ("statements", .array (encodeStmts ss))]

def encodeBlocks : List SwitchBlock → List Json
  | [] => []
  | b :: bs => b.encode :: encodeBlocks bs

def CatchClause.encode : CatchClause → Json
  | ⟨ts, n, ss⟩ =>
    .object [("types", .ofList ClassType.encode ts), ("name", .string n), ("statements", .array (encodeStmts ss))]

def encodeCatches : List CatchClause → List Json
  | [] => []
  | c :: cs => c.encode :: encodeCatches cs

def TypeDecl.encodeMembers : TypeDecl → Json.Members
  | ⟨k, f, n, none⟩ =>
    [("kind", .string k.word), ("access_flags", .nat f.toNat), ("internal_name", .string n), ("body", .null)]
  | ⟨k, f, n, some b⟩ =>
    [("kind", .string k.word), ("access_flags", .nat f.toNat), ("internal_name", .string n), ("body", b.encode)]

def Body.encode : Body → Json
  | ⟨n, b, ms⟩ =>
    .object [("internal_name", .string n), ("type_bounds", b.encode), ("members", .array (encodeMemberList ms))]

def Member.encode : Member → Json
  | .field f t ds =>
    .object [("member", .string "field"), ("access_flags", .nat f.toNat), ("ty", t.encode),
      ("declarators", .array (encodeDeclarators ds))]
  | .staticInit b none =>
    .object (("member", .string "static_initializer") :: ("type_bounds", b.encode) :: statementsMember none)
  | .staticInit b (some ss) =>
    .object
      (("member", .string "static_initializer") :: ("type_bounds", b.encode) ::
        statementsMember (some (encodeStmts ss)))
  | .constructor h none =>
    .object (("member", .string "constructor") :: (h.encodeMembers ++ statementsMember none))
  | .constructor h (some ss) =>
    .object (("member", .string "constructor") :: (h.encodeMembers ++ statementsMember (some (encodeStmts ss))))
  | .method h none =>
    .object (("member", .string "method") :: (h.encodeMembers ++ statementsMember none))
  | .method h (some ss) =>
    .object (("member", .string "method") :: (h.encodeMembers ++ statementsMember (some (encodeStmts ss))))
  | .type t => .object (("member", .string "type") :: t.encodeMembers)

def encodeMemberList : List Member → List Json
  | [] => []
  | m :: ms => m.encode :: encodeMemberList ms

end

def TypeDecl.encode (t : TypeDecl) : Json := .object t.encodeMembers

def CompilationUnit.encode (u : CompilationUnit) : Json :=
  .object [("type_declarations", .ofList TypeDecl.encode u.types)]

end Recast
