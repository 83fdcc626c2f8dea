import Recast.Proofs.Parts
import Recast.Proofs.Walk
import Recast.Proofs.TypesReread
/-!
# Trees reread — a written tree is read as itself

Every construct is read back from what it is written as, by one induction over the tree: the steps that are left go
down with the nesting, and the constants stay finite.  A number that is not finite has no written form and is the
only thing lost.  What may be missing is written as null, an empty list as an empty list.
-/
namespace Recast

open Json (Members)

/-! ## Finite constants -/

/-- A number that can be written, or no number at all. -/
def Leaf.Finite : Leaf → Prop
  | .float v => v.isFinite = true
  | .double v => v.isFinite = true
  | _ => True

/-- What stands in the position, casts aside, is finite if it is a constant. -/
def Part.Finite : Part → Prop
  | .position e => ∀ l, e.core.kind = .leaf l → l.Finite
  | .declared _ => True

/-- **Every float and every double is finite.** -/
def FiniteParts (ps : List Part) : Prop := ∀ p ∈ ps, p.Finite

@[simp] theorem finiteParts_cons {p : Part} {ps : List Part} : FiniteParts (p :: ps) ↔ p.Finite ∧ FiniteParts ps :=
  List.forall_mem_cons

@[simp] theorem finiteParts_append {ps qs : List Part} : FiniteParts (ps ++ qs) ↔ FiniteParts ps ∧ FiniteParts qs :=
  List.forall_mem_append

/-! ## Words and leaves -/

@[simp] theorem TypeKind.ofWord?_word (k : TypeKind) : ofWord? k.word = some k := by
  cases k <;> rfl

namespace Leaf

/-- A leaf is an object, so there are steps to read it. -/
theorem exists_steps (l : Leaf) {n : Nat} (h : l.encode.Within n) : ∃ m, n = m + 1 := by
  cases l with
  | _ =>
    obtain ⟨m, hm, -⟩ := h.object
    exact ⟨m, hm⟩

theorem decodeKind_encode (l : Leaf) (h : l.Finite) (n : Nat) : decodeKind (n + 1) l.encode = some (.leaf l) := by
  cases l with
  | float v =>
    rw [encode, decodeKind, Json.tagged_bind (by simp)]
    simp [decode, Decoder.single_single h]
  | double v =>
    rw [encode, decodeKind, Json.tagged_bind (by simp)]
    simp [decode, Decoder.double_double h]
  | _ =>
    rw [encode, decodeKind, Json.tagged_bind (by simp)]
    simp [decode]

end Leaf

@[simp] theorem Decoder.list_ofStrings (ss : List String) : Decoder.list .string (.ofStrings ss) = some ss :=
  list_ofList fun s _ => string_string s

@[simp] theorem Decoder.orNull_ofStrings (o : Option String) : Decoder.orNull .string (.ofOption .string o) = some o :=
  orNull_ofOption nofun fun s _ => string_string s

@[simp] theorem Decoder.orNull_types (o : Option (List Ty)) :
    decodeTypes.orNull (.ofOption encodeTypes o) = some o :=
  orNull_ofOption nofun fun ts _ => decodeTypes_encode ts

@[simp] theorem Decoder.orNull_arguments (o : Option (List TypeArgument)) :
    (list TypeArgument.decode).orNull (.ofOption (.ofList TypeArgument.encode) o) = some o :=
  orNull_ofOption nofun fun _ _ => list_ofList fun a _ => a.decode_encode

@[simp] theorem Decoder.list_classes (cs : List ClassType) :
    list ClassType.decode (.ofList ClassType.encode cs) = some cs :=
  list_ofList fun c _ => c.decode_encode

/-! ## Statement lists that may be missing -/

section Statements

variable {α : Type} {k : String} {d : Decoder α} (b : Option (List Json))

@[simp] theorem find?_statementsMember (h : "statements" ≠ k) : (statementsMember b).find? k = some none := by
  rw [statementsMember, Members.find?_cons_of_ne h, Members.find?_nil]

@[simp] theorem nullable_statementsMember :
    (statementsMember b).nullable "statements" d = d.orNull (.ofOption .array b) :=
  Members.nullable_cons_self (Members.find?_nil _)

namespace ConstructorHead

variable (h : ConstructorHead) (j : Json)

@[simp] theorem decode_encode : decode (("member", j) :: (h.encodeMembers ++ statementsMember b)) = some h := by
  simp [decode, encodeMembers]

@[simp] theorem find?_member : (h.encodeMembers ++ statementsMember b).find? "member" = some none := by
  simp [encodeMembers]

@[simp] theorem nullable_statements :
    (h.encodeMembers ++ statementsMember b).nullable "statements" d = d.orNull (.ofOption .array b) := by
  simp [encodeMembers]

end ConstructorHead

namespace MethodHead

variable (h : MethodHead) (j : Json)

@[simp] theorem decode_encode : decode (("member", j) :: (h.encodeMembers ++ statementsMember b)) = some h := by
  simp [decode, encodeMembers]

@[simp] theorem find?_member : (h.encodeMembers ++ statementsMember b).find? "member" = some none := by
  simp [encodeMembers]

@[simp] theorem nullable_statements :
    (h.encodeMembers ++ statementsMember b).nullable "statements" d = d.orNull (.ofOption .array b) := by
  simp [encodeMembers]

end MethodHead

end Statements

/-! ## Records behind a tag -/

@[simp] theorem TypeDecl.find?_stmt (t : TypeDecl) : t.encodeMembers.find? "stmt" = some none := by
  obtain ⟨k, f, s, b⟩ := t
  cases b <;> simp [encodeMembers]

@[simp] theorem TypeDecl.find?_member (t : TypeDecl) : t.encodeMembers.find? "member" = some none := by
  obtain ⟨k, f, s, b⟩ := t
  cases b <;> simp [encodeMembers]

@[simp] theorem LocalDecl.find?_stmt (l : LocalDecl) : l.encodeMembers.find? "stmt" = some none := by
  obtain ⟨t, f, ds⟩ := l
  simp [encodeMembers]

/-- A type declaration is read behind the tag of a statement or a member as without it. -/
theorem decodeTypeMembers_tag (n : Nat) {k : String} (j : Json) (ms : Members) (hk : k = "stmt" ∨ k = "member") :
    decodeTypeMembers n ((k, j) :: ms) = decodeTypeMembers n ms := by
  cases n with
  | zero => rfl
  | succ n => rcases hk with rfl | rfl <;> simp [decodeTypeMembers]

/-- A declaration of variables is read behind the tag of a statement as without it. -/
theorem decodeLocalMembers_tag (n : Nat) (j : Json) (ms : Members) :
    decodeLocalMembers n (("stmt", j) :: ms) = decodeLocalMembers n ms := by
  cases n with
  | zero => rfl
  | succ n => simp [decodeLocalMembers]

theorem Expr.encode_ne_null (e : Expr) : e.encode ≠ .null := by
  obtain ⟨l, t, k⟩ := e
  intro heq
  cases heq

theorem Init.encode_ne_null (i : Init) : i.encode ≠ .null := by
  intro heq
  cases i with
  | expr e => cases heq
  | array is => cases heq

theorem Body.encode_ne_null (b : Body) : b.encode ≠ .null := by
  obtain ⟨s, bs, ms⟩ := b
  intro heq
  cases heq

/-! ## The tree

One case for each construct: its parts are finite and within the steps that are left, so they are read, and behind the
tag its members are found.  A construct whose members have a decoder of their own spends a step more
(`Within.record`). -/

mutual

theorem Expr.decodeExpr_encode : ∀ (e : Expr) {n : Nat}, FiniteParts e.parts → e.encode.Within n →
    decodeExpr n e.encode = some e
  | ⟨l, t, k⟩, n, hf, h => by
    obtain ⟨n, rfl, -, -, hn, -⟩ := h.object
    have hk := k.decodeKind_encode l t hf hn
    simp [Expr.encode, decodeExpr, hk]

/-- The kind of a node with the given line and type, which say nothing about it. -/
theorem ExprKind.decodeKind_encode (l : UInt32) (t : Ty) : ∀ (k : ExprKind) {n : Nat},
    FiniteParts (Expr.parts ⟨l, t, k⟩) → k.encode.Within n → decodeKind n k.encode = some k
  | .leaf lf, n, hf, h => by
    have hlf : lf.Finite := (finiteParts_cons.1 hf).1 lf rfl
    obtain ⟨n, rfl⟩ := lf.exists_steps h
    exact lf.decodeKind_encode hlf n
  | .field none m, n, _, h => by
    obtain ⟨n, rfl, -⟩ := h.object
    rw [ExprKind.encode, decodeKind, Json.tagged_bind (by simp)]
    simp [MemberRef.decode]
  | .field (some q) m, n, hf, h => by
    obtain ⟨-, hfq⟩ := finiteParts_cons.1 hf
    obtain ⟨n, rfl, -, hq, -⟩ := h.object
    have hq := q.decodeExpr_encode hfq hq
    rw [ExprKind.encode, decodeKind, Json.tagged_bind (by simp)]
    simp [MemberRef.decode, Decoder.orNull_of_ne_null q.encode_ne_null, hq]
  | .call q m ts as ps, n, hf, h => by
    simp only [Expr.parts, ExprKind.parts, finiteParts_cons, finiteParts_append] at hf
    obtain ⟨-, ⟨hfq, hfas⟩, -⟩ := hf
    obtain ⟨n, rfl, -, hq, -, -, -, -, has, -⟩ := h.record
    have hq := q.decodeExpr_encode hfq hq
    have has := decodeExprs_encode as hfas has
    rw [ExprKind.encode, decodeKind, Json.tagged_bind (by simp)]
    simp [decodeCall, MemberRef.decode, hq, has]
  | .delegate toSuper o d as ps, n, hf, h => by
    simp only [Expr.parts, ExprKind.parts, finiteParts_cons, finiteParts_append] at hf
    obtain ⟨-, hfas, -⟩ := hf
    obtain ⟨n, rfl, -, -, -, has, -⟩ := h.record
    have has := decodeExprs_encode as hfas has
    cases toSuper <;> rw [ExprKind.encode, decodeKind, Json.tagged_bind (by simp)] <;> simp [decodeDelegate, has]
  | .new d as ps none, n, hf, h => by
    simp only [Expr.parts, ExprKind.parts, finiteParts_cons, finiteParts_append] at hf
    obtain ⟨-, hfas, -⟩ := hf
    obtain ⟨n, rfl, -, -, has, -⟩ := h.record
    have has := decodeExprs_encode as hfas has
    rw [ExprKind.encode, decodeKind, Json.tagged_bind (by simp)]
    simp [decodeNew, has]
  | .new d as ps (some b), n, hf, h => by
    simp only [Expr.parts, ExprKind.parts, finiteParts_cons, finiteParts_append] at hf
    obtain ⟨-, ⟨hfas, -⟩, hfb⟩ := hf
    obtain ⟨n, rfl, -, -, has, -, hb, -⟩ := h.record
    have has := decodeExprs_encode as hfas has
    have hb := b.decodeBody_encode hfb hb
    rw [ExprKind.encode, decodeKind, Json.tagged_bind (by simp)]
    simp [decodeNew, Decoder.orNull_of_ne_null b.encode_ne_null, has, hb]
  | .newArray ds, n, hf, h => by
    obtain ⟨-, hfds⟩ := finiteParts_cons.1 hf
    obtain ⟨n, rfl, -, hds, -⟩ := h.object
    have hds := decodeExprs_encode ds hfds hds
    rw [ExprKind.encode, decodeKind, Json.tagged_bind (by simp)]
    simp [hds]
  | .filledArray is, n, hf, h => by
    obtain ⟨-, hfis⟩ := finiteParts_cons.1 hf
    obtain ⟨n, rfl, -, his, -⟩ := h.object
    have his := decodeInits_encode is hfis his
    rw [ExprKind.encode, decodeKind, Json.tagged_bind (by simp)]
    simp [his]
  | .binary o x y, n, hf, h => by
    simp only [Expr.parts, ExprKind.parts, finiteParts_cons, finiteParts_append] at hf
    obtain ⟨-, hfx, hfy⟩ := hf
    obtain ⟨n, rfl, -, -, hx, hy, -⟩ := h.object
    have hx := x.decodeExpr_encode hfx hx
    have hy := y.decodeExpr_encode hfy hy
    rw [ExprKind.encode, decodeKind, Json.tagged_bind (by simp)]
    simp [BinaryOperator.ofWord?_word, hx, hy]
  | .unary side o x, n, hf, h => by
    obtain ⟨-, hfx⟩ := finiteParts_cons.1 hf
    obtain ⟨n, rfl, -, -, hx, -⟩ := h.record
    have hx := x.decodeExpr_encode hfx hx
    cases side <;> rw [ExprKind.encode, decodeKind, Json.tagged_bind (by simp)] <;>
      simp [decodeUnary, UnaryOperator.ofWord?_word, hx]
  | .instanceOf x u, n, hf, h => by
    obtain ⟨-, hfx⟩ := finiteParts_cons.1 hf
    obtain ⟨n, rfl, -, hx, -⟩ := h.object
    have hx := x.decodeExpr_encode hfx hx
    rw [ExprKind.encode, decodeKind, Json.tagged_bind (by simp)]
    simp [hx]
  | .conditional c x y, n, hf, h => by
    simp only [Expr.parts, ExprKind.parts, finiteParts_cons, finiteParts_append] at hf
    obtain ⟨-, ⟨hfc, hfx⟩, hfy⟩ := hf
    obtain ⟨n, rfl, -, hc, hx, hy, -⟩ := h.object
    have hc := c.decodeExpr_encode hfc hc
    have hx := x.decodeExpr_encode hfx hx
    have hy := y.decodeExpr_encode hfy hy
    rw [ExprKind.encode, decodeKind, Json.tagged_bind (by simp)]
    simp [hc, hx, hy]
  | .index a i, n, hf, h => by
    simp only [Expr.parts, ExprKind.parts, finiteParts_cons, finiteParts_append] at hf
    obtain ⟨-, hfa, hfi⟩ := hf
    obtain ⟨n, rfl, -, ha, hi, -⟩ := h.object
    have ha := a.decodeExpr_encode hfa ha
    have hi := i.decodeExpr_encode hfi hi
    rw [ExprKind.encode, decodeKind, Json.tagged_bind (by simp)]
    simp [ha, hi]
  | .cast x, n, hf, h => by
    -- The operand stands in the position of the cast, with the same expression under all casts.
    have hfx : FiniteParts x.parts := by
      rw [Expr.parts, ExprKind.parts_cast, finiteParts_cons] at hf
      rw [Expr.parts_eq, finiteParts_cons]
      exact hf
    obtain ⟨n, rfl, -, hx, -⟩ := h.object
    have hx := x.decodeExpr_encode hfx hx
    rw [ExprKind.encode, decodeKind, Json.tagged_bind (by simp)]
    simp [hx]
  | .lambda ps none, n, _, h => by
    obtain ⟨n, rfl, -⟩ := h.object
    rw [ExprKind.encode, decodeKind, Json.tagged_bind (by simp)]
    simp [Json.ofOption]
  | .lambda ps (some ss), n, hf, h => by
    obtain ⟨-, hfss⟩ := finiteParts_cons.1 hf
    obtain ⟨n, rfl, -, -, hss, -⟩ := h.object
    have hss := decodeStmts_encode ss hfss hss
    rw [ExprKind.encode, decodeKind, Json.tagged_bind (by simp)]
    simp [Json.ofOption, hss]
  | .methodRef q s, n, hf, h => by
    obtain ⟨-, hfq⟩ := finiteParts_cons.1 hf
    obtain ⟨n, rfl, -, hq, -⟩ := h.object
    have hq := q.decodeExpr_encode hfq hq
    rw [ExprKind.encode, decodeKind, Json.tagged_bind (by simp)]
    simp [hq]

theorem decodeExprs_encode : ∀ (es : List Expr) {n : Nat}, FiniteParts (argumentParts es) →
    (Json.array (encodeExprs es)).Within n → Decoder.list (decodeExpr n) (.array (encodeExprs es)) = some es
  | [], n, _, _ => Decoder.list_nil _
  | e :: es, n, hf, h => by
    obtain ⟨hfe, hfes⟩ := finiteParts_append.1 hf
    have he := e.decodeExpr_encode hfe h.head
    have hes := decodeExprs_encode es hfes h.tail
    exact Decoder.list_cons_of he hes

theorem Init.decodeInit_encode : ∀ (i : Init) {n : Nat}, FiniteParts i.parts → i.encode.Within n →
    decodeInit n i.encode = some i
  | .expr e, n, hf, h => by
    obtain ⟨n, rfl, -, he, -⟩ := h.object
    have he := e.decodeExpr_encode hf he
    rw [Init.encode, decodeInit, Json.tagged_bind (by simp)]
    simp [he]
  | .array is, n, hf, h => by
    obtain ⟨n, rfl, -, his, -⟩ := h.object
    have his := decodeInits_encode is hf his
    rw [Init.encode, decodeInit, Json.tagged_bind (by simp)]
    simp [his]

theorem decodeInits_encode : ∀ (is : List Init) {n : Nat}, FiniteParts (initParts is) →
    (Json.array (encodeInits is)).Within n → Decoder.list (decodeInit n) (.array (encodeInits is)) = some is
  | [], n, _, _ => Decoder.list_nil _
  | i :: is, n, hf, h => by
    obtain ⟨hfi, hfis⟩ := finiteParts_append.1 hf
    have hi := i.decodeInit_encode hfi h.head
    have his := decodeInits_encode is hfis h.tail
    exact Decoder.list_cons_of hi his

theorem Declarator.decodeDeclarator_encode : ∀ (d : Declarator) {n : Nat}, FiniteParts d.parts →
    d.encode.Within n → decodeDeclarator n d.encode = some d
  | ⟨s, d, none⟩, n, _, h => by
    obtain ⟨n, rfl, -⟩ := h.object
    simp [Declarator.encode, decodeDeclarator]
  | ⟨s, d, some i⟩, n, hf, h => by
    obtain ⟨n, rfl, -, -, hi, -⟩ := h.object
    have hi := i.decodeInit_encode hf hi
    simp [Declarator.encode, decodeDeclarator, Decoder.orNull_of_ne_null i.encode_ne_null, hi]

theorem decodeDeclarators_encode : ∀ (ds : List Declarator) {n : Nat}, FiniteParts (declaratorParts ds) →
    (Json.array (encodeDeclarators ds)).Within n →
    Decoder.list (decodeDeclarator n) (.array (encodeDeclarators ds)) = some ds
  | [], n, _, _ => Decoder.list_nil _
  | d :: ds, n, hf, h => by
    obtain ⟨hfd, hfds⟩ := finiteParts_append.1 hf
    have hd := d.decodeDeclarator_encode hfd h.head
    have hds := decodeDeclarators_encode ds hfds h.tail
    exact Decoder.list_cons_of hd hds

theorem LocalDecl.decodeLocalMembers_encode : ∀ (l : LocalDecl) {n : Nat}, FiniteParts l.parts →
    l.encodeMembers.Within n → decodeLocalMembers (n + 1) l.encodeMembers = some l
  | ⟨t, f, ds⟩, n, hf, ⟨_, _, hn, _⟩ => by
    obtain ⟨-, hfds⟩ := finiteParts_cons.1 hf
    have hds := decodeDeclarators_encode ds hfds hn
    simp [LocalDecl.encodeMembers, decodeLocalMembers, hds]

theorem decodeLocals_encode : ∀ (ls : List LocalDecl) {n : Nat}, FiniteParts (localParts ls) →
    (Json.array (encodeLocals ls)).Within n → Decoder.list (decodeLocal n) (.array (encodeLocals ls)) = some ls
  | [], n, _, _ => Decoder.list_nil _
  | l :: ls, n, hf, h => by
    obtain ⟨hfl, hfls⟩ := finiteParts_append.1 hf
    have hl : decodeLocal n (.object l.encodeMembers) = some l := by
      obtain ⟨n, rfl, hn⟩ := h.head.record
      exact l.decodeLocalMembers_encode hfl hn
    have hls := decodeLocals_encode ls hfls h.tail
    exact Decoder.list_cons_of hl hls

theorem Stmt.decodeStmt_encode : ∀ (s : Stmt) {n : Nat}, FiniteParts s.parts → s.encode.Within n →
    decodeStmt n s.encode = some s
  | .expr e, n, hf, h => by
    obtain ⟨n, rfl, -, he, -⟩ := h.object
    have he := e.decodeExpr_encode hf he
    rw [Stmt.encode, decodeStmt, Json.tagged_bind (by simp)]
    simp [he]
  | .decl l, n, hf, h => by
    obtain ⟨n, rfl, -, hl⟩ := h.record
    have hl := l.decodeLocalMembers_encode hf hl
    rw [Stmt.encode, decodeStmt, Json.tagged_bind (by simp)]
    simp [decodeLocalMembers_tag, hl]
  | .ret none, n, _, h => by
    obtain ⟨n, rfl, -⟩ := h.object
    rw [Stmt.encode, decodeStmt, Json.tagged_bind (by simp)]
    simp
  | .ret (some e), n, hf, h => by
    obtain ⟨n, rfl, -, he, -⟩ := h.object
    have he := e.decodeExpr_encode hf he
    rw [Stmt.encode, decodeStmt, Json.tagged_bind (by simp)]
    simp [he]
  | .throw e, n, hf, h => by
    obtain ⟨n, rfl, -, he, -⟩ := h.object
    have he := e.decodeExpr_encode hf he
    rw [Stmt.encode, decodeStmt, Json.tagged_bind (by simp)]
    simp [he]
  | .ifThen c ss none, n, hf, h => by
    obtain ⟨hfc, hfss⟩ := finiteParts_append.1 hf
    obtain ⟨n, rfl, -, hc, hss, -⟩ := h.object
    have hc := c.decodeExpr_encode hfc hc
    have hss := decodeStmts_encode ss hfss hss
    rw [Stmt.encode, decodeStmt, Json.tagged_bind (by simp)]
    simp [hc, hss]
  | .ifThen c ss (some ts), n, hf, h => by
    simp only [Stmt.parts, finiteParts_append] at hf
    obtain ⟨⟨hfc, hfss⟩, hfts⟩ := hf
    obtain ⟨n, rfl, -, hc, hss, hts, -⟩ := h.object
    have hc := c.decodeExpr_encode hfc hc
    have hss := decodeStmts_encode ss hfss hss
    have hts := decodeStmts_encode ts hfts hts
    rw [Stmt.encode, decodeStmt, Json.tagged_bind (by simp)]
    simp [hc, hss, hts]
  | .whileLoop test c ss, n, hf, h => by
    obtain ⟨hfc, hfss⟩ := finiteParts_append.1 hf
    obtain ⟨n, rfl, -, hc, hss, -⟩ := h.object
    have hc := c.decodeExpr_encode hfc hc
    have hss := decodeStmts_encode ss hfss hss
    cases test <;> rw [Stmt.encode, decodeStmt, Json.tagged_bind (by simp)] <;> simp [hc, hss]
  | .forLoop is none us ss, n, hf, h => by
    simp only [Stmt.parts, finiteParts_append] at hf
    obtain ⟨⟨hfis, hfus⟩, hfss⟩ := hf
    obtain ⟨n, rfl, -, his, -, hus, hss, -⟩ := h.object
    have his := decodeStmts_encode is hfis his
    have hus := decodeExprs_encode us hfus hus
    have hss := decodeStmts_encode ss hfss hss
    rw [Stmt.encode, decodeStmt, Json.tagged_bind (by simp)]
    simp [his, hus, hss]
  | .forLoop is (some c) us ss, n, hf, h => by
    simp only [Stmt.parts, finiteParts_append] at hf
    obtain ⟨⟨⟨hfis, hfc⟩, hfus⟩, hfss⟩ := hf
    obtain ⟨n, rfl, -, his, hc, hus, hss, -⟩ := h.object
    have his := decodeStmts_encode is hfis his
    have hc := c.decodeExpr_encode hfc hc
    have hus := decodeExprs_encode us hfus hus
    have hss := decodeStmts_encode ss hfss hss
    rw [Stmt.encode, decodeStmt, Json.tagged_bind (by simp)]
    simp [Decoder.orNull_of_ne_null c.encode_ne_null, his, hc, hus, hss]
  | .forEach t s e ss, n, hf, h => by
    simp only [Stmt.parts, finiteParts_cons, finiteParts_append] at hf
    obtain ⟨-, hfe, hfss⟩ := hf
    obtain ⟨n, rfl, -, -, -, he, hss, -⟩ := h.object
    have he := e.decodeExpr_encode hfe he
    have hss := decodeStmts_encode ss hfss hss
    rw [Stmt.encode, decodeStmt, Json.tagged_bind (by simp)]
    simp [he, hss]
  | .switch e bs, n, hf, h => by
    obtain ⟨hfe, hfbs⟩ := finiteParts_append.1 hf
    obtain ⟨n, rfl, -, he, hbs, -⟩ := h.object
    have he := e.decodeExpr_encode hfe he
    have hbs := decodeBlocks_encode bs hfbs hbs
    rw [Stmt.encode, decodeStmt, Json.tagged_bind (by simp)]
    simp [he, hbs]
  | .synchronized e ss, n, hf, h => by
    obtain ⟨hfe, hfss⟩ := finiteParts_append.1 hf
    obtain ⟨n, rfl, -, he, hss, -⟩ := h.object
    have he := e.decodeExpr_encode hfe he
    have hss := decodeStmts_encode ss hfss hss
    rw [Stmt.encode, decodeStmt, Json.tagged_bind (by simp)]
    simp [he, hss]
  | .tryBlock ls ss cs none, n, hf, h => by
    simp only [Stmt.parts, finiteParts_append] at hf
    obtain ⟨⟨hfls, hfss⟩, hfcs⟩ := hf
    obtain ⟨n, rfl, -, hls, hss, hcs, -⟩ := h.object
    have hls := decodeLocals_encode ls hfls hls
    have hss := decodeStmts_encode ss hfss hss
    have hcs := decodeCatches_encode cs hfcs hcs
    rw [Stmt.encode, decodeStmt, Json.tagged_bind (by simp)]
    simp [hls, hss, hcs]
  | .tryBlock ls ss cs (some fs), n, hf, h => by
    simp only [Stmt.parts, finiteParts_append] at hf
    obtain ⟨⟨⟨hfls, hfss⟩, hfcs⟩, hffs⟩ := hf
    obtain ⟨n, rfl, -, hls, hss, hcs, hfs, -⟩ := h.object
    have hls := decodeLocals_encode ls hfls hls
    have hss := decodeStmts_encode ss hfss hss
    have hcs := decodeCatches_encode cs hfcs hcs
    have hfs := decodeStmts_encode fs hffs hfs
    rw [Stmt.encode, decodeStmt, Json.tagged_bind (by simp)]
    simp [hls, hss, hcs, hfs]
  | .block none ss, n, hf, h => by
    obtain ⟨n, rfl, -, hss, -⟩ := h.object
    have hss := decodeStmts_encode ss hf hss
    rw [Stmt.encode, decodeStmt, Json.tagged_bind (by simp)]
    simp [hss]
  | .block (some s) ss, n, hf, h => by
    obtain ⟨n, rfl, -, -, hss, -⟩ := h.object
    have hss := decodeStmts_encode ss hf hss
    rw [Stmt.encode, decodeStmt, Json.tagged_bind (by simp)]
    simp [hss]
  | .type t, n, hf, h => by
    obtain ⟨n, rfl, -, ht⟩ := h.record
    have ht := t.decodeTypeMembers_encode hf ht
    rw [Stmt.encode, decodeStmt, Json.tagged_bind (by simp)]
    simp [decodeTypeMembers_tag, ht]
  | .assert c none, n, hf, h => by
    obtain ⟨n, rfl, -, hc, -⟩ := h.object
    have hc := c.decodeExpr_encode hf hc
    rw [Stmt.encode, decodeStmt, Json.tagged_bind (by simp)]
    simp [hc]
  | .assert c (some m), n, hf, h => by
    obtain ⟨hfc, hfm⟩ := finiteParts_append.1 hf
    obtain ⟨n, rfl, -, hc, hm, -⟩ := h.object
    have hc := c.decodeExpr_encode hfc hc
    have hm := m.decodeExpr_encode hfm hm
    rw [Stmt.encode, decodeStmt, Json.tagged_bind (by simp)]
    simp [Decoder.orNull_of_ne_null m.encode_ne_null, hc, hm]
  | .jump .breaks l, n, _, h => by
    obtain ⟨n, rfl, -⟩ := h.object
    rw [Stmt.encode, decodeStmt, Json.tagged_bind (by simp)]
    simp
  | .jump .continues l, n, _, h => by
    obtain ⟨n, rfl, -⟩ := h.object
    rw [Stmt.encode, decodeStmt, Json.tagged_bind (by simp)]
    simp
  | .bytecode s, n, _, h => by
    obtain ⟨n, rfl, -⟩ := h.object
    rw [Stmt.encode, decodeStmt, Json.tagged_bind (by simp)]
    simp

theorem decodeStmts_encode : ∀ (ss : List Stmt) {n : Nat}, FiniteParts (stmtParts ss) →
    (Json.array (encodeStmts ss)).Within n → Decoder.list (decodeStmt n) (.array (encodeStmts ss)) = some ss
  | [], n, _, _ => Decoder.list_nil _
  | s :: ss, n, hf, h => by
    obtain ⟨hfs, hfss⟩ := finiteParts_append.1 hf
    have hs := s.decodeStmt_encode hfs h.head
    have hss := decodeStmts_encode ss hfss h.tail
    exact Decoder.list_cons_of hs hss

theorem decodeLabels_encode : ∀ (ls : List (Option Expr)) {n : Nat}, FiniteParts (labelParts ls) →
    (Json.array (encodeLabels ls)).Within n → Decoder.list (decodeLabel n) (.array (encodeLabels ls)) = some ls
  | [], n, _, _ => Decoder.list_nil _
  | none :: ls, n, hf, h => by
    have hl : decodeLabel n (.object [("label", .string "default")]) = some none := by
      obtain ⟨n, rfl, -⟩ := h.head.object
      rfl
    have hls := decodeLabels_encode ls hf h.tail
    exact Decoder.list_cons_of hl hls
  | some e :: ls, n, hf, h => by
    obtain ⟨hfe, hfls⟩ := finiteParts_append.1 hf
    have hl : decodeLabel n (.object [("label", .string "case"), ("expression", e.encode)]) = some (some e) := by
      obtain ⟨n, rfl, -, he, -⟩ := h.head.object
      have he := e.decodeExpr_encode hfe he
      simp [decodeLabel, he]
    have hls := decodeLabels_encode ls hfls h.tail
    exact Decoder.list_cons_of hl hls

theorem SwitchBlock.decodeBlock_encode : ∀ (b : SwitchBlock) {n : Nat}, FiniteParts b.parts → b.encode.Within n →
    decodeBlock n b.encode = some b
  | ⟨ls, ss⟩, n, hf, h => by
    obtain ⟨hfls, hfss⟩ := finiteParts_append.1 hf
    obtain ⟨n, rfl, hls, hss, -⟩ := h.object
    have hls := decodeLabels_encode ls hfls hls
    have hss := decodeStmts_encode ss hfss hss
    simp [SwitchBlock.encode, decodeBlock, hls, hss]

theorem decodeBlocks_encode : ∀ (bs : List SwitchBlock) {n : Nat}, FiniteParts (blockParts bs) →
    (Json.array (encodeBlocks bs)).Within n → Decoder.list (decodeBlock n) (.array (encodeBlocks bs)) = some bs
  | [], n, _, _ => Decoder.list_nil _
  | b :: bs, n, hf, h => by
    obtain ⟨hfb, hfbs⟩ := finiteParts_append.1 hf
    have hb := b.decodeBlock_encode hfb h.head
    have hbs := decodeBlocks_encode bs hfbs h.tail
    exact Decoder.list_cons_of hb hbs

theorem CatchClause.decodeCatch_encode : ∀ (c : CatchClause) {n : Nat}, FiniteParts c.parts → c.encode.Within n →
    decodeCatch n c.encode = some c
  | ⟨ts, s, ss⟩, n, hf, h => by
    obtain ⟨n, rfl, -, -, hss, -⟩ := h.object
    have hss := decodeStmts_encode ss hf hss
    simp [CatchClause.encode, decodeCatch, hss]

theorem decodeCatches_encode : ∀ (cs : List CatchClause) {n : Nat}, FiniteParts (catchParts cs) →
    (Json.array (encodeCatches cs)).Within n → Decoder.list (decodeCatch n) (.array (encodeCatches cs)) = some cs
  | [], n, _, _ => Decoder.list_nil _
  | c :: cs, n, hf, h => by
    obtain ⟨hfc, hfcs⟩ := finiteParts_append.1 hf
    have hc := c.decodeCatch_encode hfc h.head
    have hcs := decodeCatches_encode cs hfcs h.tail
    exact Decoder.list_cons_of hc hcs

theorem TypeDecl.decodeTypeMembers_encode : ∀ (t : TypeDecl) {n : Nat}, FiniteParts t.parts →
    t.encodeMembers.Within n → decodeTypeMembers (n + 1) t.encodeMembers = some t
  | ⟨k, f, s, none⟩, n, _, _ => by simp [TypeDecl.encodeMembers, decodeTypeMembers]
  | ⟨k, f, s, some b⟩, n, hf, ⟨_, _, _, hn, _⟩ => by
    have hb := b.decodeBody_encode hf hn
    simp [TypeDecl.encodeMembers, decodeTypeMembers, Decoder.orNull_of_ne_null b.encode_ne_null, hb]

theorem Body.decodeBody_encode : ∀ (b : Body) {n : Nat}, FiniteParts b.parts → b.encode.Within n →
    decodeBody n b.encode = some b
  | ⟨s, b, ms⟩, n, hf, h => by
    obtain ⟨n, rfl, -, -, hms, -⟩ := h.object
    have hms := decodeMembers_encode ms hf hms
    simp [Body.encode, decodeBody, hms]

theorem Member.decodeMember_encode : ∀ (m : Member) {n : Nat}, FiniteParts m.parts → m.encode.Within n →
    decodeMember n m.encode = some m
  | .field f t ds, n, hf, h => by
    obtain ⟨-, hfds⟩ := finiteParts_cons.1 hf
    obtain ⟨n, rfl, -, -, -, hds, -⟩ := h.object
    have hds := decodeDeclarators_encode ds hfds hds
    rw [Member.encode, decodeMember, Json.tagged_bind (by simp)]
    simp [hds]
  | .staticInit b none, n, _, h => by
    obtain ⟨n, rfl, -⟩ := h.object
    rw [Member.encode, decodeMember, Json.tagged_bind (by simp)]
    simp [Json.ofOption]
  | .staticInit b (some ss), n, hf, h => by
    obtain ⟨n, rfl, -, -, hss, -⟩ := h.object
    have hss := decodeStmts_encode ss hf hss
    rw [Member.encode, decodeMember, Json.tagged_bind (by simp)]
    simp [Json.ofOption, hss]
  | .constructor c none, n, _, h => by
    obtain ⟨n, rfl, -⟩ := h.object
    rw [Member.encode, decodeMember, Json.tagged_bind (by simp)]
    simp [Json.ofOption]
  | .constructor c (some ss), n, hf, h => by
    obtain ⟨n, rfl, -, -, -, -, -, hss, -⟩ := h.object
    have hss := decodeStmts_encode ss hf hss
    rw [Member.encode, decodeMember, Json.tagged_bind (by simp)]
    simp [Json.ofOption, hss]
  | .method c none, n, _, h => by
    obtain ⟨n, rfl, -⟩ := h.object
    rw [Member.encode, decodeMember, Json.tagged_bind (by simp)]
    simp [Json.ofOption]
  | .method c (some ss), n, hf, h => by
    obtain ⟨-, hfss⟩ := finiteParts_cons.1 hf
    obtain ⟨n, rfl, -, -, -, -, -, -, -, hss, -⟩ := h.object
    have hss := decodeStmts_encode ss hfss hss
    rw [Member.encode, decodeMember, Json.tagged_bind (by simp)]
    simp [Json.ofOption, hss]
  | .type t, n, hf, h => by
    obtain ⟨n, rfl, -, ht⟩ := h.record
    have ht := t.decodeTypeMembers_encode hf ht
    rw [Member.encode, decodeMember, Json.tagged_bind (by simp)]
    simp [decodeTypeMembers_tag, ht]

theorem decodeMembers_encode : ∀ (ms : List Member) {n : Nat}, FiniteParts (memberParts ms) →
    (Json.array (encodeMemberList ms)).Within n →
    Decoder.list (decodeMember n) (.array (encodeMemberList ms)) = some ms
  | [], n, _, _ => Decoder.list_nil _
  | m :: ms, n, hf, h => by
    obtain ⟨hfm, hfms⟩ := finiteParts_append.1 hf
    have hm := m.decodeMember_encode hfm h.head
    have hms := decodeMembers_encode ms hfms h.tail
    exact Decoder.list_cons_of hm hms

end

end Recast
