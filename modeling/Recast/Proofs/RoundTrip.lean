import Recast.Proofs.TreesReread
/-!
# Round trip — a tree survives its JSON form

Every decoder takes steps enough for what its encoder writes, so types, expressions, statements, declarations and
whole units come back as they were, and no two of them are written alike (`trees_survive_json`).
-/
namespace Recast

/-- **The values of a kind survive JSON**: what is written is read as itself, and different values are written
differently. -/
structure SurvivesJson {α : Type} (encode : α → Json) (decode : Decoder α) (p : α → Prop) : Prop where
  decode_encode : ∀ x, p x → decode (encode x) = some x
  encode_injective : ∀ x y, p x → p y → encode x = encode y → x = y

/-- Values that are read as themselves are not written alike. -/
theorem SurvivesJson.of_decode {α : Type} {encode : α → Json} {decode : Decoder α} {p : α → Prop}
    (h : ∀ x, p x → decode (encode x) = some x) : SurvivesJson encode decode p where
  decode_encode := h
  encode_injective x y hx hy heq := by
    have hx' : decode (encode y) = some x := heq ▸ h x hx
    exact Option.some.inj (hx'.symm.trans (h y hy))

/-! ## Decoders with their own steps -/

theorem within_treeSteps (j : Json) : j.Within (treeSteps j) := by
  unfold Json.Within treeSteps
  omega

theorem Ty.survivesJson : SurvivesJson Ty.encode Ty.decode (fun _ => True) :=
  .of_decode fun t _ => t.decode_encode

theorem ClassType.survivesJson : SurvivesJson ClassType.encode ClassType.decode (fun _ => True) :=
  .of_decode fun c _ => c.decode_encode

theorem TypeArgument.survivesJson : SurvivesJson TypeArgument.encode TypeArgument.decode (fun _ => True) :=
  .of_decode fun a _ => a.decode_encode

theorem TypeBounds.survivesJson : SurvivesJson TypeBounds.encode TypeBounds.decode (fun _ => True) :=
  .of_decode fun b _ => b.decode_encode

theorem Expr.survivesJson : SurvivesJson Expr.encode Expr.decode (FiniteParts ·.parts) :=
  .of_decode fun e he => e.decodeExpr_encode he (within_treeSteps _)

theorem Init.survivesJson : SurvivesJson Init.encode Init.decode (FiniteParts ·.parts) :=
  .of_decode fun i hi => i.decodeInit_encode hi (within_treeSteps _)

theorem Stmt.survivesJson : SurvivesJson Stmt.encode Stmt.decode (FiniteParts ·.parts) :=
  .of_decode fun s hs => s.decodeStmt_encode hs (within_treeSteps _)

theorem Member.survivesJson : SurvivesJson Member.encode Member.decode (FiniteParts ·.parts) :=
  .of_decode fun m hm => m.decodeMember_encode hm (within_treeSteps _)

theorem Body.survivesJson : SurvivesJson Body.encode Body.decode (FiniteParts ·.parts) :=
  .of_decode fun b hb => b.decodeBody_encode hb (within_treeSteps _)

theorem TypeDecl.survivesJson : SurvivesJson TypeDecl.encode TypeDecl.decode (FiniteParts ·.parts) :=
  .of_decode fun t ht => by
    obtain ⟨n, hn, hw⟩ := (within_treeSteps t.encode).object
    have hdecl := t.decodeTypeMembers_encode ht hw
    rw [← hn] at hdecl
    exact hdecl

/-- The types of a unit are read one by one. -/
theorem CompilationUnit.survivesJson :
    SurvivesJson CompilationUnit.encode CompilationUnit.decode (FiniteParts ·.parts) :=
  .of_decode fun u hu => by
    have htypes : Decoder.list TypeDecl.decode (.ofList TypeDecl.encode u.types) = some u.types := by
      refine Decoder.list_ofList fun t ht => TypeDecl.survivesJson.decode_encode t fun p hp => hu p ?_
      exact List.mem_flatMap.2 ⟨t, ht, hp⟩
    simp [CompilationUnit.decode, CompilationUnit.encode, htypes]

/-! ## What is easily taken for something else -/

theorem ClassType.encode_raw_ne_diamond (c : ClassType) : c.raw.encode ≠ (c.withArguments []).encode := by
  intro heq
  have harguments : c.raw = c.withArguments [] := ClassType.survivesJson.encode_injective _ _ trivial trivial heq
  exact nomatch congrArg ClassType.arguments harguments

theorem Ty.encode_withDimension_ne (t : Ty) {d e : UInt32} (h : d ≠ e) :
    (t.withDimension d).encode ≠ (t.withDimension e).encode := by
  intro heq
  have hty : t.withDimension d = t.withDimension e := Ty.survivesJson.encode_injective _ _ trivial trivial heq
  have hdimension := congrArg Ty.dimension hty
  rw [Ty.dimension_withDimension, Ty.dimension_withDimension] at hdimension
  exact h hdimension

theorem TypeArgument.encode_any_ne {a : TypeArgument} (h : a ≠ .any) : TypeArgument.any.encode ≠ a.encode := by
  intro heq
  exact h (TypeArgument.survivesJson.encode_injective _ _ trivial trivial heq).symm

/-- A place for statements that may be missing. -/
inductive StatementsPlace
  | lambda (parameters : List String)
  | elseBranch (condition : Expr) (whenTrue : List Stmt)
  | finish (resources : List LocalDecl) (body : List Stmt) (catches : List CatchClause)
  | staticInit (bounds : TypeBounds)
  | constructor (head : ConstructorHead)
  | method (head : MethodHead)

namespace StatementsPlace

/-- The construct with the statements that stand in the place. -/
def encode : StatementsPlace → Option (List Stmt) → Json
  | lambda ps, b => (ExprKind.lambda ps b).encode
  | elseBranch c ss, b => (Stmt.ifThen c ss b).encode
  | finish ls ss cs, b => (Stmt.tryBlock ls ss cs b).encode
  | staticInit bs, b => (Member.staticInit bs b).encode
  | constructor h, b => (Member.constructor h b).encode
  | method h, b => (Member.method h b).encode

/-- Statements that are missing and statements that are there are told apart by the shape of one member. -/
theorem encode_none_ne (p : StatementsPlace) (ss : List Stmt) : p.encode none ≠ p.encode (some ss) := by
  cases p with
  | lambda ps => simp [encode, ExprKind.encode, statementsMember, Json.ofOption]
  | elseBranch c us => simp [encode, Stmt.encode]
  | finish ls us cs => simp [encode, Stmt.encode]
  | staticInit bs => simp [encode, Member.encode, statementsMember, Json.ofOption]
  | constructor h => simp [encode, Member.encode, statementsMember, Json.ofOption]
  | method h => simp [encode, Member.encode, statementsMember, Json.ofOption]

end StatementsPlace

/-! ## The round trip -/

/-- **A tree survives its JSON form**: types, and trees in which every float and every double is finite, are read back
as they were and are not written alike unless they are equal.  So no raw type runs together with the diamond, no
dimension with another one, no wildcard with an argument that has a type, and no missing statements with statements. -/
theorem trees_survive_json :
    (SurvivesJson Ty.encode Ty.decode (fun _ => True) ∧
      SurvivesJson ClassType.encode ClassType.decode (fun _ => True) ∧
      SurvivesJson TypeArgument.encode TypeArgument.decode (fun _ => True) ∧
      SurvivesJson TypeBounds.encode TypeBounds.decode (fun _ => True)) ∧
    (SurvivesJson Expr.encode Expr.decode (FiniteParts ·.parts) ∧
      SurvivesJson Init.encode Init.decode (FiniteParts ·.parts) ∧
      SurvivesJson Stmt.encode Stmt.decode (FiniteParts ·.parts) ∧
      SurvivesJson Member.encode Member.decode (FiniteParts ·.parts) ∧
      SurvivesJson Body.encode Body.decode (FiniteParts ·.parts) ∧
      SurvivesJson TypeDecl.encode TypeDecl.decode (FiniteParts ·.parts) ∧
      SurvivesJson CompilationUnit.encode CompilationUnit.decode (FiniteParts ·.parts)) ∧
    (∀ c : ClassType, c.raw.encode ≠ (c.withArguments []).encode) ∧
    (∀ (t : Ty) (d e : UInt32), d ≠ e → (t.withDimension d).encode ≠ (t.withDimension e).encode) ∧
    (∀ a : TypeArgument, a ≠ .any → TypeArgument.any.encode ≠ a.encode) ∧
    ∀ (p : StatementsPlace) (ss : List Stmt), p.encode none ≠ p.encode (some ss) := by
  refine ⟨⟨Ty.survivesJson, ClassType.survivesJson, TypeArgument.survivesJson, TypeBounds.survivesJson⟩,
    ⟨Expr.survivesJson, Init.survivesJson, Stmt.survivesJson, Member.survivesJson, Body.survivesJson,
      TypeDecl.survivesJson, CompilationUnit.survivesJson⟩, ?_, ?_, ?_, ?_⟩
  · exact ClassType.encode_raw_ne_diamond
  · exact fun t _ _ h => t.encode_withDimension_ne h
  · exact fun _ h => TypeArgument.encode_any_ne h
  · exact StatementsPlace.encode_none_ne

/-- `class Shelf<T extends Number> { List<?> items = new ArrayList<>(); static { } int width() { return 7; } }` -/
def shelf : CompilationUnit :=
  ⟨[⟨.ordinary, AccessFlag.isPublic, "shop/Shelf", some ⟨"shop/Shelf", .ofList [("T", [.ofClass "java/lang/Number"])],
    [.field 0 (.object ⟨"java/util/List", some [.any], 0⟩)
      [⟨"items", 0, some (.expr ⟨3, .object ⟨"java/util/ArrayList", some [], 0⟩, .new "()V" [] [] none⟩)⟩],
     .staticInit .empty (some []),
     .method ⟨0, "width", "()I", .empty, .ofPrimitive .int, none⟩
      (some [.ret (some ⟨5, .ofPrimitive .int, .leaf (.int 7)⟩)])]⟩⟩]⟩

theorem trees_survive_json_shelf :
    FiniteParts shelf.parts ∧ CompilationUnit.decode shelf.encode = some shelf := by
  have hshelf : FiniteParts shelf.parts := by
    have hparts : shelf.parts =
        [.declared (.object ⟨"java/util/List", some [.any], 0⟩),
         .position ⟨3, .object ⟨"java/util/ArrayList", some [], 0⟩, .new "()V" [] [] none⟩,
         .declared (.ofPrimitive .int), .position ⟨5, .ofPrimitive .int, .leaf (.int 7)⟩] := rfl
    rw [hparts]
    simp [FiniteParts, Part.Finite, Expr.core, Leaf.Finite]
  obtain ⟨-, ⟨-, -, -, -, -, -, hunit⟩, -⟩ := trees_survive_json
  exact ⟨hshelf, hunit.decode_encode shelf hshelf⟩

end Recast
