import Mathlib.Data.List.Perm.Basic
import Recast.Proofs.Tour
/-!
# Bodies — a class body is reconciled by itself

A class body starts its members in scopes of their own, so nothing of what is around it gets in: in whatever scope a
tree is walked, each class body in it comes out as a run over that body alone leaves it.  The same at the top, where a
run over a unit is the runs over its bodies one after the other, and inside, where the bounds of a body reach its
fields and no other member.
-/
namespace Recast

/-- Whether the member is a field declaration. -/
def Member.isField : Member → Bool
  | .field .. => true
  | _ => false

/-- The class bodies among the nodes, each before those inside it. -/
def Node.bodies (xs : List Node) : List Body := xs.filterMap (·.body?)

namespace CastPass

variable (p : CastPass)

/-! ## Walks in a scope -/

/-- Statements walked in a scope.  They need no type from outside: what they declare has its own. -/
def walkStmts (sc : Scope) (ss : List Stmt) : Outcome (List Stmt) :=
  p.single (p.stepsOf (visitStmts p.rules.anonymous sc ss)) (reconcileStmts p.rules sc ss)

/-- An expression walked in a scope, in a slot or not. -/
def walkExpr (sc : Scope) (d : Option Demand) (e : Expr) : Outcome Expr :=
  p.single (p.stepsOf (e.visits p.rules.anonymous sc d)) (e.reconcile p.rules sc d)

/-- An initializer walked in a scope, for something of the required type. -/
def walkInit (sc : Scope) (required : Ty) (i : Init) : Outcome Init :=
  p.single (p.stepsOf (i.visits p.rules.anonymous sc required)) (i.reconcile p.rules sc required)

/-- A member walked in a body with these bounds. -/
def walkMember (bounds : TypeBounds) (m : Member) : Outcome Member :=
  p.single (p.stepsOf (m.visits p.rules.anonymous bounds)) (m.reconcile p.rules bounds)

theorem reconcile_eq_walkExpr (bounds : TypeBounds) (required : Ty) (e : Expr) (forced : Bool) :
    p.reconcile bounds required e forced = p.walkExpr (.ofBounds bounds) (some (.fit required forced)) e := rfl

variable {p}

/-! ## Bodies in a tree -/

/-- A run over this body alone ends with `b'`. -/
def Runs (p : CastPass) (b b' : Body) : Prop := ∃ report, (p.runBody b).result = .ok (report, b')

theorem runBody_ok_iff {b b' : Body} {report : CastReport} : (p.runBody b).result = .ok (report, b') ↔
    (b.visits p.rules.anonymous).findSome? (·.fault?) = none ∧
      report = .ofSteps (p.stepsOf (b.visits p.rules.anonymous)) ∧ b' = b.reconcile p.rules := by
  rw [← p.fault?_stepsOf]
  constructor
  · exact whole_ok
  · rintro ⟨hf, rfl, rfl⟩
    exact whole_of_no_fault p _ hf

/-- A run has one end. -/
theorem runs_unique : Relator.RightUnique p.Runs := by
  rintro b b₁ b₂ ⟨report₁, h₁⟩ ⟨report₂, h₂⟩
  rw [(runBody_ok_iff.1 h₁).2.2, (runBody_ok_iff.1 h₂).2.2]

theorem toured_body? {x y : Node} (h : x.Toured p.rules y) : Option.Rel p.Runs x.body? y.body? := by
  cases h with
  | expr => exact .none
  | body b hf =>
    rw [← (b.tours p.rules).fault] at hf
    exact .some ⟨_, runBody_ok_iff.2 ⟨hf, rfl, rfl⟩⟩

end CastPass

/-- **Two walks of one tree**: the class bodies in it come out alike, each as a run of its own leaves it. -/
structure CastPass.BodiesAgree (p : CastPass) (xs ys zs : List Node) : Prop where
  same : Node.bodies ys = Node.bodies zs
  own : List.Forall₂ p.Runs (Node.bodies xs) (Node.bodies ys)

namespace CastPass

variable {p : CastPass}

theorem forall₂_runs {vs : List Visit} {xs ys : List Node} (h : p.rules.Tours vs xs ys)
    (hf : vs.findSome? (·.fault?) = none) : List.Forall₂ p.Runs (Node.bodies xs) (Node.bodies ys) :=
  List.rel_filterMap (fun _ _ h => toured_body? h) (h.nodes (h.fault ▸ hf))

/-- **Where two walks have come by the same nodes, the bodies are reconciled alike.** -/
theorem BodiesAgree.of_tours {vs ws : List Visit} {xs ys zs : List Node} (hv : p.rules.Tours vs xs ys)
    (hw : p.rules.Tours ws xs zs) (hvf : vs.findSome? (·.fault?) = none) (hwf : ws.findSome? (·.fault?) = none) :
    p.BodiesAgree xs ys zs where
  same := List.right_unique_forall₂' runs_unique (forall₂_runs hv hvf) (forall₂_runs hw hwf)
  own := forall₂_runs hv hvf

theorem walkStmts_bodies {sc sc' : Scope} {ss ss₁ ss₂ : List Stmt} (h₁ : (p.walkStmts sc ss).result = .ok ss₁)
    (h₂ : (p.walkStmts sc' ss).result = .ok ss₂) :
    p.BodiesAgree (stmtNodes p.rules.anonymous ss) (stmtNodes p.rules.anonymous ss₁)
      (stmtNodes p.rules.anonymous ss₂) := by
  obtain ⟨hf₁, rfl⟩ := single_ok_iff.1 h₁
  obtain ⟨hf₂, rfl⟩ := single_ok_iff.1 h₂
  exact .of_tours (toursStmts p.rules sc ss) (toursStmts p.rules sc' ss) hf₁ hf₂

theorem walkExpr_bodies {sc sc' : Scope} {d d' : Option Demand} {e e₁ e₂ : Expr}
    (h₁ : (p.walkExpr sc d e).result = .ok e₁) (h₂ : (p.walkExpr sc' d' e).result = .ok e₂) :
    p.BodiesAgree (e.nodes p.rules.anonymous) (e₁.nodes p.rules.anonymous) (e₂.nodes p.rules.anonymous) := by
  obtain ⟨hf₁, rfl⟩ := single_ok_iff.1 h₁
  obtain ⟨hf₂, rfl⟩ := single_ok_iff.1 h₂
  exact .of_tours (e.tours p.rules sc d) (e.tours p.rules sc' d') hf₁ hf₂

theorem walkInit_bodies {sc sc' : Scope} {t t' : Ty} {i i₁ i₂ : Init} (h₁ : (p.walkInit sc t i).result = .ok i₁)
    (h₂ : (p.walkInit sc' t' i).result = .ok i₂) :
    p.BodiesAgree (i.nodes p.rules.anonymous) (i₁.nodes p.rules.anonymous) (i₂.nodes p.rules.anonymous) := by
  obtain ⟨hf₁, rfl⟩ := single_ok_iff.1 h₁
  obtain ⟨hf₂, rfl⟩ := single_ok_iff.1 h₂
  exact .of_tours (i.tours p.rules sc t) (i.tours p.rules sc' t') hf₁ hf₂

end CastPass

/-! ## Bodies of a unit -/

namespace CastReport

/-- The sum of reports, count by count. -/
def sum (reports : List CastReport) : CastReport := reports.foldr (· + ·) empty

theorem sum_perm {as bs : List CastReport} (h : as.Perm bs) : sum as = sum bs := by
  have hcomm : LeftCommutative (fun a b : CastReport => a + b) :=
    ⟨fun a b c => by rw [← add_assoc, add_comm a b, add_assoc]⟩
  exact h.foldr_eq empty

end CastReport

/-- **A declaration by itself**: where it has a body, what a run over the body reports and leaves. -/
inductive TypeDecl.Runs (p : CastPass) : TypeDecl → CastReport × TypeDecl → Prop
  | bodiless (k : TypeKind) (f : UInt16) (name : String) : Runs p ⟨k, f, name, none⟩ (.empty, ⟨k, f, name, none⟩)
  | body (k : TypeKind) (f : UInt16) (name : String) {b b' : Body} {report : CastReport}
    (h : (p.runBody b).result = .ok (report, b')) : Runs p ⟨k, f, name, some b⟩ (report, ⟨k, f, name, some b'⟩)

namespace CastPass

variable {p : CastPass}

/-- What a run has to say of a declaration. -/
def ofDecl (p : CastPass) (t : TypeDecl) : CastReport × TypeDecl :=
  (.ofSteps (p.stepsOf (t.visits p.rules.anonymous)), t.reconcile p.rules)

theorem runs_iff {t : TypeDecl} {x : CastReport × TypeDecl} :
    t.Runs p x ↔ (t.visits p.rules.anonymous).findSome? (·.fault?) = none ∧ p.ofDecl t = x := by
  constructor
  · intro h
    cases h with
    | bodiless k f name => exact ⟨rfl, rfl⟩
    | body k f name h =>
      obtain ⟨hf, rfl, rfl⟩ := runBody_ok_iff.1 h
      exact ⟨hf, rfl⟩
  · rintro ⟨hf, rfl⟩
    obtain ⟨k, f, name, b⟩ := t
    cases b with
    | none => exact .bodiless k f name
    | some b => exact .body k f name (runBody_ok_iff.2 ⟨hf, rfl, rfl⟩)

/-- Parts are without a fault when each of them is. -/
theorem findSome?_fault?_flatMap {α : Type} (visits : α → List Visit) (xs : List α) :
    (xs.flatMap visits).findSome? (·.fault?) = none ↔ ∀ x ∈ xs, (visits x).findSome? (·.fault?) = none := by
  simp only [List.findSome?_eq_none_iff, List.mem_flatMap]
  exact ⟨fun h x hx v hv => h v ⟨x, hx, hv⟩, fun h v ⟨x, hx, hv⟩ => h x hx v hv⟩

theorem forall₂_runs_iff {ts : List TypeDecl} {own : List (CastReport × TypeDecl)} :
    List.Forall₂ (TypeDecl.Runs p) ts own ↔
      (∀ t ∈ ts, (t.visits p.rules.anonymous).findSome? (·.fault?) = none) ∧ ts.map p.ofDecl = own := by
  have hmap : List.Forall₂ (fun t x => p.ofDecl t = x) ts own ↔ ts.map p.ofDecl = own := by
    rw [← List.forall₂_map_left_iff, List.forall₂_eq_eq_eq]
  rw [← hmap, ← List.forall₂_and_left]
  exact ⟨fun h => h.imp fun _ _ => runs_iff.1, fun h => h.imp fun _ _ => runs_iff.2⟩

theorem sum_ofDecl : ∀ ts : List TypeDecl, CastReport.sum ((ts.map p.ofDecl).map Prod.fst) =
    .ofSteps (p.stepsOf (ts.flatMap (·.visits p.rules.anonymous)))
  | [] => rfl
  | t :: ts => by
    rw [List.flatMap_cons, stepsOf, List.flatMap_append, CastReport.ofSteps_append]
    exact congrArg (CastReport.ofSteps (p.stepsOf (t.visits p.rules.anonymous)) + ·) (sum_ofDecl ts)

/-- **A run over a unit is the runs over its bodies**: the reports add up, and each declaration is what its own run
makes of it. -/
theorem run_ok_iff {u u' : CompilationUnit} {report : CastReport} : (p.run u).result = .ok (report, u') ↔
    ∃ own, List.Forall₂ (TypeDecl.Runs p) u.types own ∧ report = .sum (own.map Prod.fst) ∧
      u'.types = own.map Prod.snd := by
  have htypes : (u.types.map p.ofDecl).map Prod.snd = (u.reconcile p.rules).types := List.map_map
  simp only [forall₂_runs_iff]
  constructor
  · intro h
    obtain ⟨hf, rfl, rfl⟩ := whole_ok h
    rw [fault?_stepsOf] at hf
    exact ⟨_, ⟨(findSome?_fault?_flatMap _ _).1 hf, rfl⟩, (sum_ofDecl u.types).symm, htypes.symm⟩
  · rintro ⟨own, ⟨hf, rfl⟩, rfl, hu'⟩
    have hvalue : u' = u.reconcile p.rules := by
      obtain ⟨ts⟩ := u'
      exact congrArg CompilationUnit.mk (hu'.trans htypes)
    rw [hvalue, sum_ofDecl]
    exact whole_of_no_fault p _ ((p.fault?_stepsOf _).trans ((findSome?_fault?_flatMap _ _).2 hf))

theorem exists_run_ok_iff (u : CompilationUnit) : (∃ report u', (p.run u).result = .ok (report, u')) ↔
    ∀ t ∈ u.types, ∀ b, t.body = some b → ∃ b', p.Runs b b' := by
  constructor
  · rintro ⟨report, u', h⟩ ⟨k, f, name, -⟩ ht b rfl
    obtain ⟨own, hown, -⟩ := run_ok_iff.1 h
    exact ⟨_, _, runBody_ok_iff.2 ⟨(forall₂_runs_iff.1 hown).1 _ ht, rfl, rfl⟩⟩
  · intro h
    refine ⟨_, ⟨_⟩, run_ok_iff.2 ⟨_, forall₂_runs_iff.2 ⟨?_, rfl⟩, rfl, rfl⟩⟩
    rintro ⟨k, f, name, b⟩ ht
    cases b with
    | none => rfl
    | some b =>
      obtain ⟨b', report, hb⟩ := h _ ht b rfl
      exact (runBody_ok_iff.1 hb).1

/-- **The order of the declarations matters to nothing but the order of the output.** -/
theorem run_perm {u u' v : CompilationUnit} {report : CastReport} (h : (p.run u).result = .ok (report, u'))
    (hperm : v.types.Perm u.types) :
    ∃ v', (p.run v).result = .ok (report, v') ∧ (v.types.zip v'.types).Perm (u.types.zip u'.types) := by
  obtain ⟨own, hown, rfl, hu'⟩ := run_ok_iff.1 h
  obtain ⟨hf, rfl⟩ := forall₂_runs_iff.1 hown
  have hzip : ∀ ts : List TypeDecl,
      ts.zip ((ts.map p.ofDecl).map Prod.snd) = ts.map fun t => (t, (p.ofDecl t).2) := fun ts => by
    rw [List.map_map, ← List.zip_map', List.map_id']
    rfl
  refine ⟨⟨(v.types.map p.ofDecl).map Prod.snd⟩,
    run_ok_iff.2 ⟨_, forall₂_runs_iff.2 ⟨fun t ht => hf t (hperm.subset ht), rfl⟩, ?_, rfl⟩, ?_⟩
  · exact (CastReport.sum_perm ((hperm.map _).map _)).symm
  · rw [hu', hzip, hzip]
    exact hperm.map _

end CastPass

/-! ## Members of a body -/

theorem reconcileMembers_eq_map (r : Rules) (b : TypeBounds) (ms : List Member) :
    reconcileMembers r b ms = ms.map (·.reconcile r b) := by
  induction ms with
  | nil => rfl
  | cons m ms ih => exact congrArg (m.reconcile r b :: ·) ih

theorem visitMembers_eq_flatMap (a : Bool) (b : TypeBounds) (ms : List Member) :
    visitMembers a b ms = ms.flatMap (·.visits a b) := by
  induction ms with
  | nil => rfl
  | cons m ms ih => exact congrArg (m.visits a b ++ ·) ih

namespace CastPass

variable {p : CastPass}

/-- The bounds of a body reach its fields only: the other members bring their own. -/
theorem walkMember_eq {m : Member} (h : m.isField = false) (b b' : TypeBounds) :
    p.walkMember b m = p.walkMember b' m := by
  cases m with
  | field => cases h
  | type t => rfl
  | staticInit b ss => cases ss <;> rfl
  | constructor h ss => cases ss <;> rfl
  | method h ss => cases ss <;> rfl

/-- What a run over a body makes of a member is what a walk of the member makes of it. -/
theorem runBody_member {b b' : Body} {report : CastReport} (h : (p.runBody b).result = .ok (report, b')) {i : Nat}
    {m : Member} (hi : b.members[i]? = some m) :
    ∃ m', (p.walkMember b.bounds m).result = .ok m' ∧ b'.members[i]? = some m' := by
  obtain ⟨hf, -, rfl⟩ := runBody_ok_iff.1 h
  obtain ⟨name, bounds, ms⟩ := b
  rw [Body.visits, visitMembers_eq_flatMap, findSome?_fault?_flatMap] at hf
  refine ⟨_, single_ok_iff.2 ⟨hf m (List.mem_of_getElem? hi), rfl⟩, ?_⟩
  change (reconcileMembers p.rules bounds ms)[i]? = _
  rw [reconcileMembers_eq_map, List.getElem?_map, hi]
  rfl

theorem runBody_error_iff {b : Body} {e : CastError} : (p.runBody b).result = .error e ↔
    (memberNodes p.rules.anonymous b.members).findSome? (·.fault?) = some e := by
  obtain ⟨name, bounds, ms⟩ := b
  rw [← (toursMembers p.rules bounds ms).fault, ← p.fault?_stepsOf]
  exact whole_error_iff

/-- **Two bodies with the same members**: a run over the one succeeds where a run over the other does, and the members
that are no fields come out alike. -/
theorem runBody_members {b c b' : Body} {report : CastReport} (hmembers : b.members = c.members)
    (h : (p.runBody b).result = .ok (report, b')) :
    ∃ report' c', (p.runBody c).result = .ok (report', c') ∧
      ∀ (i : Nat) (m : Member), b.members[i]? = some m → m.isField = false →
        p.walkMember b.bounds m = p.walkMember c.bounds m ∧
        ∃ m', (p.walkMember b.bounds m).result = .ok m' ∧ b'.members[i]? = some m' ∧ c'.members[i]? = some m' := by
  have hc : ∀ e, (p.runBody c).result ≠ .error e := fun e he => by
    rw [runBody_error_iff, ← hmembers, ← runBody_error_iff, h] at he
    cases he
  cases hrun : (p.runBody c).result with
  | error e => exact absurd hrun (hc e)
  | ok out =>
    obtain ⟨report', c'⟩ := out
    refine ⟨report', c', rfl, fun i m hi hm => ⟨walkMember_eq hm _ _, ?_⟩⟩
    obtain ⟨m₁, hw₁, hi₁⟩ := runBody_member h hi
    obtain ⟨m₂, hw₂, hi₂⟩ := runBody_member hrun (hmembers ▸ hi)
    rw [walkMember_eq hm c.bounds b.bounds, hw₁] at hw₂
    cases hw₂
    exact ⟨m₁, hw₁, hi₁, hi₂⟩

/-- **Class bodies are reconciled independently of where they stand.**  In a tree walked in two scopes, the bodies come
out alike, each as a run of its own leaves it.  A run over a unit succeeds where a run over each body does, and is the
sum of these; in another order of the declarations it hands over the same in that order.  The bounds of a body matter
to its fields and to no other member. -/
theorem bodies_stand_alone (p : CastPass) :
    ((∀ (sc sc' : Scope) (ss ss₁ ss₂ : List Stmt),
        (p.walkStmts sc ss).result = .ok ss₁ → (p.walkStmts sc' ss).result = .ok ss₂ →
          p.BodiesAgree (stmtNodes p.rules.anonymous ss) (stmtNodes p.rules.anonymous ss₁)
            (stmtNodes p.rules.anonymous ss₂)) ∧
      (∀ (sc sc' : Scope) (d d' : Option Demand) (e e₁ e₂ : Expr),
        (p.walkExpr sc d e).result = .ok e₁ → (p.walkExpr sc' d' e).result = .ok e₂ →
          p.BodiesAgree (e.nodes p.rules.anonymous) (e₁.nodes p.rules.anonymous) (e₂.nodes p.rules.anonymous)) ∧
      ∀ (sc sc' : Scope) (t t' : Ty) (i i₁ i₂ : Init),
        (p.walkInit sc t i).result = .ok i₁ → (p.walkInit sc' t' i).result = .ok i₂ →
          p.BodiesAgree (i.nodes p.rules.anonymous) (i₁.nodes p.rules.anonymous) (i₂.nodes p.rules.anonymous)) ∧
    (∀ u : CompilationUnit,
      ((∃ report u', (p.run u).result = .ok (report, u')) ↔
        ∀ t ∈ u.types, ∀ b, t.body = some b → ∃ b', p.Runs b b') ∧
      ∀ (report : CastReport) (u' : CompilationUnit), (p.run u).result = .ok (report, u') →
        (∃ own, List.Forall₂ (TypeDecl.Runs p) u.types own ∧ report = .sum (own.map Prod.fst) ∧
          u'.types = own.map Prod.snd) ∧
        ∀ v : CompilationUnit, v.types.Perm u.types →
          ∃ v', (p.run v).result = .ok (report, v') ∧ (v.types.zip v'.types).Perm (u.types.zip u'.types)) ∧
    ∀ b c : Body, b.members = c.members →
      (∀ error, (p.runBody b).result = .error error ↔ (p.runBody c).result = .error error) ∧
      ∀ (report : CastReport) (b' : Body), (p.runBody b).result = .ok (report, b') →
        ∃ report' c', (p.runBody c).result = .ok (report', c') ∧
          ∀ (i : Nat) (m : Member), b.members[i]? = some m → m.isField = false →
            p.walkMember b.bounds m = p.walkMember c.bounds m ∧
            ∃ m', (p.walkMember b.bounds m).result = .ok m' ∧ b'.members[i]? = some m' ∧
              c'.members[i]? = some m' := by
  refine ⟨⟨fun _ _ _ _ _ => walkStmts_bodies, fun _ _ _ _ _ _ _ => walkExpr_bodies,
    fun _ _ _ _ _ _ _ => walkInit_bodies⟩, fun u => ⟨exists_run_ok_iff u, fun report u' h => ⟨run_ok_iff.1 h, ?_⟩⟩,
    fun b c hmembers => ⟨fun error => ?_, fun report b' => runBody_members hmembers⟩⟩
  · exact fun v => run_perm h
  · rw [runBody_error_iff, runBody_error_iff, hmembers]

end CastPass

/-- `() -> { class Box { .. } }`, with the body of `Body.readBack`. -/
def Expr.readBack (value : Expr) : Expr :=
  ⟨2, .root, .lambda [] (some [.type ⟨.ordinary, 0, "Box", some (.readBack value)⟩])⟩

/-- The class `Box` and an interface without a body. -/
def CompilationUnit.readBackBeside (value : Expr) : CompilationUnit :=
  ⟨[⟨.ordinary, AccessFlag.isPublic, "Box", some (.readBack value)⟩, ⟨.interface, AccessFlag.isPublic, "Opaque", none⟩]⟩

theorem CastPass.run_readBackBeside :
    ((CastPass.ofFacts Hierarchy.empty.facts).run (.readBackBeside (.localVar 3 .root "value"))).result =
      .ok ({ inserted := 1 }, .readBackBeside (.cast 3 (.ofVar "T") (.localVar 3 .root "value"))) := by
  with_unfolding_all rfl

theorem CastPass.walkInit_readBack_root :
    ((CastPass.ofFacts Hierarchy.empty.facts).walkInit (.ofBounds .empty) .root
        (.expr (.readBack (.localVar 3 .root "value")))).result =
      .ok (.expr (.readBack (.cast 3 (.ofVar "T") (.localVar 3 .root "value")))) := by
  with_unfolding_all rfl

theorem CastPass.walkInit_readBack_var :
    ((CastPass.ofFacts Hierarchy.empty.facts).walkInit (.ofMethod (.named "make" "()V" (.ofPrimitive .void)))
        (.ofVar "F") (.expr (.readBack (.localVar 3 .root "value")))).result =
      .ok (.expr (.cast 2 (.ofVar "F") (.readBack (.cast 3 (.ofVar "T") (.localVar 3 .root "value"))))) := by
  with_unfolding_all rfl

/-- A lambda that gets a cast in one place and none in another, with the same class in it; the class beside another,
before and after; the class under other bounds. -/
theorem CastPass.bodies_stand_alone_readBack :
    (CastPass.ofFacts Hierarchy.empty.facts).BodiesAgree
        ((Expr.readBack (.localVar 3 .root "value")).nodes true)
        ((Expr.readBack (.cast 3 (.ofVar "T") (.localVar 3 .root "value"))).nodes true)
        ((Expr.cast 2 (.ofVar "F") (.readBack (.cast 3 (.ofVar "T") (.localVar 3 .root "value")))).nodes true) ∧
      (∃ v', ((CastPass.ofFacts Hierarchy.empty.facts).run
          ⟨(CompilationUnit.readBackBeside (.localVar 3 .root "value")).types.reverse⟩).result =
            .ok ({ inserted := 1 }, v')) ∧
      ∃ report c', ((CastPass.ofFacts Hierarchy.empty.facts).runBody
          ⟨"Crate", .insert .empty "T" [.root], (Body.readBack (.localVar 3 .root "value")).members⟩).result =
            .ok (report, c') := by
  obtain ⟨⟨-, -, hinit⟩, hunit, hbody⟩ := bodies_stand_alone (CastPass.ofFacts Hierarchy.empty.facts)
  refine ⟨?_, ?_, ?_⟩
  · exact hinit _ _ _ _ _ _ _ walkInit_readBack_root walkInit_readBack_var
  · obtain ⟨v', hv', -⟩ := ((hunit _).2 _ _ run_readBackBeside).2 ⟨_⟩ (List.reverse_perm _)
    exact ⟨v', hv'⟩
  · obtain ⟨report, c', hc', -⟩ :=
      (hbody (.readBack (.localVar 3 .root "value")) ⟨"Crate", _, _⟩ rfl).2 _ _ runBody_readBack
    exact ⟨report, c', hc'⟩

end Recast
