import Recast.Proofs.Trace
/-!
# Plain trees — no type gives arguments to the root

`Object<String>` is no type of the language, but it can be written down, and its raw form is the root.  In a plain tree
no expression has such a type and nothing is declared with one (`CompilationUnit.Plain`).  Then no slot asks for such a
type either, and what a member throws by itself is a type variable (`CompilationUnit.plainVisits`).

Facts are plain where they resolve no class to the root with arguments, as those of a hierarchy do.  Under plain facts
a plain demand has no cast to the root for a target (`TypeFacts.verdict_cast_ne_root`).
-/
namespace Recast

/-- Whether the type is the root, or an array of it, with type arguments. -/
def Ty.parameterizesRoot : Ty → Bool
  | .object c => c.name == ClassType.rootName && c.arguments.isSome
  | _ => false

namespace Ty

theorem parameterizesRoot_withDimension (t : Ty) (d : UInt32) :
    (t.withDimension d).parameterizesRoot = t.parameterizesRoot := by
  cases t <;> rfl

theorem parameterizesRoot_element (t : Ty) : t.element.parameterizesRoot = t.parameterizesRoot := by
  unfold element
  split
  · exact t.parameterizesRoot_withDimension _
  · rfl

end Ty

namespace Expr

/-- The types of the node and of the casts over it. -/
def ownTypes : Expr → List Ty
  | ⟨_, t, .cast x⟩ => t :: x.ownTypes
  | ⟨_, t, _⟩ => [t]

/-- **An expression without a type that gives arguments to the root**, its own and those of the casts at its top. -/
def Plain (e : Expr) : Prop := ∀ t ∈ e.ownTypes, t.parameterizesRoot = false

theorem ty_mem_ownTypes (e : Expr) : e.ty ∈ e.ownTypes := by
  obtain ⟨l, t, k⟩ := e
  cases k <;> exact List.mem_cons_self

theorem Plain.ty {e : Expr} (h : e.Plain) : e.ty.parameterizesRoot = false := h _ e.ty_mem_ownTypes

theorem plain_of_not_cast {e : Expr} (hc : e.isCast = false) (ht : e.ty.parameterizesRoot = false) : e.Plain := by
  obtain ⟨l, t, k⟩ := e
  cases k with
  | cast x => cases hc
  | _ => exact List.forall_mem_singleton.2 ht

theorem plain_cast (l : UInt32) {t : Ty} {x : Expr} (ht : t.parameterizesRoot = false) (hx : x.Plain) :
    (Expr.cast l t x).Plain := List.forall_mem_cons.2 ⟨ht, hx⟩

theorem Plain.operand {l : UInt32} {t : Ty} {x : Expr} (h : Plain ⟨l, t, .cast x⟩) : x.Plain :=
  fun s hs => h s (List.mem_cons_of_mem _ hs)

end Expr

def Part.Plain : Part → Prop
  | position e => e.Plain
  | declared t => t.parameterizesRoot = false

/-- **A unit in which no type gives arguments to the root.**  Of types that no expression is ever compared with, as
those of a `catch` or of an `instanceof`, nothing is asked. -/
def CompilationUnit.Plain (u : CompilationUnit) : Prop := ∀ p ∈ u.parts, p.Plain

/-- A demand that does not ask for the root with arguments; what is thrown is a type variable. -/
def Demand.Plain : Demand → Prop
  | fit t _ => t.parameterizesRoot = false
  | argument t _ _ _ => t.parameterizesRoot = false
  | declaring _ => True
  | thrown t => t.isVar = true

namespace Demand

variable {d : Demand} {x y : Expr} {t : Ty}

theorem plain_ofInit (ht : t.parameterizesRoot = false) (h : ofInit t x = some d) : d.Plain := by
  unfold ofInit at h
  split at h
  · cases h
  · injection h with h
    exact h ▸ ht

theorem plain_ofOperand {o : BinaryOperator} (hx : x.ty.parameterizesRoot = false) (h : ofOperand o x y = some d) :
    d.Plain := by
  unfold ofOperand at h
  split at h
  · injection h with h
    exact h ▸ hx
  · cases h

theorem plain_ofQualifier {m : MemberRef} (h : ofQualifier m x = some d) : d.Plain := by
  unfold ofQualifier at h
  split at h
  · cases h
  · injection h with h
    exact h ▸ trivial

end Demand

/-- A scope whose method, if there is one, does not return the root with arguments. -/
def Scope.Plain (sc : Scope) : Prop := ∀ t, sc.returns = some t → t.parameterizesRoot = false

namespace Scope

theorem plain_ofBounds (b : TypeBounds) : (ofBounds b).Plain := nofun

theorem plain_ofConstructor (h : ConstructorHead) : (ofConstructor h).Plain := nofun

theorem plain_ofMethod {h : MethodHead} (ht : h.returns.parameterizesRoot = false) : (ofMethod h).Plain := by
  rintro t ⟨⟩
  exact ht

theorem plain_inLambda (sc : Scope) : sc.inLambda.Plain := by
  rintro t ⟨⟩
  rfl

theorem Plain.returnDemand {sc : Scope} (h : sc.Plain) {d : Demand} (hd : sc.returnDemand = some d) : d.Plain := by
  obtain ⟨t, ht, rfl⟩ := Option.map_eq_some_iff.1 hd
  exact h t ht

theorem plain_throwDemand {sc : Scope} {d : Demand} (hd : sc.throwDemand = some d) : d.Plain := by
  unfold throwDemand at hd
  split at hd
  · split at hd
    · rename_i hvar
      injection hd with hd
      exact hd ▸ hvar
    · cases hd
  · cases hd

end Scope

def Visit.Plain : Visit → Prop
  | slot _ d _ => d.Plain
  | call _ => True
  | skip _ => True

/-- **Visits of plain parts are plain.** -/
def PlainVisits (ps : List Part) (vs : List Visit) : Prop := (∀ p ∈ ps, p.Plain) → ∀ v ∈ vs, v.Plain

namespace PlainVisits

variable {ps qs : List Part} {vs ws : List Visit}

theorem nil : PlainVisits ps [] := fun _ _ hv => absurd hv List.not_mem_nil

theorem append (hv : PlainVisits ps vs) (hw : PlainVisits qs ws) : PlainVisits (ps ++ qs) (vs ++ ws) := by
  intro h v hmem
  rw [List.forall_mem_append] at h
  rcases List.mem_append.1 hmem with hmem | hmem
  · exact hv h.1 v hmem
  · exact hw h.2 v hmem

theorem append_swap (hv : PlainVisits ps vs) (hw : PlainVisits qs ws) : PlainVisits (ps ++ qs) (ws ++ vs) := by
  intro h v hmem
  rw [List.forall_mem_append] at h
  rcases List.mem_append.1 hmem with hmem | hmem
  · exact hw h.2 v hmem
  · exact hv h.1 v hmem

theorem call (s : CallSite) (hv : PlainVisits ps vs) : PlainVisits ps (.call s :: vs) :=
  fun h => List.forall_mem_cons.2 ⟨trivial, hv h⟩

theorem skip (w : Skipped) : PlainVisits ps [.skip w] := fun _ => List.forall_mem_singleton.2 trivial

theorem declared (t : Ty) (hv : t.parameterizesRoot = false → PlainVisits ps vs) :
    PlainVisits (.declared t :: ps) vs := by
  intro h
  rw [List.forall_mem_cons] at h
  exact hv h.1 h.2

theorem append_declaredParts (ts : List Ty) (hv : (∀ t ∈ ts, t.parameterizesRoot = false) → PlainVisits ps vs) :
    PlainVisits (ps ++ declaredParts ts) vs := by
  intro h
  rw [List.forall_mem_append] at h
  exact hv (fun t ht => h.2 _ (List.mem_map_of_mem ht)) h.1

end PlainVisits

/-- What is plain at a position holds for the expression in it. -/
theorem Expr.plain_of_parts {e : Expr} (h : ∀ p ∈ e.parts, p.Plain) : e.Plain := by
  rw [Expr.parts_eq] at h
  exact h _ List.mem_cons_self

variable (a : Bool)

mutual

theorem Expr.plainVisits (sc : Scope) (hsc : sc.Plain) : ∀ (d : Option Demand) (e : Expr),
    (∀ d', d = some d' → d'.Plain) → PlainVisits e.parts (e.visits a sc d)
  | d, ⟨l, t, k⟩, hd => by
    intro h
    have he : Expr.Plain ⟨l, t, k⟩ := Expr.plain_of_parts h
    rw [Expr.visits_eq, List.forall_mem_append]
    refine ⟨?_, k.plainVisits sc hsc l t he (List.forall_mem_cons.1 h).2⟩
    cases d with
    | none => exact nofun
    | some d => exact List.forall_mem_singleton.2 (hd d rfl)

theorem ExprKind.plainVisits (sc : Scope) (hsc : sc.Plain) (l : UInt32) (t : Ty) : ∀ k : ExprKind,
    Expr.Plain ⟨l, t, k⟩ → PlainVisits k.parts (k.visits a sc t)
  | .leaf _, _ | .field none _, _ | .lambda _ none, _ | .methodRef _ _, _ => .nil
  | .field (some q) m, _ => q.plainVisits sc hsc _ fun _ => Demand.plain_ofQualifier
  | .call q m ts as ps, _ =>
    .call _ (.append_declaredParts ps fun hps =>
      .append_swap (q.plainVisits sc hsc none nofun)
        (plainArguments sc hsc (.argument · m.owner m.name as.length) (fun _ ht => ht) ps as hps))
  | .delegate s o desc as ps, _ =>
    .call _ (.append_declaredParts ps fun hps =>
      plainArguments sc hsc (.argument · o.name MethodDecl.constructorName as.length) (fun _ ht => ht) ps as hps)
  | .new desc as ps none, _ =>
    .call _ (.append_declaredParts ps fun hps => plainArguments sc hsc (.fit · false) (fun _ ht => ht) ps as hps)
  | .new desc as ps (some b), _ => by
    refine .call _ (.append (.append_declaredParts ps fun hps =>
      plainArguments sc hsc (.fit · false) (fun _ ht => ht) ps as hps) ?_)
    split
    · exact b.plainVisits
    · exact .nil
  | .newArray ds, _ => plainExprs sc hsc ds
  | .filledArray es, he => plainInits sc hsc _ ((t.parameterizesRoot_element).trans he.ty) es
  | .binary o x y, _ => by
    intro h
    have hx : x.Plain := Expr.plain_of_parts (List.forall_mem_append.1 h).1
    exact PlainVisits.append (x.plainVisits sc hsc none nofun)
      (y.plainVisits sc hsc _ fun _ => Demand.plain_ofOperand hx.ty) h
  | .unary _ _ x, _ => x.plainVisits sc hsc none nofun
  | .instanceOf x _, _ => x.plainVisits sc hsc none nofun
  | .conditional c x y, he => by
    have hd : ∀ d, some (Demand.fit t false) = some d → d.Plain := by
      rintro d ⟨⟩
      exact he.ty
    exact .append (.append (c.plainVisits sc hsc none nofun) (x.plainVisits sc hsc _ hd)) (y.plainVisits sc hsc _ hd)
  | .index x i, _ => .append (x.plainVisits sc hsc none nofun) (i.plainVisits sc hsc none nofun)
  | .cast ⟨m, s, k⟩, he => k.plainVisits sc hsc m s he.operand
  | .lambda _ (some ss), _ => plainStmts _ sc.plain_inLambda ss

theorem plainArguments (sc : Scope) (hsc : sc.Plain) (d : Ty → Demand)
    (hd : ∀ t, t.parameterizesRoot = false → (d t).Plain) : ∀ (ps : List Ty) (as : List Expr),
    (∀ t ∈ ps, t.parameterizesRoot = false) → PlainVisits (argumentParts as) (visitArguments a sc d ps as)
  | [], [], _ | _ :: _, [], _ | [], _ :: _, _ => .nil
  | p :: ps, e :: es, hps => by
    rw [List.forall_mem_cons] at hps
    refine .append_swap (e.plainVisits sc hsc _ ?_) (plainArguments sc hsc d hd ps es hps.2)
    rintro d' ⟨⟩
    exact hd p hps.1

theorem plainExprs (sc : Scope) (hsc : sc.Plain) : ∀ es : List Expr,
    PlainVisits (argumentParts es) (visitExprs a sc es)
  | [] => .nil
  | e :: es => .append (e.plainVisits sc hsc none nofun) (plainExprs sc hsc es)

theorem Init.plainVisits (sc : Scope) (hsc : sc.Plain) (t : Ty) (ht : t.parameterizesRoot = false) : ∀ i : Init,
    PlainVisits i.parts (i.visits a sc t)
  | .expr e => e.plainVisits sc hsc _ fun _ => Demand.plain_ofInit ht
  | .array es => plainInits sc hsc _ (t.parameterizesRoot_element.trans ht) es

theorem plainInits (sc : Scope) (hsc : sc.Plain) (t : Ty) (ht : t.parameterizesRoot = false) : ∀ is : List Init,
    PlainVisits (initParts is) (visitInits a sc t is)
  | [] => .nil
  | i :: is => .append (i.plainVisits sc hsc t ht) (plainInits sc hsc t ht is)

theorem Declarator.plainVisits (sc : Scope) (hsc : sc.Plain) (t : Ty) (ht : t.parameterizesRoot = false) :
    ∀ d : Declarator, PlainVisits d.parts (d.visits a sc t)
  | ⟨_, _, none⟩ => .nil
  | ⟨_, _, some i⟩ => i.plainVisits sc hsc _ ((t.parameterizesRoot_withDimension _).trans ht)

theorem plainDeclarators (sc : Scope) (hsc : sc.Plain) (t : Ty) (ht : t.parameterizesRoot = false) :
    ∀ ds : List Declarator, PlainVisits (declaratorParts ds) (visitDeclarators a sc t ds)
  | [] => .nil
  | d :: ds => .append (d.plainVisits sc hsc t ht) (plainDeclarators sc hsc t ht ds)

theorem LocalDecl.plainVisits (sc : Scope) (hsc : sc.Plain) : ∀ l : LocalDecl, PlainVisits l.parts (l.visits a sc)
  | ⟨t, _, ds⟩ => .declared t fun ht => plainDeclarators sc hsc t ht ds

theorem plainLocals (sc : Scope) (hsc : sc.Plain) : ∀ ls : List LocalDecl,
    PlainVisits (localParts ls) (visitLocals a sc ls)
  | [] => .nil
  | l :: ls => .append (l.plainVisits sc hsc) (plainLocals sc hsc ls)

theorem Stmt.plainVisits (sc : Scope) (hsc : sc.Plain) : ∀ s : Stmt, PlainVisits s.parts (s.visits a sc)
  | .expr e => e.plainVisits sc hsc none nofun
  | .decl l => l.plainVisits sc hsc
  | .ret none | .jump _ _ | .bytecode _ => .nil
  | .ret (some e) => e.plainVisits sc hsc _ fun _ => hsc.returnDemand
  | .throw e => e.plainVisits sc hsc _ fun _ => Scope.plain_throwDemand
  | .ifThen c ss none => .append (c.plainVisits sc hsc none nofun) (plainStmts sc hsc ss)
  | .ifThen c ss (some ts) =>
    .append (.append (c.plainVisits sc hsc none nofun) (plainStmts sc hsc ss)) (plainStmts sc hsc ts)
  | .whileLoop _ c ss => .append (c.plainVisits sc hsc none nofun) (plainStmts sc hsc ss)
  | .forLoop is none us ss =>
    .append (.append (plainStmts sc hsc is) (plainExprs sc hsc us)) (plainStmts sc hsc ss)
  | .forLoop is (some c) us ss =>
    .append (.append (.append (plainStmts sc hsc is) (c.plainVisits sc hsc none nofun)) (plainExprs sc hsc us))
      (plainStmts sc hsc ss)
  | .forEach t _ e ss => .declared t fun _ => .append (e.plainVisits sc hsc none nofun) (plainStmts sc hsc ss)
  | .switch e bs => .append (e.plainVisits sc hsc none nofun) (plainBlocks sc hsc bs)
  | .synchronized e ss => .append (e.plainVisits sc hsc none nofun) (plainStmts sc hsc ss)
  | .tryBlock ls ss cs none =>
    .append (.append (plainLocals sc hsc ls) (plainStmts sc hsc ss)) (plainCatches sc hsc cs)
  | .tryBlock ls ss cs (some fs) =>
    .append (.append (.append (plainLocals sc hsc ls) (plainStmts sc hsc ss)) (plainCatches sc hsc cs))
      (plainStmts sc hsc fs)
  | .block _ ss => plainStmts sc hsc ss
  | .type t => t.plainVisits
  | .assert c none => c.plainVisits sc hsc none nofun
  | .assert c (some m) => .append (c.plainVisits sc hsc none nofun) (m.plainVisits sc hsc none nofun)

theorem plainStmts (sc : Scope) (hsc : sc.Plain) : ∀ ss : List Stmt, PlainVisits (stmtParts ss) (visitStmts a sc ss)
  | [] => .nil
  | s :: ss => .append (s.plainVisits sc hsc) (plainStmts sc hsc ss)

theorem plainLabels (sc : Scope) (hsc : sc.Plain) : ∀ ls : List (Option Expr),
    PlainVisits (labelParts ls) (visitLabels a sc ls)
  | [] => .nil
  | none :: ls => plainLabels sc hsc ls
  | some e :: ls => .append (e.plainVisits sc hsc none nofun) (plainLabels sc hsc ls)

theorem SwitchBlock.plainVisits (sc : Scope) (hsc : sc.Plain) : ∀ b : SwitchBlock, PlainVisits b.parts (b.visits a sc)
  | ⟨ls, ss⟩ => .append (plainLabels sc hsc ls) (plainStmts sc hsc ss)

theorem plainBlocks (sc : Scope) (hsc : sc.Plain) : ∀ bs : List SwitchBlock,
    PlainVisits (blockParts bs) (visitBlocks a sc bs)
  | [] => .nil
  | b :: bs => .append (b.plainVisits sc hsc) (plainBlocks sc hsc bs)

theorem CatchClause.plainVisits (sc : Scope) (hsc : sc.Plain) : ∀ c : CatchClause, PlainVisits c.parts (c.visits a sc)
  | ⟨_, _, ss⟩ => plainStmts sc hsc ss

theorem plainCatches (sc : Scope) (hsc : sc.Plain) : ∀ cs : List CatchClause,
    PlainVisits (catchParts cs) (visitCatches a sc cs)
  | [] => .nil
  | c :: cs => .append (c.plainVisits sc hsc) (plainCatches sc hsc cs)

theorem TypeDecl.plainVisits : ∀ t : TypeDecl, PlainVisits t.parts (t.visits a)
  | ⟨_, _, _, none⟩ => .nil
  | ⟨_, _, _, some b⟩ => b.plainVisits

theorem Body.plainVisits : ∀ b : Body, PlainVisits b.parts (b.visits a)
  | ⟨_, b, ms⟩ => plainMembers b ms

theorem Member.plainVisits (b : TypeBounds) : ∀ m : Member, PlainVisits m.parts (m.visits a b)
  | .field f t ds => by
    simp only [Member.visits, Member.parts]
    refine .declared t fun ht => ?_
    split
    · exact .skip _
    · exact plainDeclarators _ (Scope.plain_ofBounds b) t ht ds
  | .staticInit _ none => .nil
  | .staticInit b (some ss) => plainStmts _ (Scope.plain_ofBounds b) ss
  | .constructor h none => by
    simp only [Member.visits, Member.parts]
    split
    · exact .skip _
    · exact .nil
  | .constructor h (some ss) => by
    simp only [Member.visits, Member.parts]
    split
    · exact .skip _
    · exact plainStmts _ (Scope.plain_ofConstructor h) ss
  | .method h none => by
    simp only [Member.visits, Member.parts]
    split
    · exact .skip _
    · exact .nil
  | .method h (some ss) => by
    simp only [Member.visits, Member.parts]
    refine .declared h.returns fun ht => ?_
    split
    · exact .skip _
    · exact plainStmts _ (Scope.plain_ofMethod ht) ss
  | .type t => t.plainVisits

theorem plainMembers (b : TypeBounds) : ∀ ms : List Member, PlainVisits (memberParts ms) (visitMembers a b ms)
  | [] => .nil
  | m :: ms => .append (m.plainVisits b) (plainMembers b ms)

end

/-- **The slots of a plain unit make plain demands.** -/
theorem CompilationUnit.plainVisits (u : CompilationUnit) : PlainVisits u.parts (u.visits a) := by
  obtain ⟨ts⟩ := u
  simp only [CompilationUnit.visits, CompilationUnit.parts]
  induction ts with
  | nil => exact .nil
  | cons t ts ih => exact .append (t.plainVisits a) ih

/-! ## Plain facts -/

/-- **Facts that resolve no class to the root with arguments.** -/
def TypeFacts.Plain (f : TypeFacts) : Prop :=
  ∀ owner c, f.resolve? owner = some c → (Ty.object c).parameterizesRoot = false

/-- What a hierarchy resolves is raw. -/
theorem Hierarchy.plain_facts (h : Hierarchy) : h.facts.Plain := by
  intro owner c hc
  have hc : h.resolve? owner = some c := hc
  unfold Hierarchy.resolve? at hc
  split at hc
  · cases hc
    exact Bool.and_false _
  · cases hc

/-- The required type of a plain demand is not the root with arguments. -/
theorem Demand.Plain.required {f : TypeFacts} (hf : f.Plain) {d : Demand} {required : Ty} {forced : Bool} (hd : d.Plain)
    (hq : f.required? d = some (required, forced)) : required.parameterizesRoot = false := by
  cases d with
  | fit t forced =>
    cases hq
    exact hd
  | argument t owner member count =>
    cases hq
    exact hd
  | declaring owner =>
    obtain ⟨c, hc, hreq⟩ := Option.map_eq_some_iff.1 hq
    cases hreq
    exact hf owner c hc
  | thrown t => cases hq

/-- The root is no target of a cast: it fits everything, and the raw form of a class that it does not parameterize is
another class. -/
theorem TypeFacts.verdict_cast_ne_root {f : TypeFacts} {b : TypeBounds} {forced : Bool} {required t : Ty} {e : Expr}
    (hr : required.parameterizesRoot = false) (hv : f.verdict b forced required e = .cast t) : t ≠ .root := by
  have hgrounds := verdict_cast hv
  rcases hgrounds.target with rfl | ⟨c, rfl, hargs, rfl⟩
  · intro ht
    have hroot := hgrounds.not_root
    rw [(Ty.isRoot_iff t).2 ht] at hroot
    cases hroot
  · intro ht
    have hname : c.name = ClassType.rootName := by
      injection ht with ht
      exact congrArg ClassType.name ht
    simp [Ty.parameterizesRoot, hname, hargs] at hr

end Recast
