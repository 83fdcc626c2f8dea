import Recast.Proofs.Literals
/-!
# Slots — where a value has to fit, and for which type

Six kinds of value have to fit a type: the initializer of a field or local variable, with the elements in braces; a
returned value; an argument; the right side of `=`; a branch of a conditional; the qualifier of a field.  `Slot` reads
them off the construct that they stand in, and `CompilationUnit.Visited` says which constructs a walk comes by, and in
which scope.  Neither mentions a visit, a demand or an edit.

Each slot of what is visited is among the visits, with a demand for its type (`CompilationUnit.Visited.slot_mem`).
-/
namespace Recast

/-- **A piece of a tree**: a class body, or code with the scope it stands in; a name in a declaration with the type that
is written in front of it. -/
inductive Place
  | body (b : Body)
  | stmt (sc : Scope) (s : Stmt)
  | declarator (sc : Scope) (declared : Ty) (d : Declarator)
  | expr (sc : Scope) (e : Expr)

/-- **The kinds of slot**, by the place: the scope, the type that is required there, and the value.  An initializer is for
the declared type with the dimensions after the name, less one for each brace around it; `new T[]{..}` itself is no
slot, its elements are.  A method returns its type, a lambda the root. -/
inductive Slot (f : TypeFacts) : Place → Scope → Ty → Expr → Prop
  | initializer {sc : Scope} {declared : Ty} {name : String} {k : UInt32} {i : Init} {x : Element}
    (hx : x ∈ i.elements (declared.widen k) 0) :
    Slot f (.declarator sc declared ⟨name, k, some i⟩) sc (x.base.inBraces x.depth) x.value
  | element {sc : Scope} {l : UInt32} {t : Ty} {is : List Init} {x : Element} (hx : x ∈ initElements t 1 is) :
    Slot f (.expr sc ⟨l, t, .filledArray is⟩) sc (x.base.inBraces x.depth) x.value
  | returned {sc : Scope} {t : Ty} {e : Expr} (ht : sc.returns = some t) : Slot f (.stmt sc (.ret (some e))) sc t e
  | argument {sc : Scope} {e x : Expr} {c : Call} {i : Nat} {t : Ty} (hc : e.call? = some c)
    (ht : c.parameters[i]? = some t) (hx : c.arguments[i]? = some x) : Slot f (.expr sc e) sc t x
  | assigned {sc : Scope} {l : UInt32} {t : Ty} {x y : Expr} (hy : y.isExplicitCall = false) :
    Slot f (.expr sc ⟨l, t, .binary .assign x y⟩) sc x.ty y
  | whenTrue {sc : Scope} {l : UInt32} {t : Ty} {c x y : Expr} : Slot f (.expr sc ⟨l, t, .conditional c x y⟩) sc t x
  | whenFalse {sc : Scope} {l : UInt32} {t : Ty} {c x y : Expr} : Slot f (.expr sc ⟨l, t, .conditional c x y⟩) sc t y
  | qualifier {sc : Scope} {l : UInt32} {t : Ty} {q : Expr} {m : MemberRef} {c : ClassType} (hq : q.isTypeName = false)
    (hc : f.resolve? m.owner = some c) : Slot f (.expr sc ⟨l, t, .field (some q) m⟩) sc (.object c) q

/-! ## What is visited -/

/-- The expressions right inside an expression.  The qualifier of a method reference is not visited, nor is an argument
without a parameter. -/
def Expr.operands : Expr → List Expr
  | ⟨_, _, .leaf _⟩ => []
  | ⟨_, _, .field q _⟩ => q.toList
  | ⟨_, _, .call q _ _ as ps⟩ => q :: as.take ps.length
  | ⟨_, _, .delegate _ _ _ as ps⟩ => as.take ps.length
  | ⟨_, _, .new _ as ps _⟩ => as.take ps.length
  | ⟨_, _, .newArray ds⟩ => ds
  | ⟨_, t, .filledArray is⟩ => (initElements t 1 is).map (·.value)
  | ⟨_, _, .binary _ x y⟩ => [x, y]
  | ⟨_, _, .unary _ _ x⟩ => [x]
  | ⟨_, _, .instanceOf x _⟩ => [x]
  | ⟨_, _, .conditional c x y⟩ => [c, x, y]
  | ⟨_, _, .index x i⟩ => [x, i]
  | ⟨_, _, .cast x⟩ => [x]
  | ⟨_, _, .lambda _ _⟩ => []
  | ⟨_, _, .methodRef _ _⟩ => []

namespace Stmt

/-- The expressions right inside a statement. -/
def operands : Stmt → List Expr
  | expr e => [e]
  | ret e => e.toList
  | throw e => [e]
  | ifThen c _ _ => [c]
  | whileLoop _ c _ => [c]
  | forLoop _ c us _ => c.toList ++ us
  | forEach _ _ e _ => [e]
  | switch e bs => e :: bs.flatMap fun b => b.labels.filterMap id
  | synchronized e _ => [e]
  | assert c m => c :: m.toList
  | decl _ | tryBlock .. | block .. | type _ | jump .. | bytecode _ => []

/-- The statements right inside a statement. -/
def nested : Stmt → List Stmt
  | ifThen _ ss ts => ss ++ ts.getD []
  | whileLoop _ _ ss => ss
  | forLoop is _ _ ss => is ++ ss
  | forEach _ _ _ ss => ss
  | switch _ bs => bs.flatMap (·.body)
  | synchronized _ ss => ss
  | tryBlock _ ss cs fs => ss ++ cs.flatMap (·.body) ++ fs.getD []
  | block _ ss => ss
  | expr _ | decl _ | ret _ | throw _ | type _ | assert .. | jump .. | bytecode _ => []

/-- The declarations of a statement, the resources of a `try` among them. -/
def locals : Stmt → List LocalDecl
  | decl l => [l]
  | tryBlock ls _ _ _ => ls
  | _ => []

end Stmt

/-- **What a walk of a unit comes by.**  Members that the compiler made up are passed over, and so are the bodies of
anonymous classes unless `anonymous` asks for them. -/
inductive CompilationUnit.Visited (anonymous : Bool) (u : CompilationUnit) : Place → Prop
  | type {t : TypeDecl} {b : Body} (ht : t ∈ u.types) (hb : t.body = some b) : Visited anonymous u (.body b)
  | field {n : String} {b : TypeBounds} {ms : List Member} {flags : UInt16} {t : Ty} {ds : List Declarator}
    {d : Declarator} (h : Visited anonymous u (.body ⟨n, b, ms⟩)) (hm : .field flags t ds ∈ ms)
    (hf : isSyntheticField flags = false) (hd : d ∈ ds) : Visited anonymous u (.declarator ⟨b, none, none⟩ t d)
  | staticInit {n : String} {b b' : TypeBounds} {ms : List Member} {ss : List Stmt} {s : Stmt}
    (h : Visited anonymous u (.body ⟨n, b, ms⟩)) (hm : .staticInit b' (some ss) ∈ ms) (hs : s ∈ ss) :
    Visited anonymous u (.stmt ⟨b', none, none⟩ s)
  | constructor {n : String} {b : TypeBounds} {ms : List Member} {c : ConstructorHead} {ss : List Stmt} {s : Stmt}
    (h : Visited anonymous u (.body ⟨n, b, ms⟩)) (hm : .constructor c (some ss) ∈ ms) (hg : c.isGenerated = false)
    (hs : s ∈ ss) : Visited anonymous u (.stmt ⟨c.bounds, none, c.exceptions⟩ s)
  | method {n : String} {b : TypeBounds} {ms : List Member} {m : MethodHead} {ss : List Stmt} {s : Stmt}
    (h : Visited anonymous u (.body ⟨n, b, ms⟩)) (hm : .method m (some ss) ∈ ms) (hg : m.isGenerated = false)
    (hs : s ∈ ss) : Visited anonymous u (.stmt ⟨m.bounds, some m.returns, m.exceptions⟩ s)
  | memberType {n : String} {b : TypeBounds} {ms : List Member} {t : TypeDecl} {b' : Body}
    (h : Visited anonymous u (.body ⟨n, b, ms⟩)) (hm : .type t ∈ ms) (hb : t.body = some b') :
    Visited anonymous u (.body b')
  | localType {sc : Scope} {t : TypeDecl} {b : Body} (h : Visited anonymous u (.stmt sc (.type t)))
    (hb : t.body = some b) : Visited anonymous u (.body b)
  | anonymousBody {sc : Scope} {l : UInt32} {t : Ty} {desc : String} {as : List Expr} {ps : List Ty} {b : Body}
    (h : Visited anonymous u (.expr sc ⟨l, t, .new desc as ps (some b)⟩)) (ha : anonymous = true) :
    Visited anonymous u (.body b)
  | nested {sc : Scope} {s s' : Stmt} (h : Visited anonymous u (.stmt sc s)) (hs : s' ∈ s.nested) :
    Visited anonymous u (.stmt sc s')
  | lambda {sc : Scope} {l : UInt32} {t : Ty} {ns : List String} {ss : List Stmt} {s : Stmt}
    (h : Visited anonymous u (.expr sc ⟨l, t, .lambda ns (some ss)⟩)) (hs : s ∈ ss) :
    Visited anonymous u (.stmt ⟨sc.bounds, some .root, sc.thrown⟩ s)
  | declared {sc : Scope} {s : Stmt} {l : LocalDecl} {d : Declarator} (h : Visited anonymous u (.stmt sc s))
    (hl : l ∈ s.locals) (hd : d ∈ l.declarators) : Visited anonymous u (.declarator sc l.ty d)
  | initializer {sc : Scope} {declared : Ty} {name : String} {k : UInt32} {i : Init} {x : Element}
    (h : Visited anonymous u (.declarator sc declared ⟨name, k, some i⟩)) (hx : x ∈ i.elements (declared.widen k) 0) :
    Visited anonymous u (.expr sc x.value)
  | head {sc : Scope} {s : Stmt} {e : Expr} (h : Visited anonymous u (.stmt sc s)) (he : e ∈ s.operands) :
    Visited anonymous u (.expr sc e)
  | operand {sc : Scope} {e x : Expr} (h : Visited anonymous u (.expr sc e)) (hx : x ∈ e.operands) :
    Visited anonymous u (.expr sc x)

/-! ## The visits of a place -/

def Place.visits (anonymous : Bool) : Place → List Visit
  | body b => b.visits anonymous
  | stmt sc s => s.visits anonymous sc
  | declarator sc t d => d.visits anonymous sc t
  | expr sc e => e.kind.visits anonymous sc e.ty

variable {a : Bool} {sc : Scope}

/-- In a list that is visited one by one each is visited. -/
theorem visits_subset_of_mem {α : Type} {f : α → List Visit} {g : List α → List Visit}
    (hg : ∀ x xs, g (x :: xs) = f x ++ g xs) {x : α} {xs : List α} (hx : x ∈ xs) : f x ⊆ g xs := by
  induction hx with
  | head ys => exact hg x ys ▸ List.subset_append_left _ _
  | tail y _ ih => exact hg y _ ▸ List.subset_append_of_subset_right _ ih

theorem visits_subset_visitStmts {s : Stmt} {ss : List Stmt} (h : s ∈ ss) : s.visits a sc ⊆ visitStmts a sc ss :=
  visits_subset_of_mem (fun _ _ => rfl) h

/-- An argument at an index is among the visits of all. -/
theorem visits_subset_visitArguments (anonymous : Bool) (sc : Scope) (d : Ty → Demand) {t : Ty} {a : Expr} :
    ∀ (ps : List Ty) (as : List Expr) (i : Nat), ps[i]? = some t → as[i]? = some a →
      a.visits anonymous sc (some (d t)) ⊆ visitArguments anonymous sc d ps as
  | [], _, _, hp, _ => by cases hp
  | _ :: _, [], _, _, ha => by cases ha
  | p :: ps, b :: as, 0, hp, ha => by
    cases hp
    cases ha
    exact List.subset_append_right _ _
  | _ :: ps, _ :: as, i + 1, hp, ha =>
    List.subset_append_of_subset_left _ (visits_subset_visitArguments anonymous sc d ps as i hp ha)

/-- What is inside an expression is visited with it, whatever is asked of the expression itself. -/
theorem Place.visits_expr_subset (d : Option Demand) (e : Expr) : (expr sc e).visits a ⊆ e.visits a sc d := by
  obtain ⟨l, t, k⟩ := e
  exact List.subset_append_right _ _

theorem visits_subset_visitExprs {e : Expr} {es : List Expr} (h : e ∈ es) :
    (Place.expr sc e).visits a ⊆ visitExprs a sc es :=
  List.Subset.trans (Place.visits_expr_subset none e) (visits_subset_of_mem (fun _ _ => rfl) h)

namespace Expr

theorem slot_mem_visits (d : Demand) (e : Expr) : .slot sc d e ∈ e.visits a sc (some d) := by
  obtain ⟨l, t, k⟩ := e
  exact List.mem_cons_self

theorem visits_subset_of_argument {ps : List Ty} {as : List Expr} {x : Expr} (d : Ty → Demand)
    (hx : x ∈ as.take ps.length) : (Place.expr sc x).visits a ⊆ visitArguments a sc d ps as := by
  obtain ⟨i, hi, rfl⟩ := List.mem_take_iff_getElem.1 hx
  have hlt : i < ps.length ∧ i < as.length := Nat.lt_min.1 hi
  exact List.Subset.trans (Place.visits_expr_subset _ _)
    (visits_subset_visitArguments a sc d ps as i (List.getElem?_eq_getElem hlt.1) (List.getElem?_eq_getElem hlt.2))

theorem visits_subset_of_element {t : Ty} {is : List Init} {x : Element} (hx : x ∈ initElements t 1 is) :
    x.value.visits a sc (some x.demand) ⊆ visitInits a sc t.element is := by
  have hvisits := visitInits_eq_elements sc a t 1 is
  rw [← Ty.element_inBraces, Ty.inBraces_zero] at hvisits
  rw [hvisits]
  exact fun _ hv => List.mem_flatMap_of_mem hx hv

/-- **An operand is visited with the expression.** -/
theorem visits_subset_of_operand {x : Expr} :
    ∀ {e : Expr}, x ∈ e.operands → (Place.expr sc x).visits a ⊆ (Place.expr sc e).visits a
  | ⟨_, _, .leaf _⟩, hx | ⟨_, _, .field none _⟩, hx | ⟨_, _, .lambda _ _⟩, hx | ⟨_, _, .methodRef _ _⟩, hx => by
    cases hx
  | ⟨_, _, .field (some q) m⟩, hx => by
    obtain rfl := List.mem_singleton.1 hx
    exact Place.visits_expr_subset _ x
  | ⟨_, _, .call q m ts as ps⟩, hx => by
    refine List.subset_cons_of_subset _ ?_
    rcases List.mem_cons.1 hx with rfl | hx
    · exact List.subset_append_of_subset_right _ (Place.visits_expr_subset _ x)
    · exact List.subset_append_of_subset_left _ (visits_subset_of_argument _ hx)
  | ⟨_, _, .delegate s o desc as ps⟩, hx => List.subset_cons_of_subset _ (visits_subset_of_argument _ hx)
  | ⟨_, _, .new desc as ps none⟩, hx => List.subset_cons_of_subset _ (visits_subset_of_argument _ hx)
  | ⟨_, _, .new desc as ps (some b)⟩, hx =>
    List.subset_cons_of_subset _ (List.subset_append_of_subset_left _ (visits_subset_of_argument _ hx))
  | ⟨_, _, .newArray ds⟩, hx => visits_subset_visitExprs hx
  | ⟨_, t, .filledArray is⟩, hx => by
    obtain ⟨y, hy, rfl⟩ := List.mem_map.1 hx
    exact List.Subset.trans (Place.visits_expr_subset _ _) (visits_subset_of_element hy)
  | ⟨_, _, .binary o y z⟩, hx => by
    rcases List.mem_pair.1 hx with rfl | rfl
    · exact List.subset_append_of_subset_left _ (Place.visits_expr_subset _ x)
    · exact List.subset_append_of_subset_right _ (Place.visits_expr_subset _ x)
  | ⟨_, _, .unary _ _ y⟩, hx | ⟨_, _, .instanceOf y _⟩, hx | ⟨_, _, .cast y⟩, hx => by
    obtain rfl := List.mem_singleton.1 hx
    exact Place.visits_expr_subset none x
  | ⟨_, _, .conditional c y z⟩, hx => by
    rcases List.mem_cons.1 hx with rfl | hx
    · exact List.subset_append_of_subset_left _ (List.subset_append_of_subset_left _ (Place.visits_expr_subset _ x))
    · rcases List.mem_pair.1 hx with rfl | rfl
      · exact List.subset_append_of_subset_left _ (List.subset_append_of_subset_right _ (Place.visits_expr_subset _ x))
      · exact List.subset_append_of_subset_right _ (Place.visits_expr_subset _ x)
  | ⟨_, _, .index y i⟩, hx => by
    rcases List.mem_pair.1 hx with rfl | rfl
    · exact List.subset_append_of_subset_left _ (Place.visits_expr_subset _ x)
    · exact List.subset_append_of_subset_right _ (Place.visits_expr_subset _ x)

end Expr

namespace Stmt

theorem visits_subset_of_label {e : Expr} :
    ∀ ls : List (Option Expr), e ∈ ls.filterMap id → (Place.expr sc e).visits a ⊆ visitLabels a sc ls
  | [], h => by cases h
  | none :: ls, h => visits_subset_of_label ls h
  | some x :: ls, h => by
    rcases List.mem_cons.1 h with rfl | h
    · exact List.subset_append_of_subset_left _ (Place.visits_expr_subset _ e)
    · exact List.subset_append_of_subset_right _ (visits_subset_of_label ls h)

/-- **An expression right inside a statement is visited with it.** -/
theorem visits_subset_of_operand {e : Expr} :
    ∀ {s : Stmt}, e ∈ s.operands → (Place.expr sc e).visits a ⊆ s.visits a sc
  | .expr x, h | .ret (some x), h | .throw x, h | .assert x none, h => by
    obtain rfl := List.mem_singleton.1 h
    exact Place.visits_expr_subset _ e
  | .ifThen c _ none, h | .whileLoop _ c _, h | .forEach _ _ c _, h | .synchronized c _, h => by
    obtain rfl := List.mem_singleton.1 h
    exact List.subset_append_of_subset_left _ (Place.visits_expr_subset _ e)
  | .ifThen c _ (some _), h => by
    obtain rfl := List.mem_singleton.1 h
    exact List.subset_append_of_subset_left _ (List.subset_append_of_subset_left _ (Place.visits_expr_subset _ e))
  | .forLoop is none us ss, h =>
    List.subset_append_of_subset_left _ (List.subset_append_of_subset_right _ (visits_subset_visitExprs h))
  | .forLoop is (some c) us ss, h => by
    refine List.subset_append_of_subset_left _ ?_
    rcases List.mem_cons.1 h with rfl | h
    · exact List.subset_append_of_subset_left _ (List.subset_append_of_subset_right _ (Place.visits_expr_subset _ e))
    · exact List.subset_append_of_subset_right _ (visits_subset_visitExprs h)
  | .switch x bs, h => by
    rcases List.mem_cons.1 h with rfl | h
    · exact List.subset_append_of_subset_left _ (Place.visits_expr_subset _ e)
    · obtain ⟨⟨labels, body⟩, hblock, h⟩ := List.mem_flatMap.1 h
      have hlabel : (Place.expr sc e).visits a ⊆ SwitchBlock.visits a sc ⟨labels, body⟩ :=
        List.subset_append_of_subset_left _ (visits_subset_of_label labels h)
      exact List.subset_append_of_subset_right _
        (List.Subset.trans hlabel (visits_subset_of_mem (fun _ _ => rfl) hblock))
  | .assert c (some m), h => by
    rcases List.mem_pair.1 h with rfl | rfl
    · exact List.subset_append_of_subset_left _ (Place.visits_expr_subset _ e)
    · exact List.subset_append_of_subset_right _ (Place.visits_expr_subset _ e)
  | .ret none, h | .decl _, h | .tryBlock .., h | .block .., h | .type _, h | .jump .., h | .bytecode _, h => by cases h

theorem visits_subset_of_catch {s : Stmt} {cs : List CatchClause} (h : s ∈ cs.flatMap (·.body)) :
    s.visits a sc ⊆ visitCatches a sc cs := by
  obtain ⟨⟨types, name, body⟩, hclause, hs⟩ := List.mem_flatMap.1 h
  have hbody : s.visits a sc ⊆ CatchClause.visits a sc ⟨types, name, body⟩ := visits_subset_visitStmts hs
  exact List.Subset.trans hbody (visits_subset_of_mem (fun _ _ => rfl) hclause)

theorem visits_subset_of_switchBlock {s : Stmt} {bs : List SwitchBlock} (h : s ∈ bs.flatMap (·.body)) :
    s.visits a sc ⊆ visitBlocks a sc bs := by
  obtain ⟨⟨labels, body⟩, hblock, hs⟩ := List.mem_flatMap.1 h
  have hbody : s.visits a sc ⊆ SwitchBlock.visits a sc ⟨labels, body⟩ :=
    List.subset_append_of_subset_right _ (visits_subset_visitStmts hs)
  exact List.Subset.trans hbody (visits_subset_of_mem (fun _ _ => rfl) hblock)

/-- **A statement right inside another is visited with it.** -/
theorem visits_subset_of_nested {s' : Stmt} : ∀ {s : Stmt}, s' ∈ s.nested → s'.visits a sc ⊆ s.visits a sc
  | .ifThen c ss none, h => by
    rw [nested, Option.getD_none, List.append_nil] at h
    exact List.subset_append_of_subset_right _ (visits_subset_visitStmts h)
  | .ifThen c ss (some ts), h => by
    rcases List.mem_append.1 h with h | h
    · exact List.subset_append_of_subset_left _ (List.subset_append_of_subset_right _ (visits_subset_visitStmts h))
    · exact List.subset_append_of_subset_right _ (visits_subset_visitStmts h)
  | .whileLoop _ c ss, h | .forEach _ _ c ss, h | .synchronized c ss, h =>
    List.subset_append_of_subset_right _ (visits_subset_visitStmts h)
  | .forLoop is none us ss, h => by
    rcases List.mem_append.1 h with h | h
    · exact List.subset_append_of_subset_left _ (List.subset_append_of_subset_left _ (visits_subset_visitStmts h))
    · exact List.subset_append_of_subset_right _ (visits_subset_visitStmts h)
  | .forLoop is (some c) us ss, h => by
    rcases List.mem_append.1 h with h | h
    · exact List.subset_append_of_subset_left _
        (List.subset_append_of_subset_left _ (List.subset_append_of_subset_left _ (visits_subset_visitStmts h)))
    · exact List.subset_append_of_subset_right _ (visits_subset_visitStmts h)
  | .switch x bs, h => List.subset_append_of_subset_right _ (visits_subset_of_switchBlock h)
  | .tryBlock ls ss cs none, h => by
    rw [nested, Option.getD_none, List.append_nil] at h
    rcases List.mem_append.1 h with h | h
    · exact List.subset_append_of_subset_left _ (List.subset_append_of_subset_right _ (visits_subset_visitStmts h))
    · exact List.subset_append_of_subset_right _ (visits_subset_of_catch h)
  | .tryBlock ls ss cs (some fs), h => by
    rcases List.mem_append.1 h with h | h
    · refine List.subset_append_of_subset_left _ ?_
      rcases List.mem_append.1 h with h | h
      · exact List.subset_append_of_subset_left _ (List.subset_append_of_subset_right _ (visits_subset_visitStmts h))
      · exact List.subset_append_of_subset_right _ (visits_subset_of_catch h)
    · exact List.subset_append_of_subset_right _ (visits_subset_visitStmts h)
  | .block _ ss, h => visits_subset_visitStmts h
  | .expr _, h | .decl _, h | .ret _, h | .throw _, h | .type _, h | .assert .., h | .jump .., h | .bytecode _, h => by
    cases h

/-- **The names that a statement declares are visited with it.** -/
theorem visits_subset_of_local {l : LocalDecl} {d : Declarator} (hd : d ∈ l.declarators) :
    ∀ {s : Stmt}, l ∈ s.locals → d.visits a sc l.ty ⊆ s.visits a sc := by
  intro s hl
  have hdecl : d.visits a sc l.ty ⊆ l.visits a sc := by
    obtain ⟨t, isFinal, ds⟩ := l
    exact visits_subset_of_mem (fun _ _ => rfl) hd
  refine List.Subset.trans hdecl ?_
  cases s with
  | decl m =>
    obtain rfl := List.mem_singleton.1 hl
    exact List.Subset.refl _
  | tryBlock ls ss cs fs =>
    have hresource : l.visits a sc ⊆ visitLocals a sc ls := visits_subset_of_mem (fun _ _ => rfl) hl
    cases fs with
    | none => exact List.subset_append_of_subset_left _ (List.subset_append_of_subset_left _ hresource)
    | some fs =>
      exact List.subset_append_of_subset_left _
        (List.subset_append_of_subset_left _ (List.subset_append_of_subset_left _ hresource))
  | _ => cases hl

end Stmt

theorem Declarator.visits_subset_of_element (name : String) {declared : Ty} {k : UInt32} {i : Init} {x : Element}
    (hx : x ∈ i.elements (declared.widen k) 0) :
    x.value.visits a sc (some x.demand) ⊆ Declarator.visits a sc declared ⟨name, k, some i⟩ := by
  have hvisits := i.visits_eq_elements sc a (declared.widen k) 0
  rw [Ty.inBraces_zero] at hvisits
  rw [Declarator.visits, hvisits]
  exact fun _ hv => List.mem_flatMap_of_mem hx hv

/-! ## Slots among the visits -/

/-- The three kinds of call make the same demand of an argument, but for what forces it. -/
theorem Expr.argument_mem_visits {f : TypeFacts} {e x : Expr} {c : Call} {i : Nat} {t : Ty} (hc : e.call? = some c)
    (ht : c.parameters[i]? = some t) (hx : c.arguments[i]? = some x) :
    ∃ d forced, f.required? d = some (t, forced) ∧ .slot sc d x ∈ (Place.expr sc e).visits a := by
  have hmem (d : Ty → Demand) : .slot sc (d t) x ∈ visitArguments a sc d c.parameters c.arguments :=
    visits_subset_visitArguments a sc d _ _ i ht hx (x.slot_mem_visits _)
  obtain ⟨l, s, k⟩ := e
  cases k with
  | call q m ts as ps =>
    cases hc
    exact ⟨.argument t m.owner m.name as.length, _, rfl, List.mem_cons_of_mem _ (List.mem_append_left _ (hmem _))⟩
  | delegate b o desc as ps =>
    cases hc
    exact ⟨.argument t o.name MethodDecl.constructorName as.length, _, rfl, List.mem_cons_of_mem _ (hmem _)⟩
  | new desc as ps body =>
    cases hc
    refine ⟨.fit t false, false, rfl, ?_⟩
    cases body with
    | none => exact List.mem_cons_of_mem _ (hmem _)
    | some b => exact List.mem_cons_of_mem _ (List.mem_append_left _ (hmem _))
  | _ => cases hc

/-- **The slots of a place are among its visits**, each with a demand for the type that is required. -/
theorem Slot.mem_visits {f : TypeFacts} {place : Place} {t : Ty} {e : Expr} (h : Slot f place sc t e) (a : Bool) :
    ∃ d forced, f.required? d = some (t, forced) ∧ .slot sc d e ∈ place.visits a := by
  cases h with
  | @initializer _ declared name k i x hx =>
    exact ⟨x.demand, false, rfl, Declarator.visits_subset_of_element name hx (x.value.slot_mem_visits x.demand)⟩
  | @element _ l t is x hx =>
    exact ⟨x.demand, false, rfl, Expr.visits_subset_of_element hx (x.value.slot_mem_visits x.demand)⟩
  | returned ht =>
    refine ⟨.fit t false, false, rfl, ?_⟩
    change _ ∈ e.visits a sc sc.returnDemand
    rw [Scope.returnDemand, ht]
    exact e.slot_mem_visits _
  | argument hc ht hx => exact Expr.argument_mem_visits hc ht hx
  | @assigned _ l t x _ hy =>
    refine ⟨.fit x.ty false, false, rfl, List.mem_append_right _ ?_⟩
    rw [Demand.ofOperand, if_pos ⟨rfl, Bool.eq_false_iff.1 hy⟩]
    exact e.slot_mem_visits _
  | whenTrue =>
    exact ⟨.fit t false, false, rfl, List.mem_append_left _ (List.mem_append_right _ (e.slot_mem_visits _))⟩
  | whenFalse => exact ⟨.fit t false, false, rfl, List.mem_append_right _ (e.slot_mem_visits _)⟩
  | @qualifier _ l t _ m c hq hc =>
    refine ⟨.declaring m.owner, false, by rw [TypeFacts.required?, hc]; rfl, ?_⟩
    change _ ∈ e.visits a sc (Demand.ofQualifier m e)
    rw [Demand.ofQualifier, if_neg (Bool.eq_false_iff.1 hq)]
    exact e.slot_mem_visits _

theorem TypeDecl.visits_of_body {t : TypeDecl} {b : Body} (h : t.body = some b) : t.visits a = b.visits a := by
  obtain ⟨kind, flags, name, body⟩ := t
  cases h
  rfl

theorem Member.visits_subset {n : String} {b : TypeBounds} {ms : List Member} {m : Member} (h : m ∈ ms) :
    m.visits a b ⊆ (Place.body ⟨n, b, ms⟩).visits a := visits_subset_of_mem (fun _ _ => rfl) h

namespace CompilationUnit.Visited

variable {u : CompilationUnit} {place : Place}

/-- **The visits of what is visited are visits of the unit.** -/
theorem visits_subset (h : u.Visited a place) : place.visits a ⊆ u.visits a := by
  induction h with
  | type ht hb =>
    rw [Place.visits, ← TypeDecl.visits_of_body hb]
    exact fun _ hv => List.mem_flatMap_of_mem ht hv
  | field _ hm hf hd ih =>
    refine List.Subset.trans ?_ (List.Subset.trans (Member.visits_subset hm) ih)
    rw [Member.visits, if_neg (Bool.eq_false_iff.1 hf)]
    exact visits_subset_of_mem (fun _ _ => rfl) hd
  | staticInit _ hm hs ih =>
    exact List.Subset.trans (visits_subset_visitStmts hs) (List.Subset.trans (Member.visits_subset hm) ih)
  | constructor _ hm hg hs ih =>
    refine List.Subset.trans ?_ (List.Subset.trans (Member.visits_subset hm) ih)
    rw [Member.visits, if_neg (Bool.eq_false_iff.1 hg)]
    exact visits_subset_visitStmts hs
  | method _ hm hg hs ih =>
    refine List.Subset.trans ?_ (List.Subset.trans (Member.visits_subset hm) ih)
    rw [Member.visits, if_neg (Bool.eq_false_iff.1 hg)]
    exact visits_subset_visitStmts hs
  | memberType _ hm hb ih =>
    rw [Place.visits, ← TypeDecl.visits_of_body hb]
    exact List.Subset.trans (Member.visits_subset hm) ih
  | localType _ hb ih =>
    rw [Place.visits, ← TypeDecl.visits_of_body hb]
    exact ih
  | anonymousBody _ ha ih =>
    refine List.Subset.trans ?_ ih
    rw [ha]
    exact List.subset_cons_of_subset _ (List.subset_append_right _ _)
  | nested _ hs ih => exact List.Subset.trans (Stmt.visits_subset_of_nested hs) ih
  | lambda _ hs ih => exact List.Subset.trans (visits_subset_visitStmts hs) ih
  | declared _ hl hd ih => exact List.Subset.trans (Stmt.visits_subset_of_local hd hl) ih
  | @initializer _ _ name _ _ x _ hx ih =>
    refine List.Subset.trans (Place.visits_expr_subset (some x.demand) x.value) ?_
    exact List.Subset.trans (Declarator.visits_subset_of_element name hx) ih
  | head _ he ih => exact List.Subset.trans (Stmt.visits_subset_of_operand he) ih
  | operand _ hx ih => exact List.Subset.trans (Expr.visits_subset_of_operand hx) ih

/-- **A slot of what is visited is among the visits of the unit.** -/
theorem slot_mem (h : u.Visited a place) {f : TypeFacts} {t : Ty} {e : Expr} (hslot : Slot f place sc t e) :
    ∃ d forced, f.required? d = some (t, forced) ∧ .slot sc d e ∈ u.visits a := by
  obtain ⟨d, forced, hd, hmem⟩ := hslot.mem_visits a
  exact ⟨d, forced, hd, h.visits_subset hmem⟩

end CompilationUnit.Visited

end Recast
