import Recast.Proofs.Erasure
/-!
# Ground order — type arguments without variables, by containment

Every argument contains itself.  Containment is no order on all of them: a diamond fits whatever has another argument
list, a type variable matches each class among its bounds, and below `? super` a plain type stands for what it accepts
and not for what accepts it.  On ground arguments, with none of the three at any depth, it is a partial order
(`TypeArgument.contains_partial_order`): each form of argument leaves its contents few forms to have, with the same
class and dimension, and what is left is the same question about smaller arguments.
-/
namespace Recast

mutual

/-- **Ground types** have no type variable, no diamond and no `? super` at any depth. -/
def Ty.isGround : Ty → Bool
  | .primitive .. => true
  | .object c => c.isGround
  | .var _ => false

def ClassType.isGround : ClassType → Bool
  | ⟨_, none, _⟩ => true
  | ⟨_, some as, _⟩ => !as.isEmpty && allGround as

def TypeArgument.isGround : TypeArgument → Bool
  | .exact t => t.isGround
  | .any => true
  | .upper t => t.isGround
  | .lower _ => false

def allGround : List TypeArgument → Bool
  | [] => true
  | a :: as => a.isGround && allGround as

end

variable {b : TypeBounds}

/-! ## What an accepted type looks like -/

theorem ClassType.isGround_some {n : String} {as : List TypeArgument} {d : UInt32} :
    (ClassType.mk n (some as) d).isGround = true ↔ as ≠ [] ∧ allGround as = true := by
  simp [ClassType.isGround]

theorem allGround_cons {a : TypeArgument} {as : List TypeArgument} :
    allGround (a :: as) = true ↔ a.isGround = true ∧ allGround as = true := by
  rw [allGround, Bool.and_eq_true]

theorem Ty.eq_of_primitive_accepts {p : Primitive} {d : UInt32} {u : Ty}
    (h : (Ty.primitive p d).accepts b u = true) : u = .primitive p d := by
  cases u with
  | primitive q e =>
    rw [Ty.accepts, Bool.and_eq_true, beq_iff_eq, beq_iff_eq] at h
    rw [h.1, h.2]
  | object c =>
    rw [Ty.accepts] at h
    cases h
  | var v =>
    rw [Ty.accepts] at h
    cases h

theorem Ty.exists_of_object_accepts {c : ClassType} {u : Ty} (hu : u.isGround = true)
    (h : (Ty.object c).accepts b u = true) : ∃ d, u = .object d ∧ d.isGround = true ∧ c.accepts b d = true := by
  cases u with
  | primitive q e =>
    rw [Ty.accepts] at h
    cases h
  | object d =>
    rw [Ty.accepts] at h
    rw [Ty.isGround] at hu
    exact ⟨d, rfl, hu, h⟩
  | var v =>
    rw [Ty.isGround] at hu
    cases hu

theorem ClassType.eq_of_raw_accepts {n : String} {d : UInt32} {c : ClassType}
    (h : (ClassType.mk n none d).accepts b c = true) : c = ⟨n, none, d⟩ := by
  obtain ⟨m, as, e⟩ := c
  cases as with
  | none =>
    rw [ClassType.accepts, Bool.and_eq_true, beq_iff_eq, beq_iff_eq] at h
    rw [h.1, h.2]
  | some as =>
    rw [ClassType.accepts] at h
    cases h

theorem ClassType.exists_of_some_accepts {n : String} {as : List TypeArgument} {d : UInt32} {c : ClassType}
    (has : as ≠ []) (hc : c.isGround = true) (h : (ClassType.mk n (some as) d).accepts b c = true) :
    ∃ cs, c = ⟨n, some cs, d⟩ ∧ cs ≠ [] ∧ allGround cs = true ∧ containsAll b as cs = true := by
  obtain ⟨m, cs, e⟩ := c
  cases cs with
  | none =>
    rw [ClassType.accepts] at h
    cases h
  | some cs =>
    obtain ⟨hcs, hground⟩ := ClassType.isGround_some.1 hc
    simp only [ClassType.accepts, Bool.and_eq_true, beq_iff_eq, Bool.or_eq_true, List.isEmpty_iff, has, hcs,
      false_or] at h
    obtain ⟨⟨rfl, rfl⟩, hall⟩ := h
    exact ⟨cs, rfl, hcs, hground, hall⟩

/-! ## What a contained argument looks like -/

theorem TypeArgument.exists_of_exact_contains {t : Ty} {a : TypeArgument}
    (h : (TypeArgument.exact t).contains b a = true) : ∃ u, a = .exact u ∧ t.accepts b u = true := by
  cases a with
  | exact u =>
    rw [TypeArgument.contains] at h
    exact ⟨u, rfl, h⟩
  | _ =>
    rw [TypeArgument.contains] at h
    cases h

theorem TypeArgument.exists_of_upper_contains {t : Ty} {a : TypeArgument}
    (h : (TypeArgument.upper t).contains b a = true) :
    ∃ u, (a = .upper u ∨ a = .exact u) ∧ t.accepts b u = true := by
  cases a with
  | exact u =>
    rw [TypeArgument.contains] at h
    exact ⟨u, .inr rfl, h⟩
  | upper u =>
    rw [TypeArgument.contains] at h
    exact ⟨u, .inl rfl, h⟩
  | _ =>
    rw [TypeArgument.contains] at h
    cases h

theorem TypeArgument.eq_any_of_contains {a : TypeArgument} (h : a.contains b .any = true) : a = .any := by
  cases a with
  | any => rfl
  | _ =>
    rw [TypeArgument.contains] at h
    cases h

theorem eq_nil_of_containsAll {cs : List TypeArgument} (h : containsAll b [] cs = true) : cs = [] := by
  cases cs with
  | nil => rfl
  | cons c cs =>
    rw [containsAll] at h
    cases h

theorem exists_of_containsAll_cons {a : TypeArgument} {as cs : List TypeArgument}
    (h : containsAll b (a :: as) cs = true) :
    ∃ x xs, cs = x :: xs ∧ a.contains b x = true ∧ containsAll b as xs = true := by
  cases cs with
  | nil =>
    rw [containsAll] at h
    cases h
  | cons x xs =>
    rw [containsAll, Bool.and_eq_true] at h
    exact ⟨x, xs, rfl, h⟩

/-! ## The order -/

mutual

theorem Ty.accepts_trans : ∀ {t u v : Ty}, t.isGround = true → u.isGround = true → v.isGround = true →
    t.accepts b u = true → u.accepts b v = true → t.accepts b v = true
  | .primitive p d, u, v, _, _, _, htu, huv => by
    obtain rfl := Ty.eq_of_primitive_accepts htu
    exact huv
  | .object c, u, v, ht, hu, hv, htu, huv => by
    obtain ⟨d, rfl, hd, hcd⟩ := Ty.exists_of_object_accepts hu htu
    obtain ⟨e, rfl, he, hde⟩ := Ty.exists_of_object_accepts hv huv
    rw [Ty.isGround] at ht
    rw [Ty.accepts]
    exact ClassType.accepts_trans ht hd he hcd hde

theorem ClassType.accepts_trans : ∀ {c d e : ClassType}, c.isGround = true → d.isGround = true → e.isGround = true →
    c.accepts b d = true → d.accepts b e = true → c.accepts b e = true
  | ⟨n, none, i⟩, d, e, _, _, _, hcd, hde => by
    obtain rfl := ClassType.eq_of_raw_accepts hcd
    exact hde
  | ⟨n, some as, i⟩, d, e, hc, hd, he, hcd, hde => by
    obtain ⟨has, hgas⟩ := ClassType.isGround_some.1 hc
    obtain ⟨cs, rfl, hcs, hgcs, hall⟩ := ClassType.exists_of_some_accepts has hd hcd
    obtain ⟨es, rfl, hes, hges, hall'⟩ := ClassType.exists_of_some_accepts hcs he hde
    rw [ClassType.accepts, beq_self_eq_true, beq_self_eq_true, containsAll_trans hgas hgcs hges hall hall',
      Bool.or_true]
    rfl

theorem TypeArgument.contains_trans : ∀ {x y z : TypeArgument}, x.isGround = true → y.isGround = true →
    z.isGround = true → x.contains b y = true → y.contains b z = true → x.contains b z = true
  | .exact t, y, z, hx, hy, hz, hxy, hyz => by
    obtain ⟨u, rfl, htu⟩ := TypeArgument.exists_of_exact_contains hxy
    obtain ⟨v, rfl, huv⟩ := TypeArgument.exists_of_exact_contains hyz
    rw [TypeArgument.isGround] at hx hy hz
    rw [TypeArgument.contains]
    exact Ty.accepts_trans hx hy hz htu huv
  | .any, y, z, _, _, _, _, _ => by rw [TypeArgument.contains]
  | .upper t, y, z, hx, hy, hz, hxy, hyz => by
    obtain ⟨u, hu, htu⟩ := TypeArgument.exists_of_upper_contains hxy
    -- below an upper bound there are upper bounds and plain types, and below a plain type plain types
    have hyz : ∃ v, (z = .upper v ∨ z = .exact v) ∧ u.accepts b v = true := by
      rcases hu with rfl | rfl
      · exact TypeArgument.exists_of_upper_contains hyz
      · obtain ⟨v, rfl, huv⟩ := TypeArgument.exists_of_exact_contains hyz
        exact ⟨v, .inr rfl, huv⟩
    obtain ⟨v, hv, huv⟩ := hyz
    have hgu : u.isGround = true := by rcases hu with rfl | rfl <;> exact hy
    have hgv : v.isGround = true := by rcases hv with rfl | rfl <;> exact hz
    rw [TypeArgument.isGround] at hx
    have htv := Ty.accepts_trans hx hgu hgv htu huv
    rcases hv with rfl | rfl <;> rw [TypeArgument.contains] <;> exact htv

theorem containsAll_trans : ∀ {as cs es : List TypeArgument}, allGround as = true → allGround cs = true →
    allGround es = true → containsAll b as cs = true → containsAll b cs es = true → containsAll b as es = true
  | [], cs, es, _, _, _, hac, hce => by
    obtain rfl := eq_nil_of_containsAll hac
    exact hce
  | a :: as, cs, es, has, hcs, hes, hac, hce => by
    obtain ⟨c, cs, rfl, hhead, htail⟩ := exists_of_containsAll_cons hac
    obtain ⟨e, es, rfl, hhead', htail'⟩ := exists_of_containsAll_cons hce
    obtain ⟨ha, has⟩ := allGround_cons.1 has
    obtain ⟨hc, hcs⟩ := allGround_cons.1 hcs
    obtain ⟨he, hes⟩ := allGround_cons.1 hes
    rw [containsAll, TypeArgument.contains_trans ha hc he hhead hhead', containsAll_trans has hcs hes htail htail']
    rfl

end

mutual

theorem Ty.accepts_antisymm : ∀ {t u : Ty}, t.isGround = true → u.isGround = true → t.accepts b u = true →
    u.accepts b t = true → t = u
  | .primitive p d, u, _, _, htu, _ => (Ty.eq_of_primitive_accepts htu).symm
  | .object c, u, ht, hu, htu, hut => by
    obtain ⟨d, rfl, hd, hcd⟩ := Ty.exists_of_object_accepts hu htu
    rw [Ty.isGround] at ht
    rw [Ty.accepts] at hut
    exact congrArg Ty.object (ClassType.accepts_antisymm ht hd hcd hut)

theorem ClassType.accepts_antisymm : ∀ {c d : ClassType}, c.isGround = true → d.isGround = true →
    c.accepts b d = true → d.accepts b c = true → c = d
  | ⟨n, none, i⟩, d, _, _, hcd, _ => (ClassType.eq_of_raw_accepts hcd).symm
  | ⟨n, some as, i⟩, d, hc, hd, hcd, hdc => by
    obtain ⟨has, hgas⟩ := ClassType.isGround_some.1 hc
    obtain ⟨cs, rfl, hcs, hgcs, hall⟩ := ClassType.exists_of_some_accepts has hd hcd
    obtain ⟨es, hes, -, -, hall'⟩ := ClassType.exists_of_some_accepts hcs hc hdc
    cases hes
    rw [containsAll_antisymm hgas hgcs hall hall']

theorem TypeArgument.contains_antisymm : ∀ {x y : TypeArgument}, x.isGround = true → y.isGround = true →
    x.contains b y = true → y.contains b x = true → x = y
  | .exact t, y, hx, hy, hxy, hyx => by
    obtain ⟨u, rfl, htu⟩ := TypeArgument.exists_of_exact_contains hxy
    obtain ⟨v, hv, hut⟩ := TypeArgument.exists_of_exact_contains hyx
    cases hv
    rw [TypeArgument.isGround] at hx hy
    exact congrArg TypeArgument.exact (Ty.accepts_antisymm hx hy htu hut)
  | .any, y, _, _, _, hyx => (TypeArgument.eq_any_of_contains hyx).symm
  | .upper t, y, hx, hy, hxy, hyx => by
    obtain ⟨u, rfl | rfl, htu⟩ := TypeArgument.exists_of_upper_contains hxy
    · obtain ⟨v, hv | hv, hut⟩ := TypeArgument.exists_of_upper_contains hyx
      · cases hv
        rw [TypeArgument.isGround] at hx hy
        exact congrArg TypeArgument.upper (Ty.accepts_antisymm hx hy htu hut)
      · cases hv
    · -- a plain type contains no bound
      obtain ⟨v, hv, -⟩ := TypeArgument.exists_of_exact_contains hyx
      cases hv

theorem containsAll_antisymm : ∀ {as cs : List TypeArgument}, allGround as = true → allGround cs = true →
    containsAll b as cs = true → containsAll b cs as = true → as = cs
  | [], cs, _, _, hac, _ => (eq_nil_of_containsAll hac).symm
  | a :: as, cs, has, hcs, hac, hca => by
    obtain ⟨c, cs, rfl, hhead, htail⟩ := exists_of_containsAll_cons hac
    obtain ⟨x, xs, hx, hhead', htail'⟩ := exists_of_containsAll_cons hca
    cases hx
    obtain ⟨ha, has⟩ := allGround_cons.1 has
    obtain ⟨hc, hcs⟩ := allGround_cons.1 hcs
    rw [TypeArgument.contains_antisymm ha hc hhead hhead', containsAll_antisymm has hcs htail htail']

end

/-- **Containment is a partial order on ground arguments**, whatever the bounds; on the others it is
reflexive all the same. -/
theorem TypeArgument.contains_partial_order (b : TypeBounds) :
    (∀ x : TypeArgument, x.contains b x = true) ∧
    (∀ x y z : TypeArgument, x.isGround = true → y.isGround = true → z.isGround = true →
      x.contains b y = true → y.contains b z = true → x.contains b z = true) ∧
    ∀ x y : TypeArgument, x.isGround = true → y.isGround = true →
      x.contains b y = true → y.contains b x = true → x = y :=
  ⟨fun x => x.contains_self b, fun _ _ _ => contains_trans, fun _ _ => contains_antisymm⟩

/-- `Map<K, String>` for an argument `K`. -/
def Ty.mapToString (key : TypeArgument) : Ty := .object ⟨"java/util/Map", some [key, .exact (.object .string)], 0⟩

theorem Ty.accepts_mapToString {k l : TypeArgument} (h : k.contains b l = true) :
    (mapToString k).accepts b (mapToString l) = true := by
  unfold mapToString
  rw [Ty.accepts, ClassType.accepts, containsAll, h, containsAll_self]
  rfl

/-- `? extends Map<?, String>` contains `? extends Map<? extends Number, String>`, that contains `Map<Number, String>`,
and what the last contains and is contained in is itself. -/
theorem TypeArgument.contains_partial_order_map :
    (TypeArgument.upper (.mapToString .any)).contains .empty
      (.upper (.mapToString (.upper (.ofClass "java/lang/Number")))) = true ∧
    (TypeArgument.upper (.mapToString .any)).contains .empty
      (.exact (.mapToString (.exact (.ofClass "java/lang/Number")))) = true ∧
    TypeArgument.exact (.mapToString (.exact (.ofClass "java/lang/Number"))) =
      .exact (.object ⟨"java/util/Map", some [.exact (.ofClass "java/lang/Number"), .exact (.object .string)], 0⟩) := by
  obtain ⟨hself, htrans, hantisymm⟩ := contains_partial_order .empty
  have hany : (TypeArgument.upper (.mapToString .any)).contains .empty
      (.upper (.mapToString (.upper (.ofClass "java/lang/Number")))) = true := by
    rw [contains]
    exact Ty.accepts_mapToString (by rw [contains])
  have hupper : (TypeArgument.upper (.mapToString (.upper (.ofClass "java/lang/Number")))).contains .empty
      (.exact (.mapToString (.exact (.ofClass "java/lang/Number")))) = true := by
    rw [contains]
    exact Ty.accepts_mapToString (by rw [contains]; exact Ty.accepts_self _ _)
  exact ⟨hany, htrans _ _ _ rfl rfl rfl hany hupper, hantisymm _ _ rfl rfl (hself _) (hself _)⟩

end Recast
