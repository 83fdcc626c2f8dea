import Recast.Proofs.Members
/-!
# Types reread — a written type is read as itself

Types, class types, type arguments and bounds come back from JSON as they were (`Ty.decode_encode`,
`ClassType.decode_encode`, `TypeArgument.decode_encode`, `TypeBounds.decode_encode`).  A class type stands in the
object of its type, behind the tag; the tag has a name of its own and is passed over.  A dimension of zero is not
written, and what is not written is read as zero.
-/
namespace Recast

open Json (Members)

section Dimension

variable {k : String} (d : UInt32)

@[simp] theorem find?_dimensionMember (h : "dimension" ≠ k) : (dimensionMember d).find? k = some none := by
  unfold dimensionMember Json.optionalMember
  split
  · exact Members.find?_nil k
  · rw [Members.find?_cons_of_ne h, Members.find?_nil]

@[simp] theorem nullable_dimensionMember {α : Type} {e : Decoder α} (h : "dimension" ≠ k) :
    (dimensionMember d).nullable k e = some none := by
  rw [Members.nullable, find?_dimensionMember d h]

@[simp] theorem withDefault_dimensionMember : (dimensionMember d).withDefault "dimension" 0 .uint32 = some d := by
  by_cases hd : d = 0
  · simp [dimensionMember, Json.optionalMember, hd]
  · simp [dimensionMember, Json.optionalMember, hd]

end Dimension

@[simp] theorem Primitive.decode_keyword (p : Primitive) : Primitive.decode (.string p.keyword) = some p :=
  p.ofKeyword?_keyword

/-- No member of a class type has the name of the tag. -/
@[simp] theorem ClassType.find?_kind (c : ClassType) : c.encodeMembers.find? "kind" = some none := by
  obtain ⟨s, as, d⟩ := c
  cases as <;> simp [ClassType.encodeMembers]

/-- A class type is read behind the tag as without it. -/
theorem decodeClassMembers_tag (n : Nat) (j : Json) (ms : Members) :
    decodeClassMembers n (("kind", j) :: ms) = decodeClassMembers n ms := by
  cases n with
  | zero => rfl
  | succ n => simp [decodeClassMembers]

mutual

theorem ClassType.decodeClassMembers_encode : ∀ (c : ClassType) {n : Nat}, c.encodeMembers.Within n →
    decodeClassMembers (n + 1) c.encodeMembers = some c
  | ⟨s, none, d⟩, n, _ => by simp [ClassType.encodeMembers, decodeClassMembers]
  | ⟨s, some as, d⟩, n, ⟨_, hn, _⟩ => by
    have has := decodeArguments_encode as hn
    simp [ClassType.encodeMembers, decodeClassMembers, has]

theorem Ty.decodeTy_encode : ∀ (t : Ty) {n : Nat}, t.encode.Within n → decodeTy n t.encode = some t
  | .primitive p d, n, h => by
    obtain ⟨n, rfl, -⟩ := h.object
    simp [Ty.encode, decodeTy]
  | .object c, n, h => by
    obtain ⟨n, rfl, -, hn⟩ := h.record
    have hc := c.decodeClassMembers_encode hn
    simp [Ty.encode, decodeTy, decodeClassMembers_tag, hc]
  | .var v, n, h => by
    obtain ⟨n, rfl, -⟩ := h.object
    simp [Ty.encode, decodeTy]

theorem TypeArgument.decodeArgument_encode : ∀ (a : TypeArgument) {n : Nat}, a.encode.Within n →
    decodeArgument n a.encode = some a
  | .exact t, n, h => by
    obtain ⟨n, rfl, -, hn, -⟩ := h.object
    have ht := t.decodeTy_encode hn
    simp [TypeArgument.encode, decodeArgument, ht]
  | .any, n, h => by
    obtain ⟨n, rfl, -⟩ := h.object
    simp [TypeArgument.encode, decodeArgument]
  | .upper t, n, h => by
    obtain ⟨n, rfl, -, hn, -⟩ := h.object
    have ht := t.decodeTy_encode hn
    simp [TypeArgument.encode, decodeArgument, ht]
  | .lower t, n, h => by
    obtain ⟨n, rfl, -, hn, -⟩ := h.object
    have ht := t.decodeTy_encode hn
    simp [TypeArgument.encode, decodeArgument, ht]

theorem decodeArguments_encode : ∀ (as : List TypeArgument) {n : Nat}, (Json.array (encodeArguments as)).Within n →
    Decoder.list (decodeArgument n) (.array (encodeArguments as)) = some as
  | [], n, _ => Decoder.list_nil _
  | a :: as, n, h => by
    have ha := a.decodeArgument_encode h.head
    have has := decodeArguments_encode as h.tail
    exact Decoder.list_cons_of ha has

end

/-! ## Decoders with their own steps -/

/-- The steps taken for a value outlast its nesting. -/
theorem within_typeSteps (j : Json) : j.Within (typeSteps j) := by
  unfold Json.Within typeSteps
  omega

/-- **A written type is read as itself.** -/
@[simp] theorem Ty.decode_encode (t : Ty) : Ty.decode t.encode = some t :=
  t.decodeTy_encode (within_typeSteps t.encode)

/-- **A written type argument is read as itself.** -/
@[simp] theorem TypeArgument.decode_encode (a : TypeArgument) : TypeArgument.decode a.encode = some a :=
  a.decodeArgument_encode (within_typeSteps a.encode)

/-- **A written class type is read as itself.** -/
@[simp] theorem ClassType.decode_encode (c : ClassType) : ClassType.decode c.encode = some c := by
  obtain ⟨n, hn, hw⟩ := (within_typeSteps c.encode).object
  have hc := c.decodeClassMembers_encode hw
  rw [← hn] at hc
  exact hc

@[simp] theorem decodeTypes_encode (ts : List Ty) : decodeTypes (encodeTypes ts) = some ts :=
  Decoder.list_ofList fun t _ => t.decode_encode

namespace TypeBounds

/-- An entry behind all others is inserted at the end. -/
theorem insertEntry_last {e : BoundEntry} : ∀ {xs : List BoundEntry}, (∀ x ∈ xs, x.1 < e.1) →
    insertEntry e xs = xs ++ [e]
  | [], _ => rfl
  | x :: xs, h => by
    have hx : x.1 < e.1 := h x List.mem_cons_self
    have hlt : ¬ e.1 < x.1 := Std.not_gt_of_lt hx
    have hne : ¬ e.1 = x.1 := fun heq => String.lt_irrefl _ (heq ▸ hx)
    rw [insertEntry, if_neg hlt, if_neg hne, insertEntry_last fun y hy => h y (List.mem_cons_of_mem x hy),
      List.cons_append]

/-- Entries in order are inserted one behind the other. -/
theorem entries_foldl_insert : ∀ (es : List BoundEntry) (b : TypeBounds),
    (b.entries ++ es).Pairwise (fun x y => x.1 < y.1) →
    (es.foldl (fun b e => b.insert e.1 e.2) b).entries = b.entries ++ es
  | [], b, _ => (List.append_nil b.entries).symm
  | e :: es, b, h => by
    have hlast : (b.insert e.1 e.2).entries = b.entries ++ [e] :=
      insertEntry_last fun x hx => (List.pairwise_append.1 h).2.2 x hx e List.mem_cons_self
    have hes : ((b.insert e.1 e.2).entries ++ es).Pairwise (fun x y => x.1 < y.1) := by
      rwa [hlast, List.append_assoc]
    rw [List.foldl_cons, entries_foldl_insert es _ hes, hlast, List.append_assoc]
    rfl

/-- The entries of bounds make up these bounds. -/
theorem ofList_entries (b : TypeBounds) : ofList b.entries = b :=
  ext (entries_foldl_insert b.entries empty b.ordered)

theorem mapM_encode_entries : ∀ es : List BoundEntry,
    (es.map fun e => (e.1, Json.ofList Ty.encode e.2)).mapM
      (fun m => (Decoder.list Ty.decode m.2).map (m.1, ·)) = some es
  | [] => rfl
  | (n, ts) :: es => by
    have hts : Decoder.list Ty.decode (Json.ofList Ty.encode ts) = some ts := decodeTypes_encode ts
    rw [List.map_cons, List.mapM_cons, hts, mapM_encode_entries es]
    rfl

/-- **Written bounds are read as themselves.** -/
@[simp] theorem decode_encode (b : TypeBounds) : TypeBounds.decode b.encode = some b := by
  have hes := mapM_encode_entries b.entries
  simp only [TypeBounds.decode, TypeBounds.encode, Json.members?_object, Option.bind_eq_bind, Option.bind_some]
  rw [hes, Option.bind_some, ofList_entries]
  rfl

end TypeBounds

end Recast
